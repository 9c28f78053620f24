/-
# A stuck webhook is reported

A pass reports a webhook when its failed attempt is the tenth by the count the pass has loaded.
Between the loading and the record the count may go on elsewhere, and the record may be lost.
Where neither happens (`ReportsOnTime`) a webhook is reported once, and not before ten failures of
it are recorded.
-/
import KaimanWebhooks.Bookkeeping
import KaimanWebhooks.SingleDelivery
import KaimanWebhooks.Turns

/-! ## Counting failures -/

/-- The failures a row counts. -/
def Row.failures (r : Row) : ℤ :=
  match r.forwardAttempts with
  | .int n => n
  | _ => 0

theorem Row.WellTyped.failures_failed {r : Row} (h : r.WellTyped) (coerce : SqlValue → SqlValue)
    (now : ℤ) (message : String) (next : ℤ) :
    (r.failed coerce now message next).failures = r.failures + 1 := by
  obtain ⟨n, hn⟩ := h.forwardAttempts
  simp [Row.failures, Row.failed, Row.nextForwardAttempts, hn]

/-- As many failures of the webhook are recorded as make it stuck. -/
def IsStuck (t : Table) (id : ℤ) : Prop :=
  ∃ r ∈ t.rows, r.id = id ∧ stuckAttemptsThreshold ≤ r.failures

instance (t : Table) (id : ℤ) : Decidable (IsStuck t id) := by
  unfold IsStuck
  infer_instance

/-- The next failure of the webhook is the tenth. -/
def IsTenthNext (t : Table) (id : ℤ) : Prop :=
  ∃ r ∈ t.rows, r.id = id ∧ r.failures + 1 = stuckAttemptsThreshold

instance (t : Table) (id : ℤ) : Decidable (IsTenthNext t id) := by
  unfold IsTenthNext
  infer_instance

/-- The entry recorded the tenth failure of the webhook. -/
def RecordsTenth (id : ℤ) (e : ServiceEntry) : Prop :=
  recordsFailure id e.done = true ∧ IsTenthNext e.before.table id

/-- The call sent the webhook, and by the count it was read with the attempt is the tenth. -/
def sendsTenth (id : ℤ) : DoneCall → Bool
  | ⟨.send (some webhook) _, _⟩ =>
      webhook.id = some id && crossedStuckThreshold webhook.forwardAttempts
  | _ => false

theorem isSend_of_sendsTenth {id : ℤ} {d : DoneCall} (h : sendsTenth id d = true) :
    isSend d = true := by
  unfold sendsTenth at h
  split at h
  · rfl
  · cases h

/-- The call committed a failure. -/
def commitsFailure : DoneCall → Bool
  | ⟨.sql (.recordForwardFailure _ _ _ _), .ok _⟩ => true
  | _ => false

theorem exists_recordsFailure_of_commits {d : DoneCall} (h : commitsFailure d = true) :
    ∃ id, recordsFailure id d = true := by
  unfold commitsFailure at h
  split at h
  · exact ⟨_, decide_eq_true rfl⟩
  · cases h

/-! ## Reports -/

instance (id : ℤ) (d : DoneCall) : Decidable (AppState.attempted id d) := by
  unfold AppState.attempted
  split <;> infer_instance

/-- The entry, made after the older ones, reports the webhook: its task had sent it. -/
def Reports (id : ℤ) (older : List ServiceEntry) (e : ServiceEntry) : Prop :=
  isReport e.done = true ∧ ∃ e' ∈ older, e'.task = e.task ∧ AppState.attempted id e'.done

instance (id : ℤ) (older : List ServiceEntry) (e : ServiceEntry) :
    Decidable (Reports id older e) :=
  inferInstanceAs (Decidable (_ ∧ _))

/-- The reports of a webhook in a history. -/
def stuckReports (id : ℤ) : List ServiceEntry → List ServiceEntry
  | [] => []
  | e :: older => if Reports id older e then e :: stuckReports id older else stuckReports id older

section Reports

variable {id : ℤ} {e : ServiceEntry} {newer older : List ServiceEntry}

theorem mem_of_mem_stuckReports (h : e ∈ stuckReports id older) :
    e ∈ older ∧ isReport e.done = true := by
  induction older with
  | nil => cases h
  | cons e' older ih =>
      unfold stuckReports at h
      split_ifs at h with hreports
      · rcases List.mem_cons.mp h with rfl | h
        · exact ⟨List.mem_cons_self, hreports.1⟩
        · exact (ih h).imp_left (List.mem_cons_of_mem _)
      · exact (ih h).imp_left (List.mem_cons_of_mem _)

/-- A report stays a report. -/
theorem mem_stuckReports_append (h : e ∈ stuckReports id older) :
    e ∈ stuckReports id (newer ++ older) := by
  induction newer with
  | nil => exact h
  | cons e' newer ih =>
      rw [List.cons_append, stuckReports]
      split_ifs
      · exact List.mem_cons_of_mem _ ih
      · exact ih

theorem Reports.mem_stuckReports (h : Reports id older e) :
    e ∈ stuckReports id (newer ++ e :: older) := by
  apply mem_stuckReports_append
  rw [stuckReports, if_pos h]
  exact List.mem_cons_self

end Reports

/-! ## Reports on time -/

/-- The passes of the forwarders. -/
def Job.isPass : Job → Bool
  | .cycle _ => true
  | _ => false

/-- The resets of the attempts, which no handler asks for. -/
def Job.isReset : Job → Bool
  | .reset _ => true
  | _ => false

/-- The pass has recorded the tenth failure by its count, and not reported it yet. -/
def OwesReport (id : ℤ) (t : ServiceTask) : Prop :=
  t.job.isPass = true ∧ (∃ d ∈ t.past, sendsTenth id d = true) ∧
    (∃ d ∈ t.past, recordsFailure id d = true) ∧ ∀ d ∈ t.past, isReport d = false

instance (id : ℤ) (t : ServiceTask) : Decidable (OwesReport id t) :=
  inferInstanceAs (Decidable (_ ∧ _))

/-- **When a call of a task is on time.**  A failure is committed as the tenth of the webhook
exactly when it is the tenth by the count of a pass; a pass reports what it has committed; and it
does not send the webhook while the pass of another forwarder owes its report. -/
def Call.OnTime (s : ServiceState) (t : ServiceTask) (i : Input) : Call Query → Prop
  | .sql (.recordForwardFailure _ _ _ id) =>
      -- the count in the row, against the count the pass read when it selected the webhook
      i.fault = none → (IsTenthNext s.shared.table id ↔
        t.job.isPass = true ∧ ∃ d ∈ t.past, sendsTenth id d = true)
  -- `record_failure` goes on to its report when the failure could not be stored
  | .logError _ => ∃ d ∈ t.past, commitsFailure d = true
  | .send (some webhook) _ =>
      t.job.isPass = true → ∀ id ∈ webhook.id, ∀ u ∈ s.tasks, OwesReport id u → u.job = t.job
  | _ => True

instance (s : ServiceState) (t : ServiceTask) (i : Input) (c : Call Query) :
    Decidable (c.OnTime s t i) := by
  unfold Call.OnTime
  split <;> infer_instance

/-- Nothing is reset, and the next call of a task is on time. -/
def ReportsOnTime (s : ServiceState) : ServiceEvent → Prop
  | .spawn j => j.isReset = false
  | .advance n i => ∀ t ∈ s.tasks[n]?, ∀ c ∈ s.nextCall n, c.OnTime s t i

instance (s : ServiceState) (e : ServiceEvent) : Decidable (ReportsOnTime s e) :=
  match e with
  | .spawn _ | .advance _ _ => by unfold ReportsOnTime; infer_instance

/-! ## One tenth failure -/

/-- The tenth failure of the webhook is the work of one task, and a row shows whether it was
recorded. -/
structure TenthOnce (id : ℤ) (s : ServiceState) : Prop where
  task_eq : ∀ e ∈ s.history, ∀ e' ∈ s.history, RecordsTenth id e → RecordsTenth id e' →
    e.task = e'.task
  counted : ∀ r ∈ s.shared.table.rows, r.id = id →
    0 ≤ r.failures ∧ (stuckAttemptsThreshold ≤ r.failures ↔ ∃ e ∈ s.history, RecordsTenth id e)
  given : ∀ e ∈ s.history, RecordsTenth id e → id ≤ s.shared.table.seq

section Tenth

variable {ext : External} {id : ℤ} {s s' : ServiceState} {e : ServiceEntry}

/-- An entry that is no tenth failure changes nothing about them. -/
theorem exists_recordsTenth_cons (h : ¬RecordsTenth id e) :
    (∃ e' ∈ e :: s.history, RecordsTenth id e') ↔ ∃ e' ∈ s.history, RecordsTenth id e' := by
  constructor
  · rintro ⟨e', he', htenth⟩
    rcases List.mem_cons.mp he' with rfl | he'
    · exact absurd htenth h
    · exact ⟨e', he', htenth⟩
  · rintro ⟨e', he', htenth⟩
    exact ⟨e', List.mem_cons_of_mem _ he', htenth⟩

/-- A tenth failure is the first one. -/
theorem TenthOnce.not_exists (h : TenthOnce id s) (hbefore : e.before = s.shared)
    (htenth : RecordsTenth id e) : ¬∃ e' ∈ s.history, RecordsTenth id e' := by
  obtain ⟨-, r, hr, hid, hnext⟩ := htenth
  rw [hbefore] at hr
  rw [← (h.counted r hr hid).2]
  omega

/-- What a row shows after one more failure of its webhook: one more is counted, and it is the
tenth when there were nine. -/
theorem TenthOnce.counted_failed (h : TenthOnce id s) (hbefore : e.before = s.shared) {r r' : Row}
    (hr : r ∈ s.shared.table.rows) (hid : r.id = id) (hrecords : recordsFailure id e.done = true)
    (hfailures : r'.failures = r.failures + 1) :
    0 ≤ r'.failures ∧
      (stuckAttemptsThreshold ≤ r'.failures ↔ ∃ e' ∈ e :: s.history, RecordsTenth id e') := by
  obtain ⟨hpos, hstuck⟩ := h.counted r hr hid
  have htenth : RecordsTenth id e ↔ r.failures + 1 = stuckAttemptsThreshold := by
    constructor
    · rintro ⟨-, r₀, hr₀, hid₀, hnext⟩
      rw [hbefore] at hr₀
      rwa [s.shared.table.eq_of_id_eq hr₀ hr (hid₀.trans hid.symm)] at hnext
    · intro hnext
      refine ⟨hrecords, r, ?_, hid, hnext⟩
      rw [hbefore]
      exact hr
  refine ⟨by omega, ?_⟩
  rw [hfailures]
  by_cases hnine : r.failures + 1 = stuckAttemptsThreshold
  · exact iff_of_true hnine.ge ⟨e, List.mem_cons_self, htenth.mpr hnine⟩
  · rw [exists_recordsTenth_cons (mt htenth.mp hnine), ← hstuck]
    omega

/-- What a row shows after one more entry. -/
theorem TenthOnce.counted_cons (h : TenthOnce id s) (hperformed : Performed ext e)
    (hbefore : e.before = s.shared) (htyped : ∀ r ∈ s.shared.table.rows, r.WellTyped)
    (hreset : ∀ id', e.call ≠ .sql (.resetForwardAttempts id')) {r : Row}
    (hr : r ∈ e.after.table.rows) (hid : r.id = id) :
    0 ≤ r.failures ∧
      (stuckAttemptsThreshold ≤ r.failures ↔ ∃ e' ∈ e :: s.history, RecordsTenth id e') := by
  have hkept : ∀ r ∈ s.shared.table.rows, r.id = id → recordsFailure id e.done = false →
      0 ≤ r.failures ∧
        (stuckAttemptsThreshold ≤ r.failures ↔ ∃ e' ∈ e :: s.history, RecordsTenth id e') := by
    intro r hr hid hquiet
    have hnone : ¬RecordsTenth id e := by
      rintro ⟨hrecords, -⟩
      rw [hquiet] at hrecords
      cases hrecords
    rw [exists_recordsTenth_cons hnone]
    exact h.counted r hr hid
  rcases hperformed.cases with ⟨htable, hquiet⟩ | ⟨q, choice, hdone, hafter⟩
  · rw [htable, hbefore] at hr
    exact hkept r hr hid (quiet_of_not_ok hquiet).2
  · rw [hafter, hbefore] at hr
    rw [hbefore] at hdone
    have hcall : e.call = .sql q := congrArg Sigma.fst hdone
    rcases Query.row_cases hr with ⟨hold, hrecord, -⟩ |
      ⟨now, message, next, rfl, r₀, hold, hid₀, rfl⟩ | ⟨rfl, -⟩ | ⟨content, hinserts, rfl⟩
    · refine hkept r hold hid (Bool.eq_false_iff.mpr fun hrecords => ?_)
      obtain ⟨now, message, next, a, hdone'⟩ := exists_of_recordsFailure hrecords
      refine hrecord now message next (Call.sql.inj (hcall.symm.trans ?_))
      rw [hid]
      exact congrArg Sigma.fst hdone'
    · refine h.counted_failed hbefore hold hid ?_ ?_
      · rw [hdone]
        simp [recordsFailure, show r₀.id = id from hid]
      · exact (htyped r₀ hold).failures_failed choice.coerce now message next
    · exact absurd hcall (hreset _)
    · -- a new row has not failed, and its id was not given out before
      have hnone : ¬∃ e' ∈ e :: s.history, RecordsTenth id e' := by
        have hnew : ¬RecordsTenth id e := by
          rintro ⟨hrecords, -⟩
          obtain ⟨now, message, next, a, hdone'⟩ := exists_of_recordsFailure hrecords
          obtain rfl : q = .recordForwardFailure now message next id :=
            Call.sql.inj (hcall.symm.trans (congrArg Sigma.fst hdone'))
          cases hinserts
        rw [exists_recordsTenth_cons hnew]
        rintro ⟨e', he', htenth⟩
        have hle := h.given e' he' htenth
        rw [Row.inserted_id] at hid
        omega
      refine ⟨le_rfl, iff_of_false ?_ hnone⟩
      simp [Row.failures, Row.inserted, stuckAttemptsThreshold]

/-- One more entry keeps the tenth failure apart. -/
theorem TenthOnce.cons (h : TenthOnce id s) (hperformed : Performed ext e)
    (hbefore : e.before = s.shared) (htyped : ∀ r ∈ s.shared.table.rows, r.WellTyped)
    (hreset : ∀ id', e.call ≠ .sql (.resetForwardAttempts id')) (hshared : s'.shared = e.after)
    (hhistory : s'.history = e :: s.history) : TenthOnce id s' := by
  have hseq : s.shared.table.seq ≤ s'.shared.table.seq := by
    rw [hshared, ← hbefore]
    exact hperformed.seq_le
  refine ⟨?_, ?_, ?_⟩
  · rw [hhistory]
    intro e₁ he₁ e₂ he₂ h₁ h₂
    rcases List.mem_cons.mp he₁ with rfl | hold₁
    · rcases List.mem_cons.mp he₂ with rfl | hold₂
      · rfl
      · exact absurd ⟨e₂, hold₂, h₂⟩ (h.not_exists hbefore h₁)
    · rcases List.mem_cons.mp he₂ with rfl | hold₂
      · exact absurd ⟨e₁, hold₁, h₁⟩ (h.not_exists hbefore h₂)
      · exact h.task_eq e₁ hold₁ e₂ hold₂ h₁ h₂
  · rw [hhistory, hshared]
    exact fun r hr hid => h.counted_cons hperformed hbefore htyped hreset hr hid
  · rw [hhistory]
    intro e' he' htenth
    rcases List.mem_cons.mp he' with rfl | he'
    · obtain ⟨-, r, hr, hid, -⟩ := htenth
      rw [hbefore] at hr
      exact hid ▸ (s.shared.table.le_seq r hr).trans hseq
    · exact (h.given e' he' htenth).trans hseq

end Tenth

namespace AppState

variable {state : AppState}

/-- What is left to do when every job's returns are looked at: only the passes matter. -/
theorem start_returnsReported (job : Job) :
    (state.start job).Obeys state.machine.Answers (fun _ _ => True)
      (fun past _ => job.isPass = true → state.ReportsStuck job past) [] := by
  cases job with
  | cycle k =>
      exact (start_reportsStuck k).weaken (fun _ _ _ hP => hP) fun _ _ _ hQ _ => hQ
  | _ => exact CallProgram.obeys_of_forall (fun _ _ => trivial) (fun _ _ => nofun) _

section Runs

variable {ok : ServiceState → ServiceEvent → Prop} {s : ServiceState}
  (hok : ∀ s e, ok s e → ReportsOnTime s e) (h : state.machine.Reaches ok state.initial s)

include hok h

/-- No task resets attempts. -/
theorem isReset_eq_false_of_mem : ∀ t ∈ s.tasks, t.job.isReset = false := by
  refine h.invariant (fun s => ∀ t ∈ s.tasks, t.job.isReset = false) ?_ ?_ ?_
  · simp [initial]
  · intro s j hs hspawn _ t ht
    rcases List.mem_append.mp ht with ht | ht
    · exact hs t ht
    · rw [List.mem_singleton.mp ht]
      exact hok s _ hspawn
  · intro s n i t c k hs _ ht _ u hu
    rcases List.mem_or_eq_of_mem_set hu with hu | rfl
    · exact hs u hu
    · exact hs t (List.mem_of_getElem? ht)

/-- **Along every run the tenth failure of a webhook is recorded once.** -/
theorem tenthOnce_of_reaches (id : ℤ) : TenthOnce id s := by
  refine h.invariant_along (TenthOnce id) ?_ (fun s j _ hs _ _ => { hs with }) ?_
  · exact ⟨by simp [initial], by simp [initial, Table.empty], by simp [initial]⟩
  · intro s n i t c k hreach hs _ ht hr
    let e := state.machine.entry s n t c i
    have hperformed : Performed state.db.ext e := ⟨i, rfl⟩
    refine hs.cons hperformed rfl (ledger_of_reaches hreach).wellTyped ?_ rfl rfl
    rintro id' hcall
    -- a reset belongs to a job that is not started
    have hmem := List.mem_of_getElem? ht
    have hprotocol := hreach.next_permitted rfl start_obeys hmem hr
    rw [show c = .sql (.resetForwardAttempts id') from hcall] at hprotocol
    have hjob : t.job = .reset id' := hprotocol
    have hreset := isReset_eq_false_of_mem hok hreach t hmem
    rw [hjob] at hreset
    cases hreset

/-- **What a recorded failure goes back to**: its task had sent the webhook and was refused, and
was on time. -/
theorem exists_recording {e : ServiceEntry} (he : e ∈ s.history) {id : ℤ}
    (hrecords : recordsFailure id e.done = true) :
    ∃ (s₁ : ServiceState) (t : ServiceTask) (a : FailedAttempt),
      state.machine.Reaches ok state.initial s₁ ∧ (∀ e' ∈ s₁.history, e' ∈ s.history) ∧
      s₁.tasks[e.task]? = some t ∧ t.job = e.job ∧ a.Of state t.job ∧ a.webhook.id = some id ∧
      (⟨.send (some a.webhook) a.request, a.answer⟩ : DoneCall) ∈ t.past ∧
      (IsTenthNext e.before.table id ↔
        t.job.isPass = true ∧ ∃ d ∈ t.past, sendsTenth id d = true) := by
  obtain ⟨now, message, next, affected, hdone⟩ := exists_of_recordsFailure hrecords
  obtain ⟨s₁, newer, hmade⟩ := h.exists_madeIn rfl he
  obtain ⟨i, t, hevent, ht, ⟨hjob, k, hrest⟩, hnext, hfault, -⟩ :=
    exists_executed_of_madeIn hmade hdone
  obtain ⟨a, hof, hquery, waiting, hpast⟩ := exists_failedAttempt hmade.reaches ht hrest
  obtain ⟨-, -, -, rfl⟩ := Query.recordForwardFailure.inj hquery
  have htime := hok _ _ hevent t ht _ hnext hfault
  rw [hmade.before] at htime
  exact ⟨s₁, t, a, hmade.reaches, fun _ => hmade.mem_history, ht, hjob, hof,
    (parseWebhookRow_eq_some hof.parse).1, FailedAttempt.sent_mem hpast, htime⟩

omit hok in
/-- A task that has attempted once has not reported: a report comes after a send, and it sends
once. -/
theorem not_isReport_of_attempt {t : ServiceTask} (hmem : t ∈ s.tasks)
    (hdelivery : isDelivery t.job = true) {a : FailedAttempt} {message : String}
    {waiting : List DoneCall} (hwaiting : OnlyAttempts (a.query message) waiting)
    (hpast : t.past = waiting ++ a.calls) : ∀ d ∈ t.past, isReport d = false := by
  have hbefore : NoSend a.before :=
    noSend_of_suffix h hmem (FailedAttempt.sent_suffix hpast) rfl
  intro d hd
  by_contra hreport
  rw [Bool.not_eq_false] at hreport
  rw [hpast] at hd
  rcases List.mem_append.mp hd with hd | hd
  · have hquiet := hwaiting.not_isReport d hd
    rw [hreport] at hquiet
    cases hquiet
  · have hold : d ∈ a.before := by
      simp only [FailedAttempt.calls, List.mem_cons] at hd
      rcases hd with rfl | rfl | rfl | rfl | hd
      · cases hreport
      · cases hreport
      · cases hreport
      · cases hreport
      · exact hd
    obtain ⟨newer, older, hcut⟩ := List.append_of_mem hold
    have hsuffix : (d :: older) <:+ t.past :=
      (hcut ▸ List.suffix_append newer _).trans (FailedAttempt.before_suffix hpast)
    have hpermitted := h.permitted rfl start_recordsAttempt t hmem d older hsuffix hdelivery
    obtain ⟨record', u, rfl⟩ := exists_of_isReport hreport
    obtain ⟨-, -, -, -, a', -, -, -, -, waiting', -, hpast'⟩ := hpermitted
    -- the calls before that report hold a send as well
    have hsent' := FailedAttempt.sent_mem hpast'
    have hunsent := hbefore _ (hcut ▸ List.mem_append_right _ (List.mem_cons_of_mem _ hsent'))
    cases hunsent

omit hok in
/-- A report follows a failed attempt that was the tenth by the count the task had loaded. -/
theorem exists_attempt_of_report {n : ℕ} {t : ServiceTask} (ht : s.tasks[n]? = some t)
    {record : String} {k : Unit → CallProgram (Call Query) (Call.Answer Query.Answer)
      (Option HttpResponse)} (hr : t.rest = .call (.logError record) k) {id : ℤ}
    (hattempted : ∃ d ∈ t.past, attempted id d) :
    ∃ k fw, t.job = .cycle k ∧ state.forwarders[k]? = some fw ∧ ∃ a : FailedAttempt,
      a.webhook.id = some id ∧ crossedStuckThreshold a.webhook.forwardAttempts = true ∧
      (⟨.send (some a.webhook) a.request, a.answer⟩ : DoneCall) ∈ t.past ∧
      (∃ message, record = fw.stuckRecord id message) ∧ ∀ d ∈ t.past, isReport d = false := by
  have hmem := List.mem_of_getElem? ht
  obtain ⟨sent, hsent, hattempted⟩ := hattempted
  have hdelivery := isDelivery_of_sent h ht hsent hattempted
  obtain ⟨k, fw, hjob, hfw, a, hof, hcrossed, message, hrecord, waiting, hwaiting, hpast⟩ :=
    h.next_permitted rfl start_recordsAttempt hmem hr hdelivery
  have hmade := FailedAttempt.sent_mem hpast
  have hid : a.webhook.id = some id := by
    rw [eq_of_isSend h hmem hsent hmade (isSend_of_attempted hattempted) rfl] at hattempted
    exact hattempted
  have hrow : a.row.id = id := id_of_parseWebhookRow hof.parse hid
  exact ⟨k, fw, hjob, hfw, a, hid, hcrossed, hmade, ⟨message, hrow ▸ hrecord⟩,
    not_isReport_of_attempt h hmem hdelivery hwaiting hpast⟩

/-- A task that is about to report has recorded the tenth failure. -/
theorem exists_recordsTenth_of_report {n : ℕ} {t : ServiceTask} (ht : s.tasks[n]? = some t)
    {record : String} {k : Unit → CallProgram (Call Query) (Call.Answer Query.Answer)
      (Option HttpResponse)} (hr : t.rest = .call (.logError record) k)
    (hcommitted : ∃ d ∈ t.past, commitsFailure d = true) {id : ℤ}
    (hattempted : ∃ d ∈ t.past, attempted id d) :
    ∃ e ∈ s.history, e.task = n ∧ RecordsTenth id e := by
  have hmem := List.mem_of_getElem? ht
  obtain ⟨k, fw, hjob, -, a, hid, hcrossed, hmade, -⟩ := exists_attempt_of_report h ht hr hattempted
  obtain ⟨d, hd, hcommits⟩ := hcommitted
  obtain ⟨id', hrecords⟩ := exists_recordsFailure_of_commits hcommits
  obtain ⟨e, he, htask, hejob, rfl⟩ := h.pastsRecorded rfl n t d ht hd
  obtain ⟨s₁, t₁, a₁, h₁, hsubset, ht₁, hjob₁, -, hid₁, hmade₁, htime⟩ :=
    exists_recording hok h he hrecords
  have hmade' := h₁.past_subset h rfl rfl hsubset ht₁ (htask ▸ ht) _ hmade₁
  have hsame := congrArg Sigma.fst (eq_of_isSend h hmem hmade' hmade rfl rfl)
  have hwebhook : a₁.webhook = a.webhook := Option.some.inj (Call.send.inj hsame).1
  obtain rfl : id' = id := Option.some.inj (hid₁.symm.trans (hwebhook ▸ hid))
  refine ⟨e, he, htask, hrecords, htime.mpr ⟨?_, _, hmade₁, ?_⟩⟩
  · rw [hjob₁, hejob, hjob]
    rfl
  · simp [sendsTenth, hwebhook, hid, hcrossed]

end Runs

/-! ## Once -/

/-- The reports of a webhook in a state of a run: there is one at most, it is worded as it should
be, and its task has recorded the tenth failure. -/
structure ReportedOnce (state : AppState) (id : ℤ) (s : ServiceState) : Prop where
  once : (stuckReports id s.history).length ≤ 1
  worded : ∀ e ∈ stuckReports id s.history, ∃ k fw message, e.job = .cycle k ∧
    state.forwarders[k]? = some fw ∧ e.call = .logError (fw.stuckRecord id message)
  tenth : ∀ e ∈ stuckReports id s.history, ∃ e' ∈ s.history, e'.task = e.task ∧ RecordsTenth id e'

section Once

variable {ok : ServiceState → ServiceEvent → Prop} {s : ServiceState}
  (hok : ∀ s e, ok s e → ReportsOnTime s e) (h : state.machine.Reaches ok state.initial s)

include hok h

/-- **A report more**: the webhook had none, and the report is what it should be. -/
theorem reported_advanced {id : ℤ} (hs : ReportedOnce state id s) {n : ℕ} {i : Input}
    {t : ServiceTask} {c : Call Query} {k : Call.Answer Query.Answer c →
      CallProgram (Call Query) (Call.Answer Query.Answer) (Option HttpResponse)}
    (hevent : ok s (.advance n i)) (ht : s.tasks[n]? = some t) (hr : t.rest = .call c k)
    {e : ServiceEntry} (htask : e.task = n) (hjob : e.job = t.job) (hcall : e.call = c)
    (hreports : Reports id s.history e) :
    stuckReports id s.history = [] ∧ (∃ k fw message, e.job = .cycle k ∧
      state.forwarders[k]? = some fw ∧ e.call = .logError (fw.stuckRecord id message)) ∧
      ∃ e' ∈ s.history, e'.task = e.task ∧ RecordsTenth id e' := by
  obtain ⟨hreport, e₀, he₀, htask₀, hattempted₀⟩ := hreports
  obtain ⟨record, u, hdone⟩ := exists_of_isReport hreport
  have hrecord : c = .logError record := hcall.symm.trans (congrArg Sigma.fst hdone)
  subst hrecord
  have hattempted : ∃ d ∈ t.past, attempted id d := by
    obtain ⟨t', ht', -, hdone'⟩ := h.historyRecorded rfl e₀ he₀
    rw [htask₀, htask, ht, Option.some.injEq] at ht'
    exact ⟨e₀.done, ht' ▸ hdone', hattempted₀⟩
  have hcommitted : ∃ d ∈ t.past, commitsFailure d = true :=
    hok s _ hevent t ht _ (TaskSystem.nextCall_eq ht hr)
  obtain ⟨e₁, he₁, htask₁, htenth⟩ :=
    exists_recordsTenth_of_report hok h ht hr hcommitted hattempted
  obtain ⟨k', fw, hcycle, hfw, -, -, -, -, ⟨message, hmessage⟩, hquiet⟩ :=
    exists_attempt_of_report h ht hr hattempted
  refine ⟨?_, ⟨k', fw, message, hjob.trans hcycle, hfw, hcall.trans (congrArg _ hmessage)⟩, e₁, he₁,
    htask₁.trans htask.symm, htenth⟩
  -- an earlier report would be of the same task
  refine List.eq_nil_iff_forall_not_mem.mpr fun e' he' => ?_
  obtain ⟨e₂, he₂, htask₂, htenth₂⟩ := hs.tenth e' he'
  obtain ⟨hmem, hreport'⟩ := mem_of_mem_stuckReports he'
  have hsame := (tenthOnce_of_reaches hok h id).task_eq e₁ he₁ e₂ he₂ htenth htenth₂
  obtain ⟨t', ht', -, hdone'⟩ := h.historyRecorded rfl e' hmem
  rw [← htask₂, ← hsame, htask₁, ht, Option.some.injEq] at ht'
  have hnone := hquiet e'.done (ht' ▸ hdone')
  rw [hreport'] at hnone
  cases hnone

/-- **Along every run a webhook is reported once at most.** -/
theorem reportedOnce_of_reaches (id : ℤ) : ReportedOnce state id s := by
  refine h.invariant_along (ReportedOnce state id) ?_ (fun s j _ hs _ _ => { hs with }) ?_
  · exact ⟨by simp [initial, stuckReports], by simp [initial, stuckReports],
      by simp [initial, stuckReports]⟩
  · intro s n i t c k hreach hs hevent ht hr
    let e := state.machine.entry s n t c i
    have hhistory : (state.machine.advanced s n t c k i).history = e :: s.history := rfl
    by_cases hreports : Reports id s.history e
    · have hcons : stuckReports id (e :: s.history) = e :: stuckReports id s.history := by
        rw [stuckReports, if_pos hreports]
      obtain ⟨hnil, hworded, e', he', htenth⟩ :=
        reported_advanced hok hreach hs hevent ht hr rfl rfl rfl hreports
      rw [hnil] at hcons
      refine ⟨?_, ?_, ?_⟩
      · rw [hhistory, hcons, List.length_singleton]
      · rw [hhistory, hcons]
        exact List.forall_mem_singleton.mpr hworded
      · rw [hhistory, hcons]
        exact List.forall_mem_singleton.mpr ⟨e', List.mem_cons_of_mem _ he', htenth⟩
    · have hcons : stuckReports id (e :: s.history) = stuckReports id s.history := by
        rw [stuckReports, if_neg hreports]
      refine ⟨?_, ?_, ?_⟩
      · rw [hhistory, hcons]
        exact hs.once
      · rw [hhistory, hcons]
        exact hs.worded
      · rw [hhistory, hcons]
        exact fun e' he' => (hs.tenth e' he').imp fun _ => And.imp_left (List.mem_cons_of_mem _)

end Once

/-! ## Failing again -/

/-- Since the earlier state a pass has sent the webhook again, and it was not accepted. -/
def FailsAgain (state : AppState) (s₁ s : ServiceState) (id : ℤ) : Prop :=
  ∃ e ∈ later s₁ s, e.job.isPass = true ∧ attempted id e.done ∧ ¬state.accepted e.job id e.done

instance (job : Job) (id : ℤ) (d : DoneCall) : Decidable (state.accepted job id d) :=
  decidable_of_iff (state.deliveredId job d = some id) deliveredId_eq_some_iff

instance (s₁ s : ServiceState) (id : ℤ) : Decidable (FailsAgain state s₁ s id) := by
  unfold FailsAgain
  infer_instance

/-- After its tenth failure the webhook is stuck. -/
theorem isStuck_of_recordsTenth {ext : External} {e : ServiceEntry} (h : Performed ext e)
    (htyped : ∀ r ∈ e.before.table.rows, r.WellTyped) {id : ℤ} (htenth : RecordsTenth id e) :
    IsStuck e.after.table id := by
  obtain ⟨hrecords, r, hr, hid, hnext⟩ := htenth
  obtain ⟨now, message, next, affected, hdone⟩ := exists_of_recordsFailure hrecords
  rcases h.cases with ⟨-, hquiet⟩ | ⟨q, choice, hdone', hafter⟩
  · exact absurd hdone (hquiet _ _)
  · obtain rfl : Query.recordForwardFailure now message next id = q :=
      Call.sql.inj (congrArg Sigma.fst (hdone.symm.trans hdone'))
    refine ⟨r.failed choice.coerce now message next, ?_, hid, ?_⟩
    · have hmem := Table.mem_rows_update_of_mem hr id
        (Row.failed choice.coerce now message next) fun _ => rfl
      rw [if_pos hid] at hmem
      rw [hafter]
      exact hmem
    · rw [(htyped r hr).failures_failed]
      exact hnext.ge

theorem exists_cycle_of_isPass {job : Job} (h : job.isPass = true) : ∃ k, job = .cycle k := by
  cases job with
  | cycle k => exact ⟨k, rfl⟩
  | _ => cases h

theorem isDelivery_of_isPass {job : Job} (h : job.isPass = true) : isDelivery job = true := by
  cases job <;> first | rfl | cases h

section Again

variable {ok : ServiceState → ServiceEvent → Prop} {s₁ s : ServiceState}
  (hok : ∀ s e, ok s e → ReportsOnTime s e)

include hok

/-- A pass that recorded a failure of the webhook and has reported has reported the webhook. -/
theorem exists_stuckReport (h : state.machine.Reaches ok state.initial s) {e : ServiceEntry}
    (he : e ∈ s.history) {id : ℤ} (hrecords : recordsFailure id e.done = true)
    (hpass : e.job.isPass = true) {t : ServiceTask} (ht : s.tasks[e.task]? = some t)
    {d : DoneCall} (hd : d ∈ t.past) (hreport : isReport d = true) :
    ∃ e', e' ∈ stuckReports id s.history := by
  have hmem := List.mem_of_getElem? ht
  obtain ⟨s₂, t₂, a, h₂, hsubset, ht₂, hjob₂, -, hid, hmade, -⟩ :=
    exists_recording hok h he hrecords
  have hmade' := h₂.past_subset h rfl rfl hsubset ht₂ ht _ hmade
  obtain ⟨e', he', htask, hjob', rfl⟩ := h.pastsRecorded rfl e.task t d ht hd
  obtain ⟨record, u, hdone⟩ := exists_of_isReport hreport
  have hcall : e'.call = .logError record := congrArg Sigma.fst hdone
  have hdelivery : isDelivery e'.job = true := by
    obtain ⟨t', ht', hjob, -⟩ := h.historyRecorded rfl e he
    obtain rfl : t' = t := Option.some.inj (ht'.symm.trans ht)
    rw [hjob', hjob]
    exact isDelivery_of_isPass hpass
  -- before the report its task had sent a webhook, and it sends no other
  obtain ⟨s₃, newer, hmade₃⟩ := h.exists_madeIn rfl he'
  obtain ⟨past, hpermitted, hpast⟩ := hmade₃.protocol rfl start_recordsAttempt
  have hpermitted := hpermitted hdelivery
  rw [hcall] at hpermitted
  obtain ⟨-, -, -, -, a', -, -, -, -, waiting, -, rfl⟩ := hpermitted
  obtain ⟨e₀, he₀, htask₀, -, hdone₀⟩ := hpast _ (FailedAttempt.sent_mem rfl)
  have he₀' := hmade₃.mem_history he₀
  have hsent : e₀.done ∈ t.past := by
    obtain ⟨t', ht', -, hdone'⟩ := h.historyRecorded rfl e₀ he₀'
    rw [htask₀, htask, ht, Option.some.injEq] at ht'
    exact ht' ▸ hdone'
  have hsame := eq_of_isSend h hmem hsent hmade' (by rw [hdone₀]; rfl) rfl
  have hreports : Reports id s₃.history e' := by
    refine ⟨hreport, e₀, he₀, htask₀, ?_⟩
    rw [hsame]
    exact hid
  refine ⟨e', ?_⟩
  rw [hmade₃.history]
  exact hreports.mem_stuckReports

omit hok in
/-- A pass that has returned after the tenth attempt by its count was refused has reported. -/
theorem exists_report_of_returned (h : state.machine.Reaches ok state.initial s) {t : ServiceTask}
    (hmem : t ∈ s.tasks) (hpass : t.job.isPass = true) {a : FailedAttempt}
    (hof : a.Of state t.job)
    (hsent : (⟨.send (some a.webhook) a.request, a.answer⟩ : DoneCall) ∈ t.past) {id : ℤ}
    {d : DoneCall} (hd : d ∈ t.past) (hsends : sendsTenth id d = true)
    (hreturned : TaskState.hasReturned t = true) : ∃ d ∈ t.past, isReport d = true := by
  obtain ⟨response, hpure⟩ := TaskState.hasReturned_iff.mp hreturned
  have hreports := h.returned_allowed rfl start_returnsReported hmem hpure hpass
  rw [eq_of_isSend h hmem hd hsent (isSend_of_sendsTenth hsends) rfl] at hsends
  have hcrossed : crossedStuckThreshold a.webhook.forwardAttempts = true :=
    (Bool.and_eq_true_iff.mp hsends).2
  exact hreports a.webhook a.request a.answer hsent (fun _ => hof.not_accepted) hcrossed

omit hok in
/-- When a pass is about to send, another pass of its forwarder that has sent has returned. -/
theorem hasReturned_of_next_send (h : state.machine.Reaches ok state.initial s) {n m : ℕ}
    {t t' : ServiceTask} (ht : s.tasks[n]? = some t) (ht' : s.tasks[m]? = some t')
    (hpass : t.job.isPass = true) (hjob : t.job = t'.job) {d : DoneCall} (hd : d ∈ t.past)
    (hsend : isSend d = true) {c : Call Query} {k : Call.Answer Query.Answer c →
      CallProgram (Call Query) (Call.Answer Query.Answer) (Option HttpResponse)}
    (hrest : t'.rest = .call c k) {webhook : Webhook} {request : HttpRequest}
    (hc : c = .send (some webhook) request) : TaskState.hasReturned t = true := by
  subst hc
  have hunsent := (h.next_permitted rfl start_obeys (List.mem_of_getElem? ht') hrest).1
  have hne : n ≠ m := by
    rintro rfl
    obtain rfl : t = t' := Option.some.inj (ht.symm.trans ht')
    have hnone := hunsent d hd
    rw [hsend] at hnone
    cases hnone
  obtain ⟨k', hcycle⟩ := exists_cycle_of_isPass hpass
  have hsame : SameForwarder t.job t'.job := ⟨k', by rw [hcycle]; rfl, by rw [← hjob, hcycle]; rfl⟩
  exact (takeTurns_of_reaches h n m t t' ht ht' hne hsame).resolve_right
    (TaskState.not_hasReturned hrest)

/-- **A webhook that is stuck and fails again has been reported.** -/
theorem exists_stuckReport_of_failsAgain (h₁ : state.machine.Reaches ok state.initial s₁)
    (h : state.machine.Reaches ok s₁ s) {id : ℤ} (hstuck : IsStuck s₁.shared.table id)
    (hfails : FailsAgain state s₁ s id) : ∃ e', e' ∈ stuckReports id s.history := by
  obtain ⟨r, hr, hid, hten⟩ := hstuck
  obtain ⟨e, he, hrecords, htenth⟩ :=
    ((tenthOnce_of_reaches hok h₁ id).counted r hr hid).2.mp hten
  obtain ⟨e', he', hpass', hattempted, -⟩ := hfails
  obtain ⟨s₂, newer, hmade⟩ := h.exists_madeIn_of_later (history_eq_later h) he'
  have h₂ := h₁.trans hmade.reaches
  have hmem₂ : e ∈ s₂.history := hmade.reaches.history_suffix.subset he
  obtain ⟨t, ht, hjob, hdone⟩ := h₂.historyRecorded rfl e hmem₂
  obtain ⟨s₃, t₃, a, h₃, hsubset, ht₃, hjob₃, hof, hwebhook, hsent, htime⟩ :=
    exists_recording hok h₂ hmem₂ hrecords
  obtain ⟨hpass, d, hd, hsends⟩ := htime.mp htenth
  have hpasts := h₃.past_subset h₂ rfl rfl hsubset ht₃ ht
  have hpassE : e.job.isPass = true := hjob₃ ▸ hpass
  by_cases hreported : ∃ d ∈ t.past, isReport d = true
  · obtain ⟨d', hd', hreport⟩ := hreported
    obtain ⟨e₁, he₁⟩ := exists_stuckReport hok h₂ hmem₂ hrecords hpassE ht hd' hreport
    refine ⟨e₁, ?_⟩
    rw [hmade.history]
    have happend := @mem_stuckReports_append id e₁ (newer ++ [e']) _ he₁
    rwa [List.append_assoc] at happend
  · -- the pass still owes its report, so the one that fails now is of the same forwarder
    have hmem := List.mem_of_getElem? ht
    have hquiet : ∀ d ∈ t.past, isReport d = false := fun d' hd' =>
      Bool.eq_false_iff.mpr fun hreport => hreported ⟨d', hd', hreport⟩
    have howes : OwesReport id t :=
      ⟨hjob ▸ hpassE, ⟨d, hpasts d hd, hsends⟩, ⟨e.done, hdone, hrecords⟩, hquiet⟩
    obtain ⟨i', t', k', hevent, ht', hjob', hrest', -⟩ := hmade.event
    obtain ⟨webhook, request, answer, hdone', hid'⟩ := exists_send_of_attempted hattempted
    have hcall' : e'.call = .send (some webhook) request := congrArg Sigma.fst hdone'
    have hnext : s₂.nextCall e'.task = some (.send (some webhook) request) :=
      (TaskSystem.nextCall_eq ht' hrest').trans (congrArg some hcall')
    have hpassT : t.job.isPass = true := hjob ▸ hpassE
    have hsame : t.job = t'.job :=
      hok _ _ hevent t' ht' _ hnext (hjob' ▸ hpass') id hid' t hmem howes
    -- that one sends now, so the first has returned, and reported before
    have hreturned := hasReturned_of_next_send h₂ ht ht' hpassT hsame (hpasts d hd)
      (isSend_of_sendsTenth hsends) hrest' hcall'
    have hofT : a.Of state t.job := by
      rw [hjob, ← hjob₃]
      exact hof
    exact absurd (exists_report_of_returned h₂ hmem hpassT hofT (hpasts _ hsent) (hpasts d hd)
      hsends hreturned) hreported

end Again

/-- What reporting a stuck webhook exactly once means, for a part of a run that begins at `s₁`: a
webhook that is stuck there and fails again later has one report; every report is the record of a
forwarder about it; and none is made before its failures make it stuck. -/
structure StuckReported (state : AppState) (s₁ s : ServiceState) (id : ℤ) : Prop where
  once : IsStuck s₁.shared.table id → FailsAgain state s₁ s id →
    (stuckReports id s.history).length = 1
  worded : ∀ e ∈ stuckReports id s.history, ∃ k fw message, e.job = .cycle k ∧
    state.forwarders[k]? = some fw ∧ e.call = .logError (fw.stuckRecord id message)
  notBefore : stuckReports id s.history ≠ [] → ∃ e ∈ s.history, IsStuck e.after.table id

/-- **A stuck webhook is reported exactly once when its reports are on time.** -/
theorem stuck_reported_once (state : AppState) {s₁ s : ServiceState}
    (h₁ : state.machine.Reaches ReportsOnTime state.initial s₁)
    (h : state.machine.Reaches ReportsOnTime s₁ s) (id : ℤ) : StuckReported state s₁ s id := by
  have hreach := h₁.trans h
  have hreported := reportedOnce_of_reaches (fun _ _ hok => hok) hreach id
  refine ⟨?_, hreported.worded, ?_⟩
  · intro hstuck hfails
    obtain ⟨e, he⟩ := exists_stuckReport_of_failsAgain (fun _ _ hok => hok) h₁ h hstuck hfails
    have hpos := List.length_pos_of_mem he
    have honce := hreported.once
    omega
  · intro hsome
    obtain ⟨e, he⟩ := List.exists_mem_of_ne_nil _ hsome
    obtain ⟨e', he', -, htenth⟩ := hreported.tenth e he
    exact ⟨e', he', isStuck_of_recordsTenth (performed_of_mem_history hreach he')
      (fun r hr => (stored_of_mem_before hreach he' hr).2) htenth⟩

/-- Manual retries of the webhook that fail, one after the other. -/
def failedRetries (n : ℕ) : List ServiceEvent :=
  (List.range n).flatMap fun i => ServiceEvent.task (.request (.retry "orders" 1 .small)) (2 + i)
    (List.replicate 10 (Input.calm 1001 500))

/-- Nine manual retries fail, a pass makes the tenth attempt and reports it, and the next pass
fails without a further report. -/
theorem stuck_reported_once_small :
    ∃ s₁ s : ServiceState, IsStuck s₁.shared.table 1 ∧ FailsAgain small s₁ s 1 ∧
      (stuckReports 1 s.history).length = 1 := by
  have hrun : ∃ s₁, small.machine.runPermitted ReportsOnTime small.initial
      (receiveEvents ++ failedRetries 9 ++ ServiceEvent.task (.cycle 0) 11
        (List.replicate 14 (Input.calm 9000 500))) = some s₁ ∧ IsStuck s₁.shared.table 1 ∧
      ∃ s, small.machine.runPermitted ReportsOnTime s₁ (ServiceEvent.task (.cycle 0) 12
        (List.replicate 13 (Input.calm 19000 500))) = some s ∧ FailsAgain small s₁ s 1 := by
    decide +kernel
  obtain ⟨s₁, hs₁, hstuck, s, hs, hfails⟩ := hrun
  have hreported := stuck_reported_once small (TaskMachine.reaches_of_runPermitted hs₁)
    (TaskMachine.reaches_of_runPermitted hs) 1
  exact ⟨s₁, s, hstuck, hfails, hreported.once hstuck hfails⟩

/-- Nothing is reset. -/
def NeverResets : ServiceEvent → Prop
  | .spawn j => j.isReset = false
  | .advance _ _ => True

instance (e : ServiceEvent) : Decidable (NeverResets e) :=
  match e with
  | .spawn _ | .advance _ _ => by unfold NeverResets; infer_instance

/-- **A stuck webhook can stay unreported**: the tenth attempt is a manual retry, and the pass
that fails after it has loaded ten. -/
theorem manual_tenth_unreported :
    ¬∀ (state : AppState) (s₁ s : ServiceState) (id : ℤ),
      state.config.validateConfig state.db.ext = .ok () →
      state.machine.Reaches (fun _ e => NeverResets e ∧ StorageSucceeds e) state.initial s₁ →
      state.machine.Reaches (fun _ e => NeverResets e ∧ StorageSucceeds e) s₁ s →
        StuckReported state s₁ s id := by
  intro hclaim
  have hrun : ∃ s₁, small.machine.runPermitted (fun _ e => NeverResets e ∧ StorageSucceeds e)
      small.initial (receiveEvents ++ failedRetries 10) = some s₁ ∧ IsStuck s₁.shared.table 1 ∧
      ∃ s, small.machine.runPermitted (fun _ e => NeverResets e ∧ StorageSucceeds e) s₁
        (ServiceEvent.task (.cycle 0) 12 (List.replicate 13 (Input.calm 9000 500))) = some s ∧
        FailsAgain small s₁ s 1 ∧ stuckReports 1 s.history = [] := by
    decide +kernel
  obtain ⟨s₁, hs₁, hstuck, s, hs, hfails, hnone⟩ := hrun
  have hconfig : small.config.validateConfig small.db.ext = .ok () :=
    Except.eq_ok_of_toBool (by decide +kernel)
  have hone := (hclaim small s₁ s 1 hconfig (TaskMachine.reaches_of_runPermitted hs₁)
    (TaskMachine.reaches_of_runPermitted hs)).once hstuck hfails
  rw [hnone] at hone
  cases hone

end AppState
