/-
# The bookkeeping of deliveries

The attempts of a stored webhook are counted in its row.  Along every run the count is that of
the failures recorded since the row was stored or reset, the other three cells are empty exactly
as long as it is zero, and no failure parks a webhook beyond the ceiling of its channel.
-/
import KaimanWebhooks.Clock
import KaimanWebhooks.FailedAttempt
import KaimanWebhooks.ScheduleSafety

/-! ## Failures in the history -/

/-- The call committed a failure of the webhook with an id. -/
def recordsFailure (id : ℤ) : DoneCall → Bool
  | ⟨.sql (.recordForwardFailure _ _ _ id'), .ok _⟩ => id' = id
  | _ => false

/-- The call stored the webhook under an id, or reset its attempts. -/
def startsOver (id : ℤ) : DoneCall → Bool
  | ⟨.sql (.insert _ _ _ _), .ok id'⟩ => id' = id
  | ⟨.sql (.resetForwardAttempts id'), .ok _⟩ => id' = id
  | _ => false

/-- The failures of a webhook that were committed since it was stored or last reset, where the
calls are newest first. -/
def recordedFailures (id : ℤ) (calls : List DoneCall) : ℕ :=
  (calls.takeWhile fun d => !startsOver id d).countP (recordsFailure id)

section History

variable {id : ℤ} {d : DoneCall} {calls : List DoneCall}

theorem recordedFailures_cons_of_startsOver (h : startsOver id d = true) :
    recordedFailures id (d :: calls) = 0 := by
  simp [recordedFailures, h]

theorem recordedFailures_cons (h : startsOver id d = false) :
    recordedFailures id (d :: calls) =
      recordedFailures id calls + if recordsFailure id d then 1 else 0 := by
  simp [recordedFailures, h, List.countP_cons]

theorem exists_of_recordsFailure (h : recordsFailure id d = true) :
    ∃ now message next a, d = ⟨.sql (.recordForwardFailure now message next id), .ok a⟩ := by
  unfold recordsFailure at h
  split at h
  · obtain rfl := of_decide_eq_true h
    exact ⟨_, _, _, _, rfl⟩
  · cases h

/-- Only statements that succeed count. -/
theorem quiet_of_not_ok (h : ∀ q a, d ≠ (⟨.sql q, .ok a⟩ : DoneCall)) :
    startsOver id d = false ∧ recordsFailure id d = false := by
  constructor
  · unfold startsOver
    split
    · exact absurd rfl (h _ _)
    · exact absurd rfl (h _ _)
    · rfl
  · unfold recordsFailure
    split
    · exact absurd rfl (h _ _)
    · rfl

theorem quiet_of_ne {q : Query} {a : q.Answer}
    (hrecord : ∀ now message next, q ≠ .recordForwardFailure now message next id)
    (hreset : q ≠ .resetForwardAttempts id)
    (hinsert : ∀ channel headers payload receivedAt,
      (⟨.sql q, .ok a⟩ : DoneCall) ≠ ⟨.sql (.insert channel headers payload receivedAt), .ok id⟩) :
    startsOver id ⟨.sql q, .ok a⟩ = false ∧ recordsFailure id ⟨.sql q, .ok a⟩ = false := by
  cases q with
  | insert channel headers payload receivedAt =>
      refine ⟨?_, rfl⟩
      simp only [startsOver, decide_eq_false_iff_not]
      rintro rfl
      exact hinsert _ _ _ _ rfl
  | recordForwardFailure now message next id' =>
      refine ⟨rfl, ?_⟩
      simp only [recordsFailure, decide_eq_false_iff_not]
      rintro rfl
      exact hrecord _ _ _ rfl
  | resetForwardAttempts id' =>
      refine ⟨?_, rfl⟩
      simp only [startsOver, decide_eq_false_iff_not]
      rintro rfl
      exact hreset rfl
  | _ => exact ⟨rfl, rfl⟩

/-- A statement leaves the count of a row it is not about. -/
theorem quiet_of_kept {t : Table} {choice : ScanChoice} {q : Query} {r : Row} (hr : r ∈ t.rows)
    (hrecord : ∀ now message next, q ≠ .recordForwardFailure now message next r.id)
    (hreset : q ≠ .resetForwardAttempts r.id) :
    startsOver r.id ⟨.sql q, .ok (q.execute choice t).1⟩ = false ∧
      recordsFailure r.id ⟨.sql q, .ok (q.execute choice t).1⟩ = false := by
  refine quiet_of_ne hrecord hreset ?_
  intro channel headers payload receivedAt heq
  have hseq := t.le_seq r hr
  obtain rfl : q = .insert channel headers payload receivedAt :=
    Call.sql.inj (congrArg Sigma.fst heq)
  have hanswer : t.seq + 1 = r.id := by
    simpa [Query.execute] using heq
  omega

/-- The count of a row starts when the row is stored. -/
theorem startsOver_of_inserts {t : Table} {choice : ScanChoice} {q : Query} {c : Content}
    (h : q.inserts = some c) :
    startsOver (t.seq + 1) ⟨.sql q, .ok (q.execute choice t).1⟩ = true := by
  cases q with
  | insert channel headers payload receivedAt => simp [startsOver, Query.execute]
  | _ => cases h

end History

/-! ## The ceiling of a channel name -/

/-- The largest ceiling, in seconds, of the forwarding channels of a name. -/
def AppConfig.largestCeiling (config : AppConfig) (name : String) : ℕ :=
  ((config.channels.filter fun ch => ch.name = name).filterMap WebhookChannelConfig.forward).foldr
    (fun fwd ceiling => max (fwd.resolveBackoff config.forwardBackoff).max.asSecs ceiling) 0

theorem le_foldr_max {α : Type} {f : α → ℕ} {l : List α} {a : α} (h : a ∈ l) :
    f a ≤ l.foldr (fun a m => max (f a) m) 0 := by
  induction l with
  | nil => cases h
  | cons b l ih =>
      rw [List.foldr_cons]
      rcases List.mem_cons.mp h with rfl | h
      · exact le_max_left _ _
      · exact (ih h).trans (le_max_right _ _)

theorem AppConfig.asSecs_le_largestCeiling {config : AppConfig} {ch : WebhookChannelConfig}
    (hch : ch ∈ config.channels) {fwd : WebhookForwardConfig} (hfwd : ch.forward = some fwd) :
    (fwd.resolveBackoff config.forwardBackoff).max.asSecs ≤ config.largestCeiling ch.name := by
  apply @le_foldr_max _ fun fwd : WebhookForwardConfig =>
    (fwd.resolveBackoff config.forwardBackoff).max.asSecs
  exact List.mem_filterMap.mpr ⟨ch, List.mem_filter.mpr ⟨hch, by simp⟩, hfwd⟩

/-! ## Due times -/

/-- A cast does not lead up, unless the number is below all that fit. -/
theorem Prog.asI64_le {n : ℤ} (h : -2 ^ 63 ≤ n) : Prog.asI64 n ≤ n := by
  by_cases hn : n < 2 ^ 63
  · exact (Prog.asI64_of_lt h hn).le
  · have hlt := asI64_lt n
    omega

/-- Casting and adding whole seconds leads at most that many seconds on. -/
theorem Prog.addI64_asI64_le (s : ℤ) {d : ℤ} (h : 0 ≤ d) :
    Prog.addI64 (Prog.asI64 s) (Prog.asI64 d) ≤ Prog.asI64 s + d := by
  have hsum : Prog.addI64 (Prog.asI64 s) (Prog.asI64 d) = Prog.asI64 (Prog.asI64 s + d) :=
    Int.add_bmod_bmod
  have hlow : -2 ^ 63 ≤ Prog.asI64 s := by
    have hle := Int.le_bmod (x := s) (show 0 < 2 ^ 64 by norm_num)
    norm_num at hle ⊢
    exact hle
  rw [hsum]
  exact Prog.asI64_le (by omega)

namespace AppState

/-! ## What a row shows -/

/-- A row of which no failure is recorded. -/
structure Unattempted (r : Row) : Prop where
  forwardAttempts : r.forwardAttempts = .int 0
  lastAttemptAt : r.lastAttemptAt = .null
  lastAttemptError : r.lastAttemptError = .null
  nextAttemptAt : r.nextAttemptAt = .null

/-- A row that was parked after a failure, for at most the ceiling of its channel. -/
def Parked (config : AppConfig) (r : Row) : Prop :=
  ∃ n last error next channel, r.forwardAttempts = .int n ∧ 0 < n ∧ r.lastAttemptAt = .int last ∧
    r.lastAttemptError = .text error ∧ r.nextAttemptAt = .int next ∧ r.channel = .text channel ∧
    next ≤ last + config.largestCeiling channel

/-- The cells of a row agree with the calls of the run. -/
structure Booked (config : AppConfig) (calls : List DoneCall) (r : Row) : Prop where
  counted : r.forwardAttempts = .int (recordedFailures r.id calls)
  state : Unattempted r ∨ Parked config r

section Rows

variable {state : AppState} {ok : ServiceState → ServiceEvent → Prop} {s : ServiceState}

/-- A failure is recorded by a task that sent the webhook and was not answered as expected, and
that has not recorded it before. -/
theorem exists_failedAttempt_onlyFailed (h : state.machine.Reaches ok state.initial s) {n : ℕ}
    {t : ServiceTask} (ht : s.tasks[n]? = some t) {now : ℤ} {message : String} {next id : ℤ}
    {k : Call.Answer Query.Answer (.sql (.recordForwardFailure now message next id)) →
      CallProgram (Call Query) (Call.Answer Query.Answer) (Option HttpResponse)}
    (hr : t.rest = .call (.sql (.recordForwardFailure now message next id)) k) :
    ∃ a : FailedAttempt, a.Of state t.job ∧
      .recordForwardFailure now message next id = a.query message ∧
        ∃ waiting, OnlyFailed (a.query message) waiting ∧ t.past = waiting ++ a.calls := by
  have hmem := List.mem_of_getElem? ht
  obtain ⟨⟨d, hd, hattempted⟩, -⟩ := h.next_permitted rfl start_obeys hmem hr
  exact h.next_permitted rfl start_recordsAttempt hmem hr (isDelivery_of_sent h ht hd hattempted)

/-- A failure is recorded by a task that sent the webhook and was not answered as expected. -/
theorem exists_failedAttempt (h : state.machine.Reaches ok state.initial s) {n : ℕ}
    {t : ServiceTask} (ht : s.tasks[n]? = some t) {now : ℤ} {message : String} {next id : ℤ}
    {k : Call.Answer Query.Answer (.sql (.recordForwardFailure now message next id)) →
      CallProgram (Call Query) (Call.Answer Query.Answer) (Option HttpResponse)}
    (hr : t.rest = .call (.sql (.recordForwardFailure now message next id)) k) :
    ∃ a : FailedAttempt, a.Of state t.job ∧
      .recordForwardFailure now message next id = a.query message ∧
        ∃ waiting, t.past = waiting ++ a.calls := by
  obtain ⟨a, hof, hquery, waiting, -, hpast⟩ := exists_failedAttempt_onlyFailed h ht hr
  exact ⟨a, hof, hquery, waiting, hpast⟩

/-- The due time of a failed attempt is at most the ceiling of its channel away from the time
of the attempt. -/
theorem FailedAttempt.Of.next_le {a : FailedAttempt} {job : Job} (hof : a.Of state job)
    (hvalid : state.config.validateConfig state.db.ext = .ok ())
    (hclock : Prog.asI64 a.dueFrom ≤ Prog.asI64 a.storedAt) :
    ∃ channel, a.row.channel = .text channel ∧
      a.next ≤ a.now + state.config.largestCeiling channel := by
  obtain ⟨ch, hch, hfwd, hchannel⟩ := hof.channel
  have hsound := sound_of_validateConfig hvalid hch hfwd
  have hdelay : a.delay.asSecs ≤ state.config.largestCeiling ch.name :=
    (Duration.asSecs_mono (hsound.nextDelay_le_max hof.delay)).trans
      (AppConfig.asSecs_le_largestCeiling hch hfwd)
  refine ⟨ch.name, hchannel, ?_⟩
  have hnext := Prog.addI64_asI64_le a.dueFrom (Int.natCast_nonneg a.delay.asSecs)
  unfold FailedAttempt.next FailedAttempt.now
  omega

/-- The row a failed attempt loaded was stored. -/
theorem stored_of_failedAttempt (h : state.machine.Reaches ok state.initial s) {n : ℕ}
    {t : ServiceTask} (ht : s.tasks[n]? = some t) {a : FailedAttempt} (hof : a.Of state t.job)
    {waiting : List DoneCall} (hpast : t.past = waiting ++ a.calls) :
    (a.row.id, a.row.content) ∈ storedRows s := by
  obtain ⟨d, hd, hrow⟩ := hof.loaded
  obtain ⟨e, he, -, -, rfl⟩ :=
    h.pastsRecorded rfl n t d ht ((FailedAttempt.before_suffix hpast).subset hd)
  have hbefore := (performed_of_mem_history h he).mem_of_loadedRow hrow
  exact (stored_of_mem_before h he hbefore).1

/-- The row a failed attempt loaded has the content of every row with its id. -/
theorem content_eq_of_failedAttempt (h : state.machine.Reaches ok state.initial s) {n : ℕ}
    {t : ServiceTask} (ht : s.tasks[n]? = some t) {a : FailedAttempt} (hof : a.Of state t.job)
    {waiting : List DoneCall} (hpast : t.past = waiting ++ a.calls) {r : Row}
    (hr : r ∈ s.shared.table.rows) (hid : r.id = a.row.id) : r.content = a.row.content := by
  have hledger := ledger_of_reaches h
  have hstored := hledger.stored r hr
  rw [hid] at hstored
  exact hledger.content_eq hstored (stored_of_failedAttempt h ht hof hpast)

/-- The readings of a failed attempt are in order. -/
theorem readings_calls_pairwise (hok : ∀ s e, ok s e → SteadyClock s e)
    (h : state.machine.Reaches ok state.initial s) {n : ℕ} {t : ServiceTask}
    (ht : s.tasks[n]? = some t) {a : FailedAttempt} {waiting : List DoneCall}
    (hpast : t.past = waiting ++ a.calls) : (readings a.calls).Pairwise (· ≥ ·) := by
  have hpairwise := readings_task_pairwise hok h n
  rw [← h.past_eq rfl rfl ht, hpast, readings, List.filterMap_append] at hpairwise
  exact (List.pairwise_append.mp hpairwise).2.1

/-- The clock was read for the due time before it was read for the time of the attempt. -/
theorem dueFrom_le_storedAt (hok : ∀ s e, ok s e → SteadyClock s e)
    (h : state.machine.Reaches ok state.initial s) {n : ℕ} {t : ServiceTask}
    (ht : s.tasks[n]? = some t) {a : FailedAttempt} {waiting : List DoneCall}
    (hpast : t.past = waiting ++ a.calls) : Prog.asI64 a.dueFrom ≤ Prog.asI64 a.storedAt :=
  (List.pairwise_cons.mp (readings_calls_pairwise hok h ht hpast)).1 _ List.mem_cons_self

/-- What was read before the send was read before it was read for the due time. -/
theorem le_dueFrom_of_mem_before (hok : ∀ s e, ok s e → SteadyClock s e)
    (h : state.machine.Reaches ok state.initial s) {n : ℕ} {t : ServiceTask}
    (ht : s.tasks[n]? = some t) {a : FailedAttempt} {waiting : List DoneCall}
    (hpast : t.past = waiting ++ a.calls) {secs : ℕ}
    (hread : (⟨.systemNow, secs⟩ : DoneCall) ∈ a.before) :
    Prog.asI64 secs ≤ Prog.asI64 a.dueFrom := by
  have hlater := (List.pairwise_cons.mp (readings_calls_pairwise hok h ht hpast)).2
  have hmem : Prog.asI64 secs ∈ readings a.before :=
    List.mem_filterMap.mpr ⟨⟨.systemNow, secs⟩, hread, rfl⟩
  exact (List.pairwise_cons.mp hlater).1 _ hmem

/-- A recorded failure is one more, and parks the row. -/
theorem booked_failed (hvalid : state.config.validateConfig state.db.ext = .ok ())
    (hok : ∀ s e, ok s e → SteadyClock s e) (h : state.machine.Reaches ok state.initial s) {n : ℕ}
    {t : ServiceTask} {now : ℤ} {message : String} {next id : ℤ}
    {k : Call.Answer Query.Answer (.sql (.recordForwardFailure now message next id)) →
      CallProgram (Call Query) (Call.Answer Query.Answer) (Option HttpResponse)}
    (ht : s.tasks[n]? = some t)
    (hr : t.rest = .call (.sql (.recordForwardFailure now message next id)) k) {r : Row}
    (hold : r ∈ s.shared.table.rows) (hid : r.id = id) (hs : Booked state.config s.calls r)
    (coerce : SqlValue → SqlValue)
    (affected : Query.Answer (.recordForwardFailure now message next id)) :
    Booked state.config
      (⟨.sql (.recordForwardFailure now message next id), .ok affected⟩ :: s.calls)
      (r.failed coerce now message next) := by
  obtain ⟨a, hof, hquery, waiting, hpast⟩ := exists_failedAttempt h ht hr
  obtain ⟨hnow, -, hdue, hrow⟩ := Query.recordForwardFailure.inj hquery
  -- the due time counts from a reading that is not later than the time of the attempt
  obtain ⟨channel, hchannel, hnext⟩ := FailedAttempt.Of.next_le hof hvalid
    (dueFrom_le_storedAt hok h ht hpast)
  rw [← hnow, ← hdue] at hnext
  -- the row has the channel whose ceiling the attempt went by
  have hcontent := content_eq_of_failedAttempt h ht hof hpast hold (hid.trans hrow)
  have hcounted := hs.counted
  rw [hid] at hcounted
  have hattempts : (r.failed coerce now message next).forwardAttempts =
      .int (recordedFailures id s.calls + 1 : ℕ) := by
    simp [Row.failed, Row.nextForwardAttempts, hcounted]
  refine ⟨?_, Or.inr ⟨_, now, message, next, channel, hattempts, by omega, rfl, rfl, rfl,
    ?_, hnext⟩⟩
  · rw [hattempts, Row.failed_id, hid, recordedFailures_cons rfl]
    simp [recordsFailure]
  · rw [Row.failed_channel, ← hchannel]
    exact congrArg Content.channel hcontent

/-- **One call keeps the books**, whatever it is. -/
theorem booked_advanced (hvalid : state.config.validateConfig state.db.ext = .ok ())
    (hok : ∀ s e, ok s e → SteadyClock s e) (h : state.machine.Reaches ok state.initial s) {n : ℕ}
    {i : Input} {t : ServiceTask} {c : Call Query}
    {k : Call.Answer Query.Answer c → CallProgram (Call Query) (Call.Answer Query.Answer)
      (Option HttpResponse)} (ht : s.tasks[n]? = some t) (hr : t.rest = .call c k)
    (hs : ∀ r ∈ s.shared.table.rows, Booked state.config s.calls r) :
    ∀ r ∈ (state.machine.advanced s n t c k i).shared.table.rows,
      Booked state.config (state.machine.advanced s n t c k i).calls r := by
  let e := state.machine.entry s n t c i
  have hperformed : Performed state.db.ext e := ⟨i, rfl⟩
  have hcalls : (state.machine.advanced s n t c k i).calls = e.done :: s.calls := rfl
  have hkept : ∀ r ∈ s.shared.table.rows,
      (startsOver r.id e.done = false ∧ recordsFailure r.id e.done = false) →
      Booked state.config (e.done :: s.calls) r := by
    rintro r hmem ⟨hstarts, hrecords⟩
    refine ⟨?_, (hs r hmem).state⟩
    rw [recordedFailures_cons hstarts, hrecords]
    exact (hs r hmem).counted
  intro r' hr'
  rw [hcalls]
  rcases hperformed.cases with ⟨htable, hquiet⟩ | ⟨q, choice, hdone, hafter⟩
  · have hmem : r' ∈ s.shared.table.rows := by
      rw [← show e.after.table = s.shared.table from htable]
      exact hr'
    exact hkept r' hmem (quiet_of_not_ok hquiet)
  · have hmem : r' ∈ (q.execute choice s.shared.table).2.rows := by
      rw [← show e.after.table = (q.execute choice s.shared.table).2 from
        congrArg World.table hafter]
      exact hr'
    have hdone' : e.done = (⟨.sql q, .ok (q.execute choice s.shared.table).1⟩ : DoneCall) := hdone
    rcases Query.row_cases hmem with ⟨hold, hrecord, hreset⟩ | ⟨now, message, next, rfl, r, hold,
      hid, hfailed⟩ | ⟨rfl, r, hold, hid, rfl⟩ | ⟨content, hinserts, rfl⟩
    · -- the row is not the one the statement is about
      refine hkept r' hold ?_
      rw [hdone']
      exact quiet_of_kept hold hrecord hreset
    · -- a failure was committed: one more attempt, and one more record in the past
      have hc : c = .sql (.recordForwardFailure now message next r'.id) := congrArg Sigma.fst hdone'
      subst hc
      have hbooked := booked_failed hvalid hok h ht hr hold hid (hs r hold) choice.coerce
      rw [← hfailed] at hbooked
      rw [hdone']
      exact hbooked _
    · -- a reset is where the count starts over
      refine ⟨?_, Or.inl ⟨rfl, rfl, rfl, rfl⟩⟩
      rw [hdone', recordedFailures_cons_of_startsOver (by simp [startsOver])]
      rfl
    · refine ⟨?_, Or.inl ⟨rfl, rfl, rfl, rfl⟩⟩
      rw [Row.inserted_id, hdone',
        recordedFailures_cons_of_startsOver (startsOver_of_inserts hinserts)]
      rfl

/-- **Along every run the books are kept.** -/
theorem booked_of_reaches (hvalid : state.config.validateConfig state.db.ext = .ok ())
    (hok : ∀ s e, ok s e → SteadyClock s e) (h : state.machine.Reaches ok state.initial s) :
    ∀ r ∈ s.shared.table.rows, Booked state.config s.calls r :=
  h.invariant_along (fun s => ∀ r ∈ s.shared.table.rows, Booked state.config s.calls r)
    (by simp [initial, Table.empty]) (fun _ _ _ hs _ _ => hs)
    fun _ _ _ _ _ _ hreach hs _ ht hr => booked_advanced hvalid hok hreach ht hr hs

end Rows

/-- **The bookkeeping of deliveries.**  In every run under a clock that does not go back, the
attempts in a row are the failures recorded for it since it was stored or reset; they are zero
exactly when the other three cells are empty; and else these are filled, with a due time at most
the largest ceiling of the channels of the row's name away from the last attempt. -/
theorem bookkeeping_invariant (state : AppState)
    (hvalid : state.config.validateConfig state.db.ext = .ok ()) {s : ServiceState}
    (h : state.machine.Reaches SteadyClock state.initial s) {r : Row}
    (hr : r ∈ s.shared.table.rows) :
    r.forwardAttempts = .int (recordedFailures r.id s.calls) ∧
      (r.forwardAttempts = .int 0 ↔
        r.lastAttemptAt = .null ∧ r.lastAttemptError = .null ∧ r.nextAttemptAt = .null) ∧
      (0 < recordedFailures r.id s.calls → ∃ last error next channel,
        r.lastAttemptAt = .int last ∧ r.lastAttemptError = .text error ∧
          r.nextAttemptAt = .int next ∧ r.channel = .text channel ∧
          next ≤ last + state.config.largestCeiling channel) := by
  obtain ⟨hcounted, hcells⟩ := booked_of_reaches hvalid (fun _ _ hok => hok) h r hr
  refine ⟨hcounted, ?_, fun hpos => ?_⟩
  · rcases hcells with hnone | ⟨n, last, error, next, channel, hn, hpos, hlast, -⟩
    · exact iff_of_true hnone.forwardAttempts
        ⟨hnone.lastAttemptAt, hnone.lastAttemptError, hnone.nextAttemptAt⟩
    · refine iff_of_false ?_ ?_
      · rw [hn, SqlValue.int.injEq]
        omega
      · rintro ⟨hnull, -⟩
        cases hlast.symm.trans hnull
  · rcases hcells with hnone | ⟨n, last, error, next, channel, -, -, hrest⟩
    · have hzero := hcounted.symm.trans hnone.forwardAttempts
      rw [SqlValue.int.injEq] at hzero
      omega
    · exact ⟨last, error, next, channel, hrest⟩

/-- A webhook is received and fails once. -/
def failedEvents : List ServiceEvent :=
  ServiceEvent.task (.request .small) 0 (List.replicate 3 (Input.calm 1000 200)) ++
    ServiceEvent.task (.refresh 0) 1 (List.replicate 3 (Input.calm 1000 200)) ++
    ServiceEvent.task (.cycle 0) 2 (List.replicate 10 (Input.calm 1001 500))

/-- After one recorded failure the row counts one attempt, its other three cells are set, and it
is due within the ceiling. -/
theorem bookkeeping_invariant_failed :
    ∃ (s : ServiceState) (r : Row), recordedFailures r.id s.calls = 1 ∧
      r.forwardAttempts = .int (recordedFailures r.id s.calls) ∧
      ∃ last error next channel, r.lastAttemptAt = .int last ∧ r.lastAttemptError = .text error ∧
        r.nextAttemptAt = .int next ∧ r.channel = .text channel ∧
        next ≤ last + small.config.largestCeiling channel := by
  have hrun : ∃ s, small.machine.runPermitted SteadyClock small.initial failedEvents = some s ∧
      ∃ r ∈ s.shared.table.rows, recordedFailures r.id s.calls = 1 := by
    decide +kernel
  obtain ⟨s, hs, r, hr, hone⟩ := hrun
  obtain ⟨hcounted, -, hparked⟩ := bookkeeping_invariant small Forwarder.validateConfig_small
    (TaskMachine.reaches_of_runPermitted hs) hr
  exact ⟨s, r, hone, hcounted, hparked (by omega)⟩

end AppState
