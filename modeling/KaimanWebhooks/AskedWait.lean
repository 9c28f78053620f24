/-
# The wait a target asked for

A target that names a time with its refusal is obeyed: the webhook is due the seconds asked for
after the second the clock then showed, and no pass selects it in an earlier second.  Real time
is another matter.  Both readings drop the parts of a second, so a pass may come up to a second
before the wait is over.  It does not when it comes later within its second than the failure
within the second of its reading, or in a later second than the due one.
-/
import KaimanWebhooks.StoredDelay
import KaimanWebhooks.Turns
import Mathlib.Algebra.Order.Archimedean.Real.Basic
import Mathlib.Data.Int.ConditionallyCompleteOrder

/-! ## Whole seconds -/

/-- Between times whose seconds are far enough apart, the parts of a second decide whether the
times are, unless there is a second to spare. -/
theorem natCast_le_sub_iff {x y : ℝ} {n : ℕ} (h : ⌊x⌋ + n ≤ ⌊y⌋) :
    n ≤ y - x ↔ Int.fract x ≤ Int.fract y ∨ ⌊x⌋ + n < ⌊y⌋ := by
  have hx := Int.floor_add_fract x
  have hy := Int.floor_add_fract y
  -- without a second to spare the fractions decide, and with one they cannot use it up
  rcases h.eq_or_lt with heq | hlt
  · have hcast : (⌊x⌋ : ℝ) + n = ⌊y⌋ := by exact_mod_cast heq
    constructor
    · intro hle
      exact Or.inl (by linarith)
    · rintro (hfract | hlt)
      · linarith
      · omega
  · have hcast : (⌊x⌋ : ℝ) + n + 1 ≤ ⌊y⌋ := by exact_mod_cast hlt
    have hx1 := Int.fract_lt_one x
    have hy0 := Int.fract_nonneg y
    exact ⟨fun _ => Or.inr hlt, fun _ => by linarith⟩

/-! ## The clock and the calls of a run -/

/-- The job of a task. -/
def TaskSystem.jobOf {C : Type} {R : C → Type} {α J S : Type} (s : TaskSystem C R α J S) (n : ℕ) :
    Option J :=
  (s.tasks[n]?).map TaskState.job

/-- The clock shows `seconds k` to the call with number `k` of the run. -/
def ShowsSeconds (seconds : ℕ → ℤ) (s : ServiceState) : ServiceEvent → Prop
  | .spawn _ => True
  | .advance n i =>
      s.nextCall n = some .systemNow → (i.unixSeconds : ℤ) = seconds s.history.length

instance (seconds : ℕ → ℤ) (s : ServiceState) (e : ServiceEvent) :
    Decidable (ShowsSeconds seconds s e) :=
  match e with
  | .spawn _ | .advance _ _ => by unfold ShowsSeconds; infer_instance

/-- No second of the clock and no ceiling of a channel add up to more than 64 bits hold. -/
def AppConfig.DueTimesFit (config : AppConfig) (seconds : ℕ → ℤ) : Prop :=
  ∀ ch ∈ config.channels, ∀ fwd, ch.forward = some fwd →
    ∀ k, seconds k + (fwd.resolveBackoff config.forwardBackoff).max.asSecs < 2 ^ 63

/-- With the call number `r` of the run the task read the clock, after its calls `past`. -/
def ReadsClockAt (s : ServiceState) (n r : ℕ) (past : List DoneCall) : Prop :=
  ∃ e older, (e :: older) <:+ s.history ∧ older.length = r ∧ e.task = n ∧ e.call = .systemNow ∧
    (older.filter fun e' => e'.task = n).map Entry.done = past

/-- The wait the target asked for, when the last calls were to send the webhook and to read the
sub-second clock. -/
def askedWait : List DoneCall → Option Duration
  | ⟨.subsecNanos, _⟩ :: ⟨.send _ _, .ok resp⟩ :: _ => resp.retryAfter
  | _ => none

/-- A task is about to record a failure after which the target asked for a wait, not above the
ceiling; for the due time it read the clock with the call number `r`. -/
structure AskedToWait (state : AppState) (s : ServiceState) (n : ℕ) (id : ℤ) (wait r : ℕ) :
    Prop where
  records : (s.nextCall n).bind recordedId = some id
  asked : ∃ past, ReadsClockAt s n r past ∧ askedWait past = some (.fromSecs wait)
  le_max : ∀ fwd, (s.jobOf n).bind state.target = some fwd →
    wait ≤ (fwd.resolveBackoff state.config.forwardBackoff).max.asSecs

/-- A pass is about to select the webhook; it read the clock, after the status of its channel,
with the call number `r`. -/
structure SelectsAt (state : AppState) (s : ServiceState) (n : ℕ) (i : Input) (id : ℤ) (r : ℕ) :
    Prop where
  selects : ∃ channel now row, s.nextCall n = some (.sql (.peekOldestDueByChannel channel now)) ∧
    (perform state.db.ext (.sql (.peekOldestDueByChannel channel now)) i s.shared).1 =
      .ok (some row) ∧ row.id = id
  readAt : ∃ first, ReadsClockAt s n r [first]

/-- **Nothing but later passes handles the webhook**, after a task `n` was about to record its
failure in `s₁`: its attempts are not reset, and a failure of it is recorded by passes alone, of
the same forwarder or of one that had not selected it by then. -/
def OnlyLaterPasses (s₁ : ServiceState) (n : ℕ) (id : ℤ) (s : ServiceState) : ServiceEvent → Prop
  | .spawn _ => True
  | .advance m _ =>
      s.nextCall m ≠ some (.sql (.resetForwardAttempts id)) ∧
      ((s.nextCall m).bind recordedId = some id →
        ∃ k, s.jobOf m = some (.cycle k) ∧ (s₁.jobOf n = some (.cycle k) ∨
          ∀ row ∈ (s₁.pastOf m).filterMap loadedRow, row.id ≠ id))

namespace AppState

variable {state : AppState} {seconds : ℕ → ℤ}

/-! ## The reading of a pass -/

/-- A pass asks for what is due at the second it read in its second call. -/
def PeeksAtReading (past : List DoneCall) : Call Query → Prop
  | .sql (.peekOldestDueByChannel _ now) =>
      Quiet past → ∃ (new : List DoneCall) (secs : ℕ) (first : DoneCall),
        past = new ++ [⟨.systemNow, secs⟩, first] ∧ now = Prog.asI64 secs
  | _ => True

theorem peeksAtReading_of_isHousekeeping {past : List DoneCall} {c : Call Query}
    (h : c.isHousekeeping = true) : PeeksAtReading past c := by
  cases c with
  | sql q => cases q <;> trivial
  | _ => trivial

/-- A task that has loaded a row makes no peek that would have to be looked at. -/
theorem obeys_peeksAtReading_of_loaded {α : Type} {past : List DoneCall} {d : DoneCall}
    (hd : d ∈ past) {row : Row} (hrow : loadedRow d = some row) (p : AppAction α) :
    p.Obeys state.machine.Answers PeeksAtReading (fun _ _ => True) past := by
  have htrivial : p.Obeys state.machine.Answers (fun _ _ => True) (fun _ _ => True) past :=
    CallProgram.obeys_of_forall (fun _ _ => trivial) (fun _ _ => trivial) p
  refine htrivial.weaken (fun past' c hsuffix _ => ?_) fun _ _ _ h => h
  unfold PeeksAtReading
  split
  · intro hquiet
    have hnone := (hquiet d (hsuffix.subset hd)).1
    rw [hrow] at hnone
    cases hnone
  · trivial

/-- **A pass peeks at its reading**, whatever its calls are answered. -/
theorem start_peeksAtReading (job : Job) :
    (state.start job).Obeys state.machine.Answers
      (fun past c => (∃ k, job = .cycle k) → PeeksAtReading past c) (fun _ _ => True) [] := by
  by_cases hjob : ∃ k, job = .cycle k
  · obtain ⟨k, rfl⟩ := hjob
    refine CallProgram.Obeys.weaken (P := PeeksAtReading) ?_ (fun _ _ _ hP _ => hP)
      fun _ _ _ hQ => hQ
    simp only [start]
    cases hfw : state.forwarders[k]? with
    | none => trivial
    | some fw =>
        dsimp only
        rw [CallProgram.obeys_bind]
        refine obeys_cycle_of_deliver (fun _ _ => peeksAtReading_of_isHousekeeping) ?_
          (fun _ _ => trivial) ?_ (fun _ _ _ _ => trivial)
        · exact fun new secs status _ _ => ⟨new, secs, _, rfl, rfl⟩
        · intro past now row webhook request _ _ hpeeked _ _
          exact obeys_peeksAtReading_of_loaded hpeeked rfl _
  · exact CallProgram.obeys_of_not hjob (fun _ _ => trivial) _

/-- A peek finds a due row of its channel. -/
theorem mem_dueRows_of_peek {ext : External} {channel : WebhookChannel} {now : ℤ} {i : Input}
    {w : World} {row : Row}
    (h : (perform ext (.sql (.peekOldestDueByChannel channel now)) i w).1 = .ok (some row)) :
    row ∈ w.table.dueRows channel now := by
  obtain ⟨-, hexec, -⟩ := perform_sql_ok h
  exact (mem_orderBy _ _).mp (List.mem_of_mem_head? hexec)

/-- A peeked row is due at the second asked for. -/
theorem isDue_of_answers_peek {channel : WebhookChannel} {now : ℤ} {row : Row}
    (h : state.machine.Answers (.sql (.peekOldestDueByChannel channel now)) (.ok (some row))) :
    row.isDue now = true := by
  obtain ⟨i, w, hanswer⟩ := h
  have hanswer' : (perform state.db.ext (.sql (.peekOldestDueByChannel channel now)) i w).1 =
      .ok (some row) := hanswer
  exact (Table.mem_dueRows.mp (mem_dueRows_of_peek hanswer')).2.2

/-! ## The seconds of a run -/

section Seconds

variable {ok : ServiceState → ServiceEvent → Prop} {s : ServiceState}
  (hok : ∀ s e, ok s e → ShowsSeconds seconds s e) (h : state.machine.Reaches ok state.initial s)

include hok h

/-- Every reading of a run is the second the clock showed to its call. -/
theorem secs_eq_of_suffix {e : ServiceEntry} {older : List ServiceEntry}
    (hsuffix : (e :: older) <:+ s.history) {secs : ℕ}
    (hdone : e.done = (⟨.systemNow, secs⟩ : DoneCall)) : (secs : ℤ) = seconds older.length := by
  have hall : ∀ e older, (e :: older) <:+ s.history → ∀ secs : ℕ,
      e.done = (⟨.systemNow, secs⟩ : DoneCall) → (secs : ℤ) = seconds older.length := by
    refine h.invariant (fun s => ∀ e older, (e :: older) <:+ s.history → ∀ secs : ℕ,
      e.done = (⟨.systemNow, secs⟩ : DoneCall) → (secs : ℤ) = seconds older.length) ?_
      (fun s j hs _ _ => hs) ?_
    · intro e older hsuffix
      cases List.eq_nil_of_suffix_nil hsuffix
    · intro s n i t c k hs hstep ht hr e older hsuffix secs hdone
      -- the call that is made now has the number of calls made before
      rcases List.suffix_cons_iff.mp hsuffix with heq | hsuffix
      · obtain ⟨rfl, rfl⟩ := List.cons.inj heq
        obtain rfl : c = .systemNow := congrArg Sigma.fst hdone
        have hsecs : i.unixSeconds = secs := eq_of_heq (Sigma.mk.inj hdone).2
        rw [← hsecs]
        exact hok s _ hstep (TaskSystem.nextCall_eq ht hr)
      · exact hs e older hsuffix secs hdone
  exact hall e older hsuffix secs hdone

/-- The reading with the call number `r`, in the past of its task. -/
theorem exists_past_of_readsClockAt {n r : ℕ} {past : List DoneCall}
    (hread : ReadsClockAt s n r past) {t : ServiceTask} (ht : s.tasks[n]? = some t) :
    ∃ (new : List DoneCall) (secs : ℕ), t.past = new ++ ⟨.systemNow, secs⟩ :: past ∧
      (secs : ℤ) = seconds r := by
  obtain ⟨e, older, ⟨newer, hhistory⟩, rfl, htask, hcall, rfl⟩ := hread
  rcases e with ⟨n', job, c, secs, before, after⟩
  obtain rfl : n' = n := htask
  obtain rfl : c = .systemNow := hcall
  refine ⟨(newer.filter fun e' => e'.task = n').map Entry.done, secs, ?_, ?_⟩
  · rw [h.past_eq rfl rfl ht, ← hhistory, List.filter_append, List.filter_cons,
      if_pos (by simp), List.map_append, List.map_cons]
    rfl
  · exact secs_eq_of_suffix hok h ⟨newer, hhistory⟩ rfl

/-- When real time does not go back, and fits, the clock does not go back. -/
theorem steadyClock_of_showsSeconds (hmono : Monotone seconds) (hfits : ∀ k, seconds k < 2 ^ 63) :
    state.machine.Reaches SteadyClock state.initial s := by
  refine h.strengthen fun s e hreach hstep => ?_
  cases e with
  | spawn j => trivial
  | advance n i =>
      intro hnext past hpast
      obtain ⟨d, hd, hreading⟩ := List.mem_filterMap.mp hpast
      obtain ⟨e, he, rfl⟩ := List.mem_map.mp hd
      obtain ⟨newer, older, hhistory⟩ := List.append_of_mem he
      have hshown := hok s _ hstep hnext
      unfold reading at hreading
      split at hreading
      · rename_i secs hdone
        obtain rfl : Prog.asI64 secs = past := Option.some.inj hreading
        have hsecs := secs_eq_of_suffix hok hreach ⟨newer, hhistory.symm⟩ hdone
        -- the earlier reading has the smaller number
        have hlength : older.length ≤ s.history.length := by
          rw [hhistory]
          simp
          omega
        have hle := hmono hlength
        have hlt := hfits s.history.length
        have hearlier : Prog.asI64 secs = secs := Prog.asI64_of_lt (by omega) (by omega)
        have hnow : Prog.asI64 i.unixSeconds = i.unixSeconds :=
          Prog.asI64_of_lt (by omega) (by omega)
        omega
      · cases hreading

end Seconds

/-! ## The due time of a later attempt -/

/-- The row is not due before a second. -/
def NotDueBefore (due : ℤ) (r : Row) : Prop := ∃ due', r.nextAttemptAt = .int due' ∧ due ≤ due'

/-- A row that is due is due by then. -/
theorem NotDueBefore.le {due now : ℤ} {r : Row} (h : NotDueBefore due r)
    (hdue : r.isDue now = true) : due ≤ now := by
  obtain ⟨due', hcell, hle⟩ := h
  have hnow : due' ≤ now := by simpa [Row.isDue, hcell] using hdue
  exact hle.trans hnow

section Attempts

variable {ok : ServiceState → ServiceEvent → Prop} {s : ServiceState}

/-- The calls of a task got answers the machine gives. -/
theorem answers_of_mem_past (h : state.machine.Reaches ok state.initial s) {n : ℕ}
    {t : ServiceTask} (ht : s.tasks[n]? = some t) {d : DoneCall} (hd : d ∈ t.past) :
    state.machine.Answers d.1 d.2 := by
  obtain ⟨e, he, -, -, rfl⟩ := h.pastsRecorded rfl n t d ht hd
  obtain ⟨i, hperform⟩ := performed_of_mem_history h he
  exact ⟨i, e.before, congrArg Prod.fst hperform⟩

/-- The readings of a task are seconds of the run. -/
theorem exists_seconds_of_mem_past (hok : ∀ s e, ok s e → ShowsSeconds seconds s e)
    (h : state.machine.Reaches ok state.initial s) {n : ℕ} {t : ServiceTask}
    (ht : s.tasks[n]? = some t) {secs : ℕ} (hd : (⟨.systemNow, secs⟩ : DoneCall) ∈ t.past) :
    ∃ k, (secs : ℤ) = seconds k := by
  obtain ⟨e, he, -, -, hdone⟩ := h.pastsRecorded rfl n t _ ht hd
  obtain ⟨newer, older, hhistory⟩ := List.append_of_mem he
  exact ⟨_, secs_eq_of_suffix hok h ⟨newer, hhistory.symm⟩ hdone⟩

/-- Where the due times fit, that of an attempt is the second it read plus the seconds of the
delay. -/
theorem FailedAttempt.Of.next_eq (hvalid : state.config.validateConfig state.db.ext = .ok ())
    (hfits : state.config.DueTimesFit seconds) {a : FailedAttempt} {job : Job}
    (hof : a.Of state job) {k : ℕ} (hk : (a.dueFrom : ℤ) = seconds k) :
    a.next = a.dueFrom + a.delay.asSecs := by
  obtain ⟨ch, hch, hfwd, -⟩ := hof.channel
  have hmax := Duration.asSecs_mono
    ((sound_of_validateConfig hvalid hch hfwd).nextDelay_le_max hof.delay)
  have hsum := hfits ch hch a.fwd hfwd k
  have hfrom : Prog.asI64 a.dueFrom = a.dueFrom := Prog.asI64_of_lt (by omega) (by omega)
  have hwait : Prog.asI64 a.delay.asSecs = a.delay.asSecs :=
    Prog.asI64_of_lt (by omega) (by omega)
  rw [FailedAttempt.next, hfrom, hwait]
  exact Prog.asI64_of_lt (by omega) (by omega)

/-- A failed attempt of a pass loaded its row at a second it had read, when the row was due. -/
theorem exists_dueReading (h : state.machine.Reaches ok state.initial s) {n : ℕ}
    {t : ServiceTask} (ht : s.tasks[n]? = some t) (hpass : ∃ j, t.job = .cycle j)
    {a : FailedAttempt} (hof : a.Of state t.job) {waiting : List DoneCall}
    (hpast : t.past = waiting ++ a.calls) :
    ∃ secs : ℕ, (⟨.systemNow, secs⟩ : DoneCall) ∈ a.before ∧
      a.row.isDue (Prog.asI64 secs) = true := by
  have hmem := List.mem_of_getElem? ht
  obtain ⟨d, hd, hrow⟩ := hof.loaded
  obtain ⟨later, earlier, hbefore⟩ := List.append_of_mem hd
  have hsuffix : (d :: earlier) <:+ t.past :=
    (hbefore ▸ List.suffix_append later _).trans (FailedAttempt.before_suffix hpast)
  have hpermitted := h.permitted rfl start_obeys t hmem d earlier hsuffix
  have hpeeks := h.permitted rfl start_peeksAtReading t hmem d earlier hsuffix hpass
  have hanswers := answers_of_mem_past h ht (hsuffix.subset List.mem_cons_self)
  unfold loadedRow at hrow
  split at hrow
  · rename_i channel second row
    subst hrow
    obtain ⟨new, secs, first, hearlier, hsecond⟩ := hpeeks hpermitted.2
    refine ⟨secs, ?_, hsecond ▸ isDue_of_answers_peek hanswers⟩
    rw [hbefore, hearlier]
    simp
  · -- what is loaded by its id is loaded by a manual retry
    obtain ⟨j, hj⟩ := hpass
    obtain ⟨⟨channel, headers, hjob⟩, -⟩ := hpermitted
    rw [hj] at hjob
    cases hjob
  · cases hrow

/-- **A pass that selected a webhook when it was due parks it for later**: its failure is due
again not before what the row it loaded was not due before. -/
theorem le_next_of_loaded (hvalid : state.config.validateConfig state.db.ext = .ok ())
    (hmono : Monotone seconds) (hfits : state.config.DueTimesFit seconds)
    (hok : ∀ s e, ok s e → ShowsSeconds seconds s e)
    (h : state.machine.Reaches ok state.initial s) {n : ℕ} {t : ServiceTask}
    (ht : s.tasks[n]? = some t) {now : ℤ} {message : String} {next id : ℤ}
    {k : Call.Answer Query.Answer (.sql (.recordForwardFailure now message next id)) →
      CallProgram (Call Query) (Call.Answer Query.Answer) (Option HttpResponse)}
    (hr : t.rest = .call (.sql (.recordForwardFailure now message next id)) k)
    (hpass : ∃ j, t.job = .cycle j) {due : ℤ}
    (hloaded : ∀ row ∈ t.past.filterMap loadedRow, row.id = id → NotDueBefore due row) :
    due ≤ next := by
  obtain ⟨a, hof, hquery, waiting, hpast⟩ := exists_failedAttempt h ht hr
  obtain ⟨-, -, hnext, hid⟩ := Query.recordForwardFailure.inj hquery
  obtain ⟨d, hd, hrow⟩ := hof.loaded
  have hnotBefore := hloaded a.row (List.mem_filterMap.mpr
    ⟨d, (FailedAttempt.before_suffix hpast).subset hd, hrow⟩) hid.symm
  obtain ⟨secs, hread, hdue⟩ := exists_dueReading h ht hpass hof hpast
  obtain ⟨ch, hch, hfwd, -⟩ := hof.channel
  have hsum := hfits ch hch a.fwd hfwd
  -- the clock did not go back between the two readings of the pass
  have hsteady := steadyClock_of_showsSeconds hok h hmono fun k => by
    have hsecond := hsum k
    omega
  have hle := le_dueFrom_of_mem_before (fun _ _ hstep => hstep) hsteady ht hpast hread
  have hclock : (⟨.systemNow, a.dueFrom⟩ : DoneCall) ∈ t.past := by
    rw [hpast, FailedAttempt.calls]
    simp
  obtain ⟨r, hsecs⟩ := exists_seconds_of_mem_past hok h ht hclock
  have hsecond := hsum r
  have hfrom : Prog.asI64 a.dueFrom = a.dueFrom := Prog.asI64_of_lt (by omega) (by omega)
  calc
    due ≤ Prog.asI64 secs := hnotBefore.le hdue
    _ ≤ a.dueFrom := hle.trans_eq hfrom
    _ ≤ a.dueFrom + a.delay.asSecs := by omega
    _ = a.next := (FailedAttempt.Of.next_eq hvalid hfits hof hsecs).symm
    _ = next := hnext.symm

end Attempts

/-! ## Two failures of one forwarder -/

section Turn

variable {ok ok₁ : ServiceState → ServiceEvent → Prop} {s s₁ : ServiceState} {now : ℤ}
  {message : String} {next id : ℤ}

/-- A task records one failure: one that is about to record has not done so before. -/
theorem not_recordsFailure_of_mem_past (h : state.machine.Reaches ok state.initial s) {n : ℕ}
    {t : ServiceTask} (ht : s.tasks[n]? = some t)
    {k : Call.Answer Query.Answer (.sql (.recordForwardFailure now message next id)) →
      CallProgram (Call Query) (Call.Answer Query.Answer) (Option HttpResponse)}
    (hr : t.rest = .call (.sql (.recordForwardFailure now message next id)) k) {d : DoneCall}
    (hd : d ∈ t.past) : recordsFailure id d = false := by
  rw [Bool.eq_false_iff]
  intro hrecords
  obtain ⟨a, -, -, waiting, honly, hpast⟩ := exists_failedAttempt_onlyFailed h ht hr
  have hmem := List.mem_of_getElem? ht
  rw [hpast] at hd
  rcases List.mem_append.mp hd with hd | hd
  · rcases honly d hd with htiming | ⟨e, rfl⟩
    · obtain ⟨now', message', next', affected, rfl⟩ := exists_of_recordsFailure hrecords
      cases htiming
    · cases hrecords
  · obtain ⟨now', message', next', affected, rfl⟩ := exists_of_recordsFailure hrecords
    have hbefore : (⟨.sql (.recordForwardFailure now' message' next' id), .ok affected⟩ :
        DoneCall) ∈ a.before := by
      simpa [FailedAttempt.calls] using hd
    -- an earlier record came after an earlier send, but a task sends once
    have hsend : NoSend a.before :=
      noSend_of_suffix h hmem (FailedAttempt.sent_suffix hpast) rfl
    obtain ⟨later, earlier, hsplit⟩ := List.append_of_mem hbefore
    have hsuffix : (⟨.sql (.recordForwardFailure now' message' next' id), .ok affected⟩ ::
        earlier) <:+ t.past :=
      (hsplit ▸ List.suffix_append later _).trans (FailedAttempt.before_suffix hpast)
    obtain ⟨⟨d, hd, hattempted⟩, -⟩ := h.permitted rfl start_obeys t hmem _ _ hsuffix
    have hnone := hsend d (by rw [hsplit]; simp [hd])
    rw [isSend_of_attempted hattempted] at hnone
    cases hnone

/-- **A pass that records a failure after another of its forwarder started after it**: when the
other was about to record, this one had made no call. -/
theorem pastOf_eq_nil_of_sameForwarder (h₁ : state.machine.Reaches ok₁ state.initial s₁) {n : ℕ}
    {t₁ : ServiceTask} (ht₁ : s₁.tasks[n]? = some t₁) {now₁ : ℤ} {message₁ : String} {next₁ : ℤ}
    {k₁ : Call.Answer Query.Answer (.sql (.recordForwardFailure now₁ message₁ next₁ id)) →
      CallProgram (Call Query) (Call.Answer Query.Answer) (Option HttpResponse)}
    (hr₁ : t₁.rest = .call (.sql (.recordForwardFailure now₁ message₁ next₁ id)) k₁) {i : Input}
    (hcommit : i.fault = none) {ok₂ : ServiceState → ServiceEvent → Prop}
    (h₂ : state.machine.Reaches ok₂ (state.machine.advanced s₁ n t₁ _ k₁ i) s)
    (h : state.machine.Reaches ok state.initial s) {m : ℕ} {t : ServiceTask}
    (ht : s.tasks[m]? = some t)
    {k : Call.Answer Query.Answer (.sql (.recordForwardFailure now message next id)) →
      CallProgram (Call Query) (Call.Answer Query.Answer) (Option HttpResponse)}
    (hr : t.rest = .call (.sql (.recordForwardFailure now message next id)) k) {j : ℕ}
    (hjob₁ : t₁.job = .cycle j) (hjob : t.job = .cycle j) : s₁.pastOf m = [] := by
  have hlt : n < s₁.tasks.length := (List.getElem?_eq_some_iff.mp ht₁).1
  by_cases hmn : m = n
  · -- the same task would have recorded twice
    subst hmn
    obtain ⟨u, hu, -, hsuffix, -⟩ := h₂.exists_task (n := m) (t := _) (by
      rw [TaskMachine.advanced, List.getElem?_set, if_pos rfl, if_pos hlt])
    obtain rfl : u = t := Option.some.inj (hu.symm.trans ht)
    have hfalse := not_recordsFailure_of_mem_past h ht hr (hsuffix.subset List.mem_cons_self)
    simp [recordsFailure, machine, perform, hcommit] at hfalse
  · cases hu : s₁.tasks[m]? with
    | none =>
        rw [TaskSystem.pastOf, hu]
        rfl
    | some u =>
        exfalso
        obtain ⟨v, hv, hvjob, -, hstays⟩ := h₂.exists_task (n := m) (t := u) (by
          rw [TaskMachine.advanced, List.getElem?_set, if_neg (Ne.symm hmn)]
          exact hu)
        obtain rfl : v = t := Option.some.inj (hv.symm.trans ht)
        have hrival : SameForwarder u.job t₁.job := by
          rw [← hvjob, hjob, hjob₁]
          exact ⟨j, rfl, rfl⟩
        rcases takeTurns_of_reaches h₁ m n u t₁ hu ht₁ hmn hrival with hreturned | hreturned
        · obtain rfl := hstays hreturned
          exact TaskState.not_hasReturned hr hreturned
        · exact TaskState.not_hasReturned hr₁ hreturned

end Turn

/-! ## The wait along a run -/

/-- Since a failure was about to be recorded in `s₁`, the webhook waits for its due time: no row
of it is due before, and no task that had not loaded it by then has loaded it due before. -/
structure WaitsUntil (s₁ : ServiceState) (id due : ℤ) (s : ServiceState) : Prop where
  known : id ≤ s.shared.table.seq
  rows : ∀ r ∈ s.shared.table.rows, r.id = id → NotDueBefore due r
  loaded : ∀ m, (∀ row ∈ (s₁.pastOf m).filterMap loadedRow, row.id ≠ id) →
    ∀ row ∈ (s.pastOf m).filterMap loadedRow, row.id = id → NotDueBefore due row

section Waits

variable {ok : ServiceState → ServiceEvent → Prop} {s s₁ : ServiceState} {id due : ℤ}

/-- **A call keeps the webhook waiting** unless it resets it or records an earlier due time. -/
theorem WaitsUntil.advanced (hs : WaitsUntil s₁ id due s) {n : ℕ} {i : Input} {t : ServiceTask}
    {c : Call Query}
    {k : Call.Answer Query.Answer c → CallProgram (Call Query) (Call.Answer Query.Answer)
      (Option HttpResponse)} (ht : s.tasks[n]? = some t)
    (hreset : c ≠ .sql (.resetForwardAttempts id))
    (hrecord : ∀ now message next, c = .sql (.recordForwardFailure now message next id) →
      due ≤ next) : WaitsUntil s₁ id due (state.machine.advanced s n t c k i) := by
  let e := state.machine.entry s n t c i
  have hperformed : Performed state.db.ext e := ⟨i, rfl⟩
  refine ⟨hs.known.trans hperformed.seq_le, ?_, ?_⟩
  · intro r hr hid
    rcases hperformed.row_cases hr with hold | ⟨now, message, next, coerce, hc, r₀, -, rfl⟩ |
      ⟨hc, -⟩ | ⟨content, rfl⟩
    · exact hs.rows r hold hid
    · rw [hid] at hc
      exact ⟨next, rfl, hrecord now message next hc⟩
    · rw [hid] at hc
      exact absurd hc hreset
    · -- a stored webhook has an id that was not given out before
      have hknown : id ≤ e.before.table.seq := hs.known
      rw [Row.inserted_id] at hid
      omega
  · intro m hfresh row hrow hid
    rw [TaskSystem.pastOf_advanced ht] at hrow
    split at hrow
    · rename_i hnm
      obtain ⟨d, hd, hloaded⟩ := List.mem_filterMap.mp hrow
      -- what is loaded now was in the table, where nothing is due before
      rcases List.mem_cons.mp hd with rfl | hd
      · have hbefore : row ∈ e.before.table.rows := hperformed.mem_of_loadedRow hloaded
        exact hs.rows row hbefore hid
      · exact hs.loaded m hfresh row (hnm ▸ List.mem_filterMap.mpr ⟨d, hd, hloaded⟩) hid
    · exact hs.loaded m hfresh row hrow hid

/-- A recorded failure makes the webhook wait for the due time recorded. -/
theorem waitsUntil_recorded (h : state.machine.Reaches ok state.initial s) {n : ℕ}
    {t : ServiceTask} (ht : s.tasks[n]? = some t) {now : ℤ} {message : String} {next : ℤ}
    {k : Call.Answer Query.Answer (.sql (.recordForwardFailure now message next id)) →
      CallProgram (Call Query) (Call.Answer Query.Answer) (Option HttpResponse)}
    (hr : t.rest = .call (.sql (.recordForwardFailure now message next id)) k) {i : Input}
    (hcommit : i.fault = none) :
    WaitsUntil s id next (state.machine.advanced s n t _ k i) := by
  let e := state.machine.entry s n t (.sql (.recordForwardFailure now message next id)) i
  have hperformed : Performed state.db.ext e := ⟨i, rfl⟩
  refine ⟨?_, ?_, ?_⟩
  · obtain ⟨a, hof, hquery, waiting, hpast⟩ := exists_failedAttempt h ht hr
    obtain ⟨-, -, -, hid⟩ := Query.recordForwardFailure.inj hquery
    have hseq := (ledger_of_reaches h).le_seq _ (stored_of_failedAttempt h ht hof hpast)
    exact (hid.trans_le hseq).trans hperformed.seq_le
  · intro r hmem hid
    have htable : (state.machine.advanced s n t _ k i).shared.table =
        (Query.execute (.recordForwardFailure now message next id) i.choice
          s.shared.table).2 := by
      simp [TaskMachine.advanced, machine, perform, hcommit]
    rw [htable] at hmem
    obtain ⟨r₀, -, ⟨hne, rfl⟩ | ⟨-, rfl⟩⟩ :=
      @Table.mem_rows_update s.shared.table id _ (Row.failed_id i.choice.coerce now message next)
        r hmem
    · exact absurd hid hne
    · exact ⟨next, rfl, le_rfl⟩
  · intro m hfresh row hrow hid
    -- the record loads nothing
    rw [TaskSystem.pastOf_advanced ht] at hrow
    split at hrow
    · rename_i hnm
      rw [List.filterMap_cons_none (by
        cases hanswer : (state.machine.perform (.sql (.recordForwardFailure now message next id)) i
          s.shared).1 <;> rfl)] at hrow
      exact absurd hid (hfresh row (hnm ▸ hrow))
    · exact absurd hid (hfresh row hrow)

end Waits

/-! ## The attempt that was asked to wait -/

section Asked

variable {ok ok₂ : ServiceState → ServiceEvent → Prop} {s s₁ : ServiceState} {n : ℕ} {id : ℤ}
  {wait r : ℕ}

/-- A call that records a failure. -/
theorem exists_of_recordedId {c : Call Query} (h : recordedId c = some id) :
    ∃ now message next, c = .sql (.recordForwardFailure now message next id) := by
  unfold recordedId at h
  split at h
  · cases h
    exact ⟨_, _, _, rfl⟩
  · cases h

/-- A task that is about to make a call. -/
theorem exists_of_nextCall {c : Call Query} (h : s.nextCall n = some c) :
    ∃ t k, s.tasks[n]? = some t ∧ t.rest = .call c k := by
  unfold TaskSystem.nextCall at h
  obtain ⟨t, ht, hrest⟩ := Option.bind_eq_some_iff.mp h
  cases hr : t.rest with
  | pure a => simp [hr] at hrest
  | panic m => simp [hr] at hrest
  | call c' k =>
      simp only [hr, Option.some.injEq] at hrest
      subst hrest
      exact ⟨t, k, ht, hr⟩

/-- The calls of a failed attempt show the second its due time counts from, and the answer. -/
theorem FailedAttempt.dueFrom_eq {a : FailedAttempt} {q : Query}
    {waiting new before : List DoneCall} (honly : OnlyFailed q waiting) (hbefore : NoSend a.before)
    {secs : ℕ} {nanos : Fin 1000000000} {about : Option Webhook} {request : HttpRequest}
    {answer : PeerAnswer}
    (h : waiting ++ a.calls = new ++ ⟨.systemNow, secs⟩ :: ⟨.subsecNanos, nanos⟩ ::
      ⟨.send about request, answer⟩ :: before) : a.dueFrom = secs ∧ a.answer = answer := by
  -- a task sends once, so both ways of writing its calls have the send at the same place
  have hsplit : (waiting ++ [⟨.systemNow, a.storedAt⟩, ⟨.systemNow, a.dueFrom⟩,
        ⟨.subsecNanos, a.nanos⟩]) ++
        (⟨.send (some a.webhook) a.request, a.answer⟩ : DoneCall) :: a.before =
      (new ++ [⟨.systemNow, secs⟩, ⟨.subsecNanos, nanos⟩]) ++
        ⟨.send about request, answer⟩ :: before := by
    simpa [FailedAttempt.calls] using h
  have hclocks : NoSend (waiting ++ [⟨.systemNow, a.storedAt⟩, ⟨.systemNow, a.dueFrom⟩,
      ⟨.subsecNanos, a.nanos⟩]) :=
    (quiet_of_onlyFailed honly).noSend.append (by simp [NoSend, isSend])
  have hnotMem : ∀ {calls : List DoneCall}, NoSend calls →
      (⟨.send about request, answer⟩ : DoneCall) ∉ calls := by
    intro calls hnone hmem
    cases hnone _ hmem
  obtain ⟨hcalls, hsent, -⟩ :=
    (List.append_cons_inj_of_notMem (hnotMem hclocks) (hnotMem hbefore)).mp hsplit
  constructor
  · have hregroup : (waiting ++ [⟨.systemNow, a.storedAt⟩]) ++
        [(⟨.systemNow, a.dueFrom⟩ : DoneCall), ⟨.subsecNanos, a.nanos⟩] =
        new ++ [⟨.systemNow, secs⟩, ⟨.subsecNanos, nanos⟩] := by
      rw [List.append_assoc]
      exact hcalls
    have hlast := (List.append_inj' hregroup rfl).2
    exact eq_of_heq (Sigma.mk.inj (List.cons.inj hlast).1).2
  · obtain ⟨hcall, hanswer⟩ := Sigma.mk.inj hsent
    obtain ⟨rfl, rfl⟩ := Call.send.inj hcall
    exact eq_of_heq hanswer

/-- The delay is the wait asked for, when the ceiling allows it. -/
theorem FailedAttempt.Of.asSecs_delay (hvalid : state.config.validateConfig state.db.ext = .ok ())
    {a : FailedAttempt} {job : Job} (hof : a.Of state job) {resp : WireResponse}
    (hanswer : a.answer = .ok resp) (hwait : resp.retryAfter = some (.fromSecs wait))
    (hle : wait ≤ (a.fwd.resolveBackoff state.config.forwardBackoff).max.asSecs) :
    a.delay.asSecs = wait := by
  obtain ⟨ch, hch, hfwd, -⟩ := hof.channel
  obtain ⟨m, -, hmax⟩ := (sound_of_validateConfig hvalid hch hfwd).max
  rw [hmax, Duration.asSecs_fromSecs] at hle
  have hceiling : Duration.fromSecs wait ≤ Duration.fromSecs m := Nat.cast_le.mpr hle
  have hdelay := hof.delay
  simp only [hanswer, failureOf, hwait, nextDelay, Option.some.injEq] at hdelay
  rw [← hdelay, hmax, min_eq_left hceiling, Duration.asSecs_fromSecs]

/-- **What was asked for is stored**: the due time that is recorded is the second read plus the
wait. -/
theorem AskedToWait.next_eq (hvalid : state.config.validateConfig state.db.ext = .ok ())
    (hfits : state.config.DueTimesFit seconds) (hok : ∀ s e, ok s e → ShowsSeconds seconds s e)
    (h : state.machine.Reaches ok state.initial s) (hasked : AskedToWait state s n id wait r)
    {t : ServiceTask} (ht : s.tasks[n]? = some t) {now : ℤ} {message : String} {next : ℤ}
    {k : Call.Answer Query.Answer (.sql (.recordForwardFailure now message next id)) →
      CallProgram (Call Query) (Call.Answer Query.Answer) (Option HttpResponse)}
    (hr : t.rest = .call (.sql (.recordForwardFailure now message next id)) k) :
    next = seconds r + wait := by
  obtain ⟨a, hof, hquery, waiting, honly, hpast⟩ := exists_failedAttempt_onlyFailed h ht hr
  obtain ⟨-, -, hnext, -⟩ := Query.recordForwardFailure.inj hquery
  obtain ⟨past, hread, hwait⟩ := hasked.asked
  obtain ⟨new, secs, hpast', hsecs⟩ := exists_past_of_readsClockAt hok h hread ht
  have hbefore : NoSend a.before :=
    noSend_of_suffix h (List.mem_of_getElem? ht) (FailedAttempt.sent_suffix hpast) rfl
  unfold askedWait at hwait
  split at hwait
  · rename_i nanos about request resp before
    obtain ⟨hdue, hanswer⟩ :=
      FailedAttempt.dueFrom_eq honly hbefore (hpast.symm.trans hpast')
    have hdelay := FailedAttempt.Of.asSecs_delay hvalid hof hanswer hwait
      (hasked.le_max a.fwd (by
        rw [TaskSystem.jobOf, ht]
        exact hof.target))
    have hstored := FailedAttempt.Of.next_eq hvalid hfits hof (hdue ▸ hsecs)
    rw [hnext, hstored, hdelay, hdue, hsecs]
  · cases hwait

end Asked

/-! ## Selections -/

section Selections

variable {ok : ServiceState → ServiceEvent → Prop} {s s₁ s₂ : ServiceState} {id : ℤ}

/-- A webhook that waits is not selected before the second it is due. -/
theorem WaitsUntil.le_of_selectsAt {due : ℤ} (hs : WaitsUntil s₁ id due s)
    (hok : ∀ s e, ok s e → ShowsSeconds seconds s e) (h : state.machine.Reaches ok state.initial s)
    {n : ℕ} {i : Input} {r : ℕ} (hselects : SelectsAt state s n i id r) : due ≤ seconds r := by
  obtain ⟨channel, now, row, hnext, hanswer, hid⟩ := hselects.selects
  obtain ⟨first, hread⟩ := hselects.readAt
  obtain ⟨t, k, ht, hr⟩ := exists_of_nextCall hnext
  have hmem := List.mem_of_getElem? ht
  obtain ⟨⟨j, -, hjob, -⟩, hquiet⟩ := h.next_permitted rfl start_obeys hmem hr
  obtain ⟨new, secs, first', hpast, hnow⟩ :=
    h.next_permitted rfl start_peeksAtReading hmem hr ⟨j, hjob⟩ hquiet
  obtain ⟨new', secs', hpast', hsecs⟩ := exists_past_of_readsClockAt hok h hread ht
  -- both are the second call of the pass
  have hlast := (List.append_inj' (hpast.symm.trans hpast') rfl).2
  have hsame : secs = secs' := eq_of_heq (Sigma.mk.inj (List.cons.inj hlast).1).2
  obtain ⟨hrow, -, hdue⟩ := Table.mem_dueRows.mp (mem_dueRows_of_peek hanswer)
  have hle := (hs.rows row hrow hid).le hdue
  have hcast : Prog.asI64 secs ≤ secs := Prog.asI64_le (by omega)
  omega

/-- **Along every run that leaves the webhook to later passes it waits** for the due time that
was recorded. -/
theorem waitsUntil_of_reaches (hvalid : state.config.validateConfig state.db.ext = .ok ())
    (hmono : Monotone seconds) (hfits : state.config.DueTimesFit seconds)
    (h₁ : state.machine.Reaches (ShowsSeconds seconds) state.initial s₁)
    (h₂ : state.machine.Reaches (ShowsSeconds seconds) state.initial s₂) {n : ℕ}
    {t : ServiceTask} (ht : s₁.tasks[n]? = some t) {now : ℤ} {message : String} {next : ℤ}
    {k : Call.Answer Query.Answer (.sql (.recordForwardFailure now message next id)) →
      CallProgram (Call Query) (Call.Answer Query.Answer) (Option HttpResponse)}
    (hr : t.rest = .call (.sql (.recordForwardFailure now message next id)) k) {i : Input}
    (hcommit : i.fault = none) (hs₂ : s₂ = state.machine.advanced s₁ n t _ k i)
    (h : state.machine.Reaches (fun s e => ShowsSeconds seconds s e ∧ OnlyLaterPasses s₁ n id s e)
      s₂ s) : WaitsUntil s₁ id next s := by
  refine h.invariant_along (WaitsUntil s₁ id next) ?_ ?_ ?_
  · rw [hs₂]
    exact waitsUntil_recorded h₁ ht hr hcommit
  · intro s j _ hs _ _
    refine ⟨hs.known, hs.rows, fun m hfresh row hrow => ?_⟩
    rw [TaskSystem.pastOf_spawned] at hrow
    exact hs.loaded m hfresh row hrow
  · rintro s m i' u c k' hreach hs ⟨-, hreset, hrecord⟩ hu hr'
    have hreach' : state.machine.Reaches (ShowsSeconds seconds) state.initial s :=
      h₂.trans (hreach.mono fun _ _ => And.left)
    have hnext := TaskSystem.nextCall_eq hu hr'
    refine hs.advanced hu (fun hc => hreset (hc ▸ hnext)) ?_
    rintro now' message' next' rfl
    obtain ⟨j, hjob, hfresh⟩ := hrecord (by rw [hnext]; rfl)
    have hjob' : u.job = .cycle j := by simpa [TaskSystem.jobOf, hu] using hjob
    -- whichever forwarder the pass is of, it had not loaded the webhook by then
    have hunloaded : ∀ row ∈ (s₁.pastOf m).filterMap loadedRow, row.id ≠ id := by
      rcases hfresh with hsame | hnone
      · have hnil := pastOf_eq_nil_of_sameForwarder h₁ ht hr hcommit (hs₂ ▸ hreach) hreach' hu hr'
          (by simpa [TaskSystem.jobOf, ht] using hsame) hjob'
        simp [hnil]
      · exact hnone
    refine le_next_of_loaded hvalid hmono hfits (fun _ _ hstep => hstep) hreach' hu hr'
      ⟨j, hjob'⟩ ?_
    rw [← TaskSystem.pastOf_eq hu]
    exact hs.loaded m hunloaded

end Selections

/-- **When the wait a target asked for is met.**  In every run of an accepted configuration, whose
clock shows the whole seconds of a real time that does not go back, and whose due times fit into
64 bits: a failure is recorded for which the target asked for a wait of at most the ceiling, only
later passes handle the webhook from then on, and one of them selects it.  Then between the
times of the two readings the wait has passed exactly if the reading of the pass is not earlier
within its second than the other was, or belongs to a later second than the one due. -/
theorem asked_wait_met_iff (state : AppState)
    (hvalid : state.config.validateConfig state.db.ext = .ok ()) {clock : ℕ → ℝ}
    (hclock : Monotone clock) (hfits : state.config.DueTimesFit fun k => ⌊clock k⌋)
    {s₁ s₂ s : ServiceState}
    (h₁ : state.machine.Reaches (ShowsSeconds fun k => ⌊clock k⌋) state.initial s₁) {n : ℕ}
    {id : ℤ} {wait r : ℕ} (hasked : AskedToWait state s₁ n id wait r) {i : Input}
    (hrecord : state.machine.next s₁ (.advance n i) = some s₂) (hcommit : i.fault = none)
    (h₂ : state.machine.Reaches (fun s e => ShowsSeconds (fun k => ⌊clock k⌋) s e ∧
      OnlyLaterPasses s₁ n id s e) s₂ s) {m : ℕ} {i' : Input} {r' : ℕ}
    (hselects : SelectsAt state s m i' id r') :
    wait ≤ clock r' - clock r ↔
      Int.fract (clock r) ≤ Int.fract (clock r') ∨ ⌊clock r⌋ + wait < ⌊clock r'⌋ := by
  have hmono : Monotone fun k => ⌊clock k⌋ := fun a b hab => Int.floor_mono (hclock hab)
  have hown : ∀ s e, ShowsSeconds (fun k => ⌊clock k⌋) s e →
      ShowsSeconds (fun k => ⌊clock k⌋) s e := fun _ _ hstep => hstep
  obtain ⟨c, hnext, hid⟩ := Option.bind_eq_some_iff.mp hasked.records
  obtain ⟨now, message, next, rfl⟩ := exists_of_recordedId hid
  obtain ⟨t, k, ht, hr⟩ := exists_of_nextCall hnext
  have hs₂ : s₂ = state.machine.advanced s₁ n t _ k i := by
    simpa [TaskMachine.next, ht, hr] using hrecord.symm
  have hreach : state.machine.Reaches (ShowsSeconds fun k => ⌊clock k⌋) state.initial s₂ := by
    -- the record reads no clock
    refine .step h₁ (e := .advance n i) ?_ hrecord
    intro hnow
    rw [hnext] at hnow
    cases hnow
  have hwaits := waitsUntil_of_reaches hvalid hmono hfits h₁ hreach ht hr hcommit hs₂ h₂
  have hselected := hwaits.le_of_selectsAt hown
    (hreach.trans (h₂.mono fun _ _ => And.left)) hselects
  rw [AskedToWait.next_eq hvalid hfits hown h₁ hasked ht hr] at hselected
  exact natCast_le_sub_iff hselected

/-! ## A wait of a minute -/

/-- The webhook is left alone: no call resets its attempts or records a failure of it. -/
def LeftAlone (id : ℤ) (s : ServiceState) : ServiceEvent → Prop
  | .spawn _ => True
  | .advance m _ => s.nextCall m ≠ some (.sql (.resetForwardAttempts id)) ∧
      (s.nextCall m).bind recordedId ≠ some id

instance (id : ℤ) (s : ServiceState) (e : ServiceEvent) : Decidable (LeftAlone id s e) :=
  match e with
  | .spawn _ | .advance _ _ => by unfold LeftAlone; infer_instance

theorem LeftAlone.onlyLaterPasses {s₁ s : ServiceState} {n : ℕ} {id : ℤ} {e : ServiceEvent}
    (h : LeftAlone id s e) : OnlyLaterPasses s₁ n id s e := by
  cases e with
  | spawn j => trivial
  | advance m i => exact ⟨h.1, fun hrecords => absurd hrecords h.2⟩

/-- The newest call of some is a clock reading of a task, and the earlier ones of that task are as
wanted. -/
def newestReads (n r : ℕ) (wanted : List DoneCall → Bool) : List ServiceEntry → Bool
  | [] => false
  | e :: older => older.length = r && e.task = n && e.call = .systemNow &&
      wanted ((older.filter fun e' => e'.task = n).map Entry.done)

theorem exists_readsClockAt {s : ServiceState} {n r k : ℕ} {wanted : List DoneCall → Bool}
    (h : newestReads n r wanted (s.history.drop k) = true) :
    ∃ past, ReadsClockAt s n r past ∧ wanted past = true := by
  have hsuffix := List.drop_suffix k s.history
  cases hdrop : s.history.drop k with
  | nil =>
      rw [hdrop] at h
      cases h
  | cons e older =>
      rw [hdrop] at h hsuffix
      simp only [newestReads, Bool.and_eq_true, decide_eq_true_eq] at h
      obtain ⟨⟨⟨hlength, htask⟩, hcall⟩, hwanted⟩ := h
      exact ⟨_, ⟨e, older, hsuffix, hlength, htask, hcall, rfl⟩, hwanted⟩

/-- Nothing fails, and the target is busy for a minute. -/
def busyInput (unixSeconds : ℕ) : Input :=
  { Input.calm unixSeconds 503 with
    answers := fun _ => .ok ⟨503, [("retry-after", HeaderValue.ofText ['6', '0'])], .ok ""⟩ }

/-- A webhook is received and sent to the busy target. -/
def busyAttempt : List ServiceEvent :=
  ServiceEvent.task (.request .small) 0 (List.replicate 3 (busyInput 1000)) ++
    ServiceEvent.task (.refresh 0) 1 (List.replicate 3 (busyInput 1000)) ++
    ServiceEvent.task (.cycle 0) 2 (List.replicate 9 (busyInput 1000))

/-- The pass comes to its end, and the next one begins. -/
def nextAttempt : List ServiceEvent :=
  List.replicate 3 (.advance 2 (busyInput 1000)) ++
    ServiceEvent.task (.cycle 0) 3 (List.replicate 3 (busyInput 1060))

/-- The real time of the run: its first nineteen calls, and the later ones. -/
def twoTimes (x y : ℝ) (k : ℕ) : ℝ := if k < 19 then x else y

theorem monotone_twoTimes {x y : ℝ} (h : x ≤ y) : Monotone (twoTimes x y) := by
  intro a b hab
  unfold twoTimes
  split <;> split
  · exact le_rfl
  · exact h
  · omega
  · exact le_rfl

/-- At the second 1000 the target asks for a minute, and at the second 1060 the webhook is
selected. -/
theorem exists_minute_run {x y : ℝ} (hx : ⌊x⌋ = 1000) (hy : ⌊y⌋ = 1060) :
    ∃ s₁ s₂ s : ServiceState,
      small.machine.Reaches (ShowsSeconds fun k => ⌊twoTimes x y k⌋) small.initial s₁ ∧
      AskedToWait small s₁ 2 1 60 12 ∧
      small.machine.next s₁ (.advance 2 (busyInput 1000)) = some s₂ ∧
      small.machine.Reaches (fun s e => ShowsSeconds (fun k => ⌊twoTimes x y k⌋) s e ∧
        OnlyLaterPasses s₁ 2 1 s e) s₂ s ∧
      SelectsAt small s 3 (busyInput 1060) 1 20 ∧
      s₁.history.length = 15 ∧ s.history.length = 22 := by
  let seconds : ℕ → ℤ := fun k => if k < 19 then 1000 else 1060
  have hseconds : (fun k => ⌊twoTimes x y k⌋) = seconds := by
    funext k
    unfold twoTimes seconds
    split
    · exact hx
    · exact hy
  have hrun : ∃ s₁, small.machine.runPermitted (ShowsSeconds seconds) small.initial busyAttempt =
        some s₁ ∧ ((s₁.nextCall 2).bind recordedId = some 1 ∧
          newestReads 2 12 (fun past => askedWait past = some (.fromSecs 60))
            (s₁.history.drop 2) = true ∧
          (∀ fwd ∈ (s₁.jobOf 2).bind small.target,
            60 ≤ (fwd.resolveBackoff small.config.forwardBackoff).max.asSecs) ∧
          s₁.history.length = 15) ∧
      ∃ s₂, small.machine.next s₁ (.advance 2 (busyInput 1000)) = some s₂ ∧
      ∃ s, small.machine.runPermitted (fun s e => ShowsSeconds seconds s e ∧ LeftAlone 1 s e) s₂
        nextAttempt = some s ∧
        s.nextCall 3 = some (.sql (.peekOldestDueByChannel "orders" 1060)) ∧
        (loadedRow ⟨.sql (.peekOldestDueByChannel "orders" 1060),
          (perform small.db.ext (.sql (.peekOldestDueByChannel "orders" 1060)) (busyInput 1060)
            s.shared).1⟩).map Row.id = some 1 ∧
        newestReads 3 20 (fun past => past.length = 1) (s.history.drop 1) = true ∧
        s.history.length = 22 := by
    decide +kernel
  rw [hseconds]
  obtain ⟨s₁, hs₁, ⟨hrecords, hasked, hmax, hlength₁⟩, s₂, hs₂, s, hs, hnext, hloaded, hread,
    hlength⟩ := hrun
  obtain ⟨past, hpast, hwait⟩ := exists_readsClockAt hasked
  obtain ⟨past', hpast', hone⟩ := exists_readsClockAt hread
  obtain ⟨first, rfl⟩ := List.length_eq_one_iff.mp (of_decide_eq_true hone)
  obtain ⟨row, hrow, hid⟩ := Option.map_eq_some_iff.mp hloaded
  refine ⟨s₁, s₂, s, TaskMachine.reaches_of_runPermitted hs₁,
    ⟨hrecords, ⟨past, hpast, of_decide_eq_true hwait⟩, hmax⟩, hs₂,
    (TaskMachine.reaches_of_runPermitted hs).mono fun _ _ hstep =>
      ⟨hstep.1, hstep.2.onlyLaterPasses⟩,
    ⟨⟨"orders", 1060, row, hnext, eq_ok_of_loadedRow hrow, hid⟩, first, hpast'⟩, hlength₁,
    hlength⟩

/-- With a clock that shows at most the second 1060 the due times of the small service fit. -/
theorem dueTimesFit_small (h : ∀ k, seconds k ≤ 1060) : small.config.DueTimesFit seconds := by
  have hmax : ∀ ch ∈ small.config.channels, ∀ fwd ∈ ch.forward,
      (fwd.resolveBackoff small.config.forwardBackoff).max.asSecs ≤ 3600 := by
    decide +kernel
  intro ch hch fwd hfwd k
  have hceiling := hmax ch hch fwd hfwd
  have hsecond := h k
  omega

theorem floor_twoTimes_le {x y : ℝ} (hx : ⌊x⌋ = 1000) (hy : ⌊y⌋ = 1060) (k : ℕ) :
    ⌊twoTimes x y k⌋ ≤ 1060 := by
  unfold twoTimes
  split <;> omega

/-- A minute that is waited for: the failure comes at 1000.2 seconds, and the webhook is selected
again at 1060.5 seconds. -/
theorem asked_wait_met_iff_minute :
    ∃ s₁ s : ServiceState, AskedToWait small s₁ 2 1 60 12 ∧
      SelectsAt small s 3 (busyInput 1060) 1 20 ∧
      ((60 : ℕ) : ℝ) ≤ twoTimes (5001 / 5) (2121 / 2) 20 - twoTimes (5001 / 5) (2121 / 2) 12 := by
  have hx : ⌊(5001 / 5 : ℝ)⌋ = 1000 := by norm_num
  have hy : ⌊(2121 / 2 : ℝ)⌋ = 1060 := by norm_num
  obtain ⟨s₁, s₂, s, h₁, hasked, hrecord, h₂, hselects, -, -⟩ := exists_minute_run hx hy
  refine ⟨s₁, s, hasked, hselects, (asked_wait_met_iff small Forwarder.validateConfig_small
    (monotone_twoTimes (by norm_num)) (dueTimesFit_small (floor_twoTimes_le hx hy)) h₁ hasked
    hrecord rfl h₂ hselects).mpr (Or.inl ?_)⟩
  show Int.fract (5001 / 5 : ℝ) ≤ Int.fract (2121 / 2 : ℝ)
  rw [Int.fract, Int.fract, hx, hy]
  norm_num

/-- **A wait that is cut short**: the target asks for a minute at 1000.9 seconds, and the webhook
is selected at 1060 seconds; so soon after the failure was stored, too. -/
theorem asked_wait_cut_short :
    small.config.validateConfig small.db.ext = .ok () ∧
      ∃ (clock : ℕ → ℝ) (s₁ s₂ s : ServiceState), Monotone clock ∧
        small.config.DueTimesFit (fun k => ⌊clock k⌋) ∧
        small.machine.Reaches (ShowsSeconds fun k => ⌊clock k⌋) small.initial s₁ ∧
        AskedToWait small s₁ 2 1 60 12 ∧
        small.machine.next s₁ (.advance 2 (busyInput 1000)) = some s₂ ∧
        small.machine.Reaches (fun s e => ShowsSeconds (fun k => ⌊clock k⌋) s e ∧
          OnlyLaterPasses s₁ 2 1 s e) s₂ s ∧
        SelectsAt small s 3 (busyInput 1060) 1 20 ∧
        clock 20 - clock 12 < 60 ∧ clock s.history.length - clock s₁.history.length < 60 := by
  have hx : ⌊(10009 / 10 : ℝ)⌋ = 1000 := by norm_num
  have hy : ⌊(1060 : ℝ)⌋ = 1060 := by norm_num
  obtain ⟨s₁, s₂, s, h₁, hasked, hrecord, h₂, hselects, hlength₁, hlength⟩ :=
    exists_minute_run hx hy
  refine ⟨Forwarder.validateConfig_small, twoTimes (10009 / 10) 1060, s₁, s₂, s,
    monotone_twoTimes (by norm_num), dueTimesFit_small (floor_twoTimes_le hx hy), h₁, hasked,
    hrecord, h₂, hselects, ?_, ?_⟩
  · norm_num [twoTimes]
  · norm_num [twoTimes, hlength₁, hlength]

end AppState
