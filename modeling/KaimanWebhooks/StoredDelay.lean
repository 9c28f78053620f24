/-
# The delay beside the count

A recorded failure adds one to the count in the row, whatever the count is by then, while its
delay was computed for the count that the attempt had loaded.  When two attempts at a webhook are
under way at a time, the second record so stores a count and a delay that do not belong together.
In every run that records each failure in a row as it was loaded the two agree.
-/
import KaimanWebhooks.Bookkeeping

/-! ## Records of a run -/

/-- The calls a task has made, newest first. -/
def TaskSystem.pastOf {C : Type} {R : C → Type} {α J S : Type} (s : TaskSystem C R α J S) (n : ℕ) :
    List (CallProgram.Done C R) :=
  (s.tasks[n]?).elim [] TaskState.past

section Pasts

variable {C : Type} {R : C → Type} {α J I S : Type} {M : TaskMachine C R α J I S}
  {s : TaskSystem C R α J S}

theorem TaskSystem.pastOf_eq {n : ℕ} {t : TaskState C R α J} (ht : s.tasks[n]? = some t) :
    s.pastOf n = t.past := by
  rw [pastOf, ht]
  rfl

/-- A new task has made no calls. -/
theorem TaskSystem.pastOf_spawned (j : J) (n : ℕ) : (M.spawned s j).pastOf n = s.pastOf n := by
  unfold pastOf
  cases hu : (M.spawned s j).tasks[n]? with
  | none =>
      have hnone : s.tasks[n]? = none := by
        rw [List.getElem?_eq_none_iff, TaskMachine.spawned, List.length_append] at hu
        exact List.getElem?_eq_none (by omega)
      rw [hnone]
  | some u =>
      rcases TaskMachine.getElem?_spawned hu with hold | ⟨rfl, rfl⟩
      · rw [hold]
      · rw [List.getElem?_eq_none le_rfl]
        rfl

/-- A call is added to the past of its task alone. -/
theorem TaskSystem.pastOf_advanced {n : ℕ} {t : TaskState C R α J} (ht : s.tasks[n]? = some t)
    (c : C) (k : R c → CallProgram C R α) (i : I) (m : ℕ) :
    (M.advanced s n t c k i).pastOf m =
      if n = m then ⟨c, (M.perform c i s.shared).1⟩ :: s.pastOf n else s.pastOf m := by
  have hlt : n < s.tasks.length := (List.getElem?_eq_some_iff.mp ht).1
  unfold pastOf TaskMachine.advanced
  rw [List.getElem?_set, if_pos hlt]
  split
  · rw [ht]
    rfl
  · rfl

end Pasts

/-- The webhook that a call is to record a failure of. -/
def recordedId : Call Query → Option ℤ
  | .sql (.recordForwardFailure _ _ _ id) => some id
  | _ => none

/-- **A failure is recorded in a row as it was loaded**: since then no other failure of the
webhook was recorded and its attempts were not reset. -/
def RecordsAsLoaded (s : ServiceState) : ServiceEvent → Prop
  | .spawn _ => True
  | .advance n _ =>
      ∀ id ∈ (s.nextCall n).bind recordedId, ∀ r ∈ s.shared.table.rows, r.id = id →
        ∀ row ∈ (s.pastOf n).filterMap loadedRow, row.forwardAttempts = r.forwardAttempts

instance (s : ServiceState) (e : ServiceEvent) : Decidable (RecordsAsLoaded s e) :=
  match e with
  | .spawn _ | .advance _ _ => by unfold RecordsAsLoaded; infer_instance

/-- The due time of a row is a clock reading plus the whole seconds of the delay for the count
in the row; as integers, when the sum fits into 64 bits. -/
def DueAfterDelay (fm : FloatModel) (backoff : ForwardBackoff) (reading : ℕ) (r : Row) : Prop :=
  ∀ n : ℤ, n < 2 ^ 63 → r.forwardAttempts = .int n →
    ∃ delay, delayForAttempt fm backoff n = some delay ∧
      r.nextAttemptAt = .int (Prog.addI64 (Prog.asI64 reading) (Prog.asI64 delay.asSecs)) ∧
      (reading + delay.asSecs < 2 ^ 63 → r.nextAttemptAt = .int (reading + delay.asSecs))

/-- The last call of the run, if it committed a failure, was made after a failed attempt; and
when that was transient, the target named no time and there is no jitter, the row is due after
the delay for the count it shows. -/
def AppState.DelayMatches (state : AppState) (s : ServiceState) : Prop :=
  ∀ (e : ServiceEntry) (older : List ServiceEntry) (now : ℤ) (message : String) (next id : ℤ)
    (affected : ℕ), s.history = e :: older →
    e.done = (⟨.sql (.recordForwardFailure now message next id), .ok affected⟩ : DoneCall) →
    ∃ a : FailedAttempt, a.Of state e.job ∧
      Query.recordForwardFailure now message next id = a.query message ∧
      (∃ waiting, (older.filter fun e' => e'.task = e.task).map Entry.done =
        waiting ++ a.calls) ∧
      (failureOf a.answer = (.transient, none) →
        (a.fwd.resolveBackoff state.config.forwardBackoff).jitter = .finite 0 →
        ∀ r ∈ s.shared.table.rows, r.id = id →
          DueAfterDelay state.db.ext.float (a.fwd.resolveBackoff state.config.forwardBackoff)
            a.dueFrom r)

namespace AppState

section Rows

variable {state : AppState} {ok : ServiceState → ServiceEvent → Prop} {s : ServiceState}

/-- Along every run the counts are natural numbers. -/
theorem forwardAttempts_natCast (h : state.machine.Reaches ok state.initial s) :
    ∀ r ∈ s.shared.table.rows, ∃ n : ℕ, r.forwardAttempts = .int n := by
  refine h.invariant_shared (fun w => ∀ r ∈ w.table.rows, ∃ n : ℕ, r.forwardAttempts = .int n)
    (by simp [initial, Table.empty]) ?_
  intro s n i t c k hs _ _ _ r hr
  have hperformed : Performed state.db.ext (state.machine.entry s n t c i) := ⟨i, rfl⟩
  rcases hperformed.row_cases hr with hold | ⟨now, message, next, coerce, -, r₀, hold, rfl⟩ |
    ⟨-, r₀, -, rfl⟩ | ⟨content, rfl⟩
  · exact hs r hold
  · obtain ⟨m, hm⟩ := hs r₀ hold
    exact ⟨m + 1, by simp [Row.failed, Row.nextForwardAttempts, hm]⟩
  · exact ⟨0, rfl⟩
  · exact ⟨0, rfl⟩

/-- Without jitter the delay after a transient failure is the delay for its count. -/
theorem nextDelay_without_jitter {fm : FloatModel} {backoff : ForwardBackoff} {attempts : ℤ}
    {unit : F64} (h : backoff.jitter = .finite 0) :
    nextDelay fm backoff .transient attempts none unit = delayForAttempt fm backoff attempts := by
  have happly : ∀ delay, applyJitter fm backoff delay unit = some delay := by
    intro delay
    unfold applyJitter
    rw [h, if_pos (by simp)]
  simp only [nextDelay, reduceCtorEq, if_false, happly]
  exact Option.bind_fun_some _

/-- **A failure recorded in a row as it was loaded matches the count.** -/
theorem dueAfterDelay_failed (h : state.machine.Reaches ok state.initial s)
    {t : ServiceTask} {a : FailedAttempt} {message : String}
    (hof : a.Of state t.job) {waiting : List DoneCall} (hpast : t.past = waiting ++ a.calls)
    (hkind : failureOf a.answer = (.transient, none))
    (hjitter : (a.fwd.resolveBackoff state.config.forwardBackoff).jitter = .finite 0) {r : Row}
    (hr : r ∈ s.shared.table.rows)
    (hasLoaded : ∀ row ∈ t.past.filterMap loadedRow, row.forwardAttempts = r.forwardAttempts)
    (coerce : SqlValue → SqlValue) :
    DueAfterDelay state.db.ext.float (a.fwd.resolveBackoff state.config.forwardBackoff) a.dueFrom
      (r.failed coerce a.now message a.next) := by
  obtain ⟨m, hm⟩ := forwardAttempts_natCast h r hr
  obtain ⟨d, hd, hloaded⟩ := hof.loaded
  have hsame : a.row.forwardAttempts = r.forwardAttempts :=
    hasLoaded a.row (List.mem_filterMap.mpr
      ⟨d, (FailedAttempt.before_suffix hpast).subset hd, hloaded⟩)
  have hread : a.webhook.forwardAttempts = m :=
    forwardAttempts_of_parseWebhookRow hof.parse (hsame.trans hm)
  intro count hcount hcell
  -- the row counts one more than the attempt had loaded, and the delay was computed for that
  have hnext : (m : ℤ) + 1 = count := by
    simpa [Row.failed, Row.nextForwardAttempts, hm] using hcell
  have hdelay := hof.delay
  rw [hkind, nextDelay_without_jitter hjitter, hread,
    show Prog.addI64 m 1 = (m : ℤ) + 1 from Prog.asI64_of_lt (by omega) (by omega), hnext] at hdelay
  refine ⟨a.delay, hdelay, rfl, fun hfits => congrArg SqlValue.int ?_⟩
  show Prog.addI64 (Prog.asI64 a.dueFrom) (Prog.asI64 a.delay.asSecs) = _
  rw [Prog.asI64_of_lt (by omega) (by omega), Prog.asI64_of_lt (by omega) (by omega)]
  exact Prog.asI64_of_lt (by omega) (by omega)

end Rows

/-- **The stored delay matches the stored count.**  In every run, whatever its interleaving, that
records each failure in a row as it was loaded: whenever a failure has been committed, it goes
back to a failed attempt, and after a transient one without a wish of the target and without
jitter the row is due after the delay for the count it shows. -/
theorem delay_matches_count (state : AppState) {s : ServiceState}
    (h : state.machine.Reaches RecordsAsLoaded state.initial s) : state.DelayMatches s := by
  refine h.invariant_along state.DelayMatches ?_ ?_ ?_
  · intro e older now message next id affected hhistory
    cases hhistory
  · intro s j _ hs _ _
    exact hs
  · intro s n i t c k hreach _ hok ht hr e older now message next id affected hhistory hdone
    obtain ⟨rfl, rfl⟩ := List.cons.inj hhistory
    obtain rfl : c = .sql (.recordForwardFailure now message next id) := congrArg Sigma.fst hdone
    obtain ⟨a, hof, hquery, waiting, hpast⟩ := exists_failedAttempt hreach ht hr
    refine ⟨a, hof, hquery, ⟨waiting, ?_⟩, ?_⟩
    · rw [← hpast]
      exact (hreach.past_eq rfl rfl ht).symm
    · intro hkind hjitter r hmem hid
      -- the row is the one the statement has just changed
      have hanswer : (perform state.db.ext (.sql (.recordForwardFailure now message next id)) i
          s.shared).1 = .ok affected := eq_of_heq (Sigma.mk.inj hdone).2
      obtain ⟨-, -, hshared⟩ := perform_sql_ok hanswer
      have htable : (state.machine.advanced s n t _ k i).shared.table =
          (Query.execute (.recordForwardFailure now message next id) i.choice
            s.shared.table).2 := congrArg World.table hshared
      rw [htable] at hmem
      obtain ⟨r₀, hr₀, ⟨hne, rfl⟩ | ⟨heq, rfl⟩⟩ :=
        @Table.mem_rows_update s.shared.table id _ (Row.failed_id i.choice.coerce now message next)
          r hmem
      · exact absurd hid hne
      · obtain ⟨hnow, -, hdue, -⟩ := Query.recordForwardFailure.inj hquery
        have hnext := TaskSystem.nextCall_eq ht hr
        have hloaded := hok id (by rw [hnext]; rfl) r₀ hr₀ heq
        rw [TaskSystem.pastOf, ht] at hloaded
        rw [hnow, hdue]
        exact dueAfterDelay_failed hreach hof hpast hkind hjitter hr₀ hloaded i.choice.coerce

/-! ## A service without jitter -/

/-- The small service without jitter. -/
def steady : AppState :=
  ⟨{ AppConfig.small with forwardBackoff := ⟨.finite 2, 3600, .finite 0⟩ }, small.db⟩

/-- A first failure at the second 1001 parks the webhook for the interval of a minute, which is
the delay of one attempt. -/
theorem delay_matches_count_failed :
    ∃ s : ServiceState, (∃ r ∈ s.shared.table.rows, r.forwardAttempts = .int 1 ∧
      r.nextAttemptAt = .int 1061) ∧ steady.DelayMatches s := by
  have hrun : ∃ s, steady.machine.runPermitted RecordsAsLoaded steady.initial failedEvents =
      some s ∧ ∃ r ∈ s.shared.table.rows, r.forwardAttempts = .int 1 ∧
        r.nextAttemptAt = .int 1061 := by
    decide +kernel
  obtain ⟨s, hs, hr⟩ := hrun
  exact ⟨s, hr, delay_matches_count steady (TaskMachine.reaches_of_runPermitted hs)⟩

/-- A manual retry is under way together with a pass, and both fail. -/
def overlappingFailures : List ServiceEvent :=
  ServiceEvent.task (.request .small) 0 (List.replicate 3 (Input.calm 1000 200)) ++
    ServiceEvent.task (.refresh 0) 1 (List.replicate 3 (Input.calm 1000 200)) ++
    ServiceEvent.task (.cycle 0) 2 (List.replicate 5 (Input.calm 1001 500)) ++
    ServiceEvent.task (.request (.retry "orders" 1 .small)) 3
      (List.replicate 3 (Input.calm 1001 500)) ++
    List.replicate 5 (.advance 2 (Input.calm 1001 500)) ++
    List.replicate 5 (.advance 3 (Input.calm 1001 500))

/-- A reading is one of the times of the run, and an answer one of a transient failure. -/
def isPlain : DoneCall → Bool
  | ⟨.systemNow, secs⟩ => secs = 1000 || secs = 1001
  | ⟨.send _ _, answer⟩ => failureOf answer = (.transient, none)
  | _ => true

/-- The targets of the service have no jitter, and a second delay of two minutes. -/
theorem FailedAttempt.Of.steady_second {a : FailedAttempt} {job : Job} (hof : a.Of steady job) :
    (a.fwd.resolveBackoff steady.config.forwardBackoff).jitter = .finite 0 ∧
      delayForAttempt steady.db.ext.float
        (a.fwd.resolveBackoff steady.config.forwardBackoff) 2 = some 120 := by
  have hall : ∀ ch ∈ steady.config.channels, ∀ fwd ∈ ch.forward,
      (fwd.resolveBackoff steady.config.forwardBackoff).jitter = .finite 0 ∧
        delayForAttempt steady.db.ext.float
          (fwd.resolveBackoff steady.config.forwardBackoff) 2 = some 120 := by
    decide +kernel
  obtain ⟨ch, hch, hforward, -⟩ := hof.channel
  exact hall ch hch a.fwd hforward

/-- **Overlapping attempts store a delay beside another count**: the second failure is counted as
the second, and is due after the minute that follows a first one. -/
theorem overlapping_failures_mismatch :
    steady.config.validateConfig steady.db.ext = .ok () ∧
      ¬∀ s, steady.machine.Reaches (fun _ _ => True) steady.initial s → steady.DelayMatches s := by
  have hrun : ∃ s, steady.machine.runPermitted (fun _ _ => True) steady.initial
      overlappingFailures = some s ∧ (s.history.head?.any fun e => recordsFailure 1 e.done) = true ∧
      (∃ r ∈ s.shared.table.rows, r.id = 1 ∧ r.forwardAttempts = .int 2 ∧
        r.nextAttemptAt = .int 1061) ∧ (s.history.all fun e => isPlain e.done) = true := by
    decide +kernel
  refine ⟨Except.eq_ok_of_toBool (by decide +kernel), fun hclaim => ?_⟩
  obtain ⟨s, hs, hhead, ⟨r, hr, hid, hcount, hdue⟩, hplain⟩ := hrun
  have hreaches := TaskMachine.reaches_of_runPermitted hs
  cases hhistory : s.history with
  | nil =>
      rw [hhistory] at hhead
      cases hhead
  | cons e older =>
      rw [hhistory] at hhead hplain
      obtain ⟨now, message, next, affected, hdone⟩ := exists_of_recordsFailure hhead
      obtain ⟨a, hof, -, ⟨waiting, hpast⟩, hmatches⟩ :=
        hclaim s hreaches e older now message next 1 affected hhistory hdone
      -- the calls of the attempt are calls of the run
      have hcalls : ∀ d ∈ a.calls, isPlain d = true := by
        intro d hd
        have hmem : d ∈ (older.filter fun e' => e'.task = e.task).map Entry.done := by
          rw [hpast]
          exact List.mem_append_right _ hd
        obtain ⟨e', he', rfl⟩ := List.mem_map.mp hmem
        exact List.all_eq_true.mp hplain e' (List.mem_cons_of_mem _ (List.mem_of_mem_filter he'))
      have hkind : failureOf a.answer = (.transient, none) :=
        of_decide_eq_true (hcalls ⟨.send (some a.webhook) a.request, a.answer⟩ (by
          simp [FailedAttempt.calls]))
      have hreading := hcalls ⟨.systemNow, a.dueFrom⟩ (by simp [FailedAttempt.calls])
      obtain ⟨hjitter, hsecond⟩ := FailedAttempt.Of.steady_second hof
      obtain ⟨delay, hdelay, -, hdue'⟩ := hmatches hkind hjitter r hr hid 2 (by norm_num) hcount
      obtain rfl : 120 = delay := Option.some.inj (hsecond.symm.trans hdelay)
      have hsecs : Duration.asSecs 120 = 120 := Duration.asSecs_fromSecs 120
      have hbounds : a.dueFrom = 1000 ∨ a.dueFrom = 1001 := by simpa [isPlain] using hreading
      rw [hsecs] at hdue'
      have hsum := SqlValue.int.inj (hdue.symm.trans (hdue' (by omega)))
      omega

end AppState
