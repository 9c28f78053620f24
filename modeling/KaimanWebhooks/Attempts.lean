/-
# Attempts and what they left

The attempts of statements among the calls of an execution, and the two ways an operation
ends: its last attempt committed and the table is what that made of it, or every attempt
failed and the table is as before.
-/
import KaimanWebhooks.Repository

/-! ## Attempts -/

namespace SqlxError

/-- The error is a lock error of the database: `SQLITE_BUSY` or `SQLITE_LOCKED`. -/
def IsLock (e : SqlxError) : Prop :=
  ∃ code, e.extendedCode = some code ∧ (code % 256 = 5 ∨ code % 256 = 6)

/-- A lock error, or the pool had no connection left. -/
def IsContention (e : SqlxError) : Prop := e.IsLock ∨ e = .poolTimedOut

theorem isRetryableLock_iff (e : SqlxError) : e.isRetryableLock = true ↔ e.IsLock := by
  unfold isRetryableLock IsLock
  cases e.extendedCode with
  | none => simp
  | some code => simp [isLockCode]

end SqlxError

theorem isBusy_toRepositoryError (e : SqlxError) :
    (toRepositoryError e).isBusy = true ↔ e.IsContention := by
  have hcontention : e.isLockContention = true ↔ e.IsContention := by
    unfold SqlxError.isLockContention SqlxError.IsContention
    rw [← SqlxError.isRetryableLock_iff, Bool.or_eq_true, decide_eq_true_eq]
  rw [← hcontention]
  unfold toRepositoryError
  cases e.isLockContention <;> simp [WebhookRepositoryError.isBusy]

/-- How an attempt of a statement ended: it committed, or it failed with an error. -/
def attemptOutcome : DoneCall → Option (Option SqlxError)
  | ⟨.sql _, .ok _⟩ => some none
  | ⟨.sql _, .error e⟩ => some (some e)
  | _ => none

/-- The outcomes of the attempts among some calls. -/
def outcomes (calls : List DoneCall) : List (Option SqlxError) := calls.filterMap attemptOutcome

theorem outcomes_append (a b : List DoneCall) : outcomes (a ++ b) = outcomes a ++ outcomes b :=
  List.filterMap_append ..

/-- Clock readings and pauses are no attempts. -/
theorem outcomes_of_isTiming {calls : List DoneCall} (h : ∀ d ∈ calls, d.1.isTiming = true) :
    outcomes calls = [] := by
  apply List.filterMap_eq_nil_iff.mpr
  rintro ⟨c, r⟩ hd
  have hc := h _ hd
  cases c <;> first | rfl | cases hc

/-- Failed attempts, clock readings and pauses. -/
theorem outcomes_of_onlyFailed {q : Query} {calls : List DoneCall} (h : OnlyFailed q calls) :
    ∃ failed : List SqlxError, outcomes calls = failed.map some := by
  induction calls with
  | nil => exact ⟨[], rfl⟩
  | cons d calls ih =>
      obtain ⟨failed, hfailed⟩ := ih fun d hd => h d (List.mem_cons_of_mem _ hd)
      have hsplit : outcomes (d :: calls) = outcomes [d] ++ outcomes calls :=
        outcomes_append [d] calls
      rcases h d List.mem_cons_self with htiming | ⟨e, rfl⟩
      · rw [hsplit, outcomes_of_isTiming (by simpa using htiming), hfailed]
        exact ⟨failed, rfl⟩
      · rw [hsplit, hfailed]
        exact ⟨e :: failed, rfl⟩

/-! ## What an execution did -/

section Executed

variable {α : Type}

/-- A finished execution of a program of the service. -/
abbrev Executed (α : Type) : Type :=
  CallProgram.Execution (Call Query) (Call.Answer Query.Answer) World α

/-- All attempts but the last failed, the last one committed, and the table is what that one
execution of the statement makes of it. -/
def CommittedOnce (q : Query) (choice : ScanChoice) (w : World) (ex : Executed α) : Prop :=
  (∃ failed : List SqlxError, outcomes ex.calls = failed.map some ++ [none]) ∧
    ex.state.table = (q.execute choice w.table).2

/-- Every attempt failed, the last one with the error given, and the table is as before. -/
def FailedWith (e : SqlxError) (w : World) (ex : Executed α) : Prop :=
  (∃ failed : List SqlxError, outcomes ex.calls = (failed ++ [e]).map some) ∧
    ex.state.table = w.table

/-- An insertion that was committed once left one more row at the end of the table. -/
theorem CommittedOnce.rows_insert {channel headers : String} {payload : Bytes} {receivedAt : ℤ}
    {choice : ScanChoice} {w : World} {ex : Executed α}
    (h : CommittedOnce (.insert channel headers payload receivedAt) choice w ex) :
    ex.state.table.rows = w.table.rows ++
      [{ id := w.table.seq + 1
         channel := .text channel
         headers := .text headers
         payload := .blob payload
         receivedAt := .int receivedAt
         forwardAttempts := .int 0
         lastAttemptAt := .null
         lastAttemptError := .null
         nextAttemptAt := .null }] := by
  rw [h.2]
  rfl

/-- An execution cannot have done both, nor have failed in two ways. -/
theorem FailedWith.unique {e e' : SqlxError} {w : World} {ex : Executed α} (h : FailedWith e w ex)
    (h' : FailedWith e' w ex) : e = e' := by
  obtain ⟨⟨failed, hfailed⟩, -⟩ := h
  obtain ⟨⟨failed', hfailed'⟩, -⟩ := h'
  have hlast := congrArg List.getLast? (hfailed.symm.trans hfailed')
  simpa using hlast

theorem FailedWith.not_committedOnce {e : SqlxError} {w : World} {ex : Executed α}
    (h : FailedWith e w ex) {q : Query} {choice : ScanChoice} : ¬CommittedOnce q choice w ex := by
  rintro ⟨⟨failed, hfailed⟩, -⟩
  obtain ⟨⟨failed', hfailed'⟩, -⟩ := h
  have hlast := congrArg List.getLast? (hfailed.symm.trans hfailed')
  simp at hlast

end Executed

/-! ## One statement -/

section Statement

variable {β : Type} {q : Query}

/-- The calls of an operation are failed attempts and, when it returns a value, one that
committed. -/
theorem outcomes_run_statement (db : Sqlite) (read : q.Answer → β) (ω : ℕ → Input) (w : World) :
    (∀ b, ((db.statement q read).run (perform db.ext) ω w).outcome = .done (.ok b) →
      ∃ failed : List SqlxError,
        outcomes ((db.statement q read).run (perform db.ext) ω w).calls =
          failed.map some ++ [none]) ∧
    (∀ e, ((db.statement q read).run (perform db.ext) ω w).outcome = .done (.error e) →
      ∃ failed last, outcomes ((db.statement q read).run (perform db.ext) ω w).calls =
        (failed ++ [last]).map some ∧ e = toRepositoryError last) := by
  let post : List DoneCall → Except WebhookRepositoryError β → Prop := fun past result =>
    match result with
    | .ok _ => ∃ failed : List SqlxError, outcomes past.reverse = failed.map some ++ [none]
    | .error e => ∃ failed last, outcomes past.reverse = (failed ++ [last]).map some ∧
        e = toRepositoryError last
  let A : (c : Call Query) → Call.Answer Query.Answer c → Prop := fun c r =>
    ∃ i s, (perform db.ext c i s).1 = r
  have hanswers : ∀ c i s, A c (perform db.ext c i s).1 := fun c i s => ⟨i, s, rfl⟩
  have hobeys : (db.statement q read).Obeys A (fun _ _ => True) post [] := by
    refine Sqlite.obeys_statement (fun _ _ _ => trivial) (fun _ _ => trivial) ?_ ?_
    · intro new a _ hnew
      have hrev : OnlyFailed q new.reverse := fun d hd => hnew d (List.mem_reverse.mp hd)
      obtain ⟨failed, hfailed⟩ := outcomes_of_onlyFailed hrev
      refine ⟨failed, ?_⟩
      rw [List.append_nil, List.reverse_cons, outcomes_append, hfailed]
      rfl
    · intro after e new hafter hnew
      have hrev : OnlyFailed q new.reverse := fun d hd => hnew d (List.mem_reverse.mp hd)
      obtain ⟨failed, hfailed⟩ := outcomes_of_onlyFailed hrev
      have hquiet : outcomes after.reverse = [] :=
        outcomes_of_isTiming fun d hd => hafter d (List.mem_reverse.mp hd)
      refine ⟨failed, e, ?_, rfl⟩
      rw [List.append_nil, List.reverse_append, List.reverse_cons, outcomes_append,
        outcomes_append, hfailed, hquiet, List.append_nil, List.map_append]
      rfl
  have hrun := (hobeys.of_run hanswers ω w).1
  rw [List.append_nil] at hrun
  constructor
  · intro b hb
    have hpost := hrun (.ok b) hb
    unfold post at hpost
    rwa [List.reverse_reverse] at hpost
  · intro e he
    have hpost := hrun (.error e) he
    unfold post at hpost
    rwa [List.reverse_reverse] at hpost

/-- What an operation owes, by how it ended.  With the default retry policy it always
ends. -/
def OperationAgrees (q : Query) (read : q.Answer → β) (w : World)
    (ex : Executed (Except WebhookRepositoryError β)) : Prop :=
  match ex.outcome with
  | .done (.ok b) => ∃ choice, b = read (q.execute choice w.table).1 ∧ CommittedOnce q choice w ex
  | .done (.error e) => ∃ last, FailedWith last w ex ∧ (e.isBusy = true ↔ last.IsContention)
  | .panicked _ => False

/-- **One statement under the retry loop agrees with what was stored.** -/
theorem statement_agrees {db : Sqlite} (hretry : db.retry = LockRetryPolicy.default)
    (read : q.Answer → β) (ω : ℕ → Input) (w : World) :
    OperationAgrees q read w ((db.statement q read).run (perform db.ext) ω w) := by
  let post : CallProgram.Outcome (Except WebhookRepositoryError β) → World → Prop := fun o w' =>
    match o with
    | .done (.ok b) => ∃ choice, b = read (q.execute choice w.table).1 ∧
        w' = { w with table := (q.execute choice w.table).2 }
    | .done (.error _) => w' = w
    | .panicked _ => False
  have hensures : (db.statement q read).Ensures (perform db.ext) post w := by
    refine Sqlite.ensures_statement (fun choice => ⟨choice, rfl, rfl⟩) (fun _ => rfl) ?_
    intro m number nanos hnone
    have hsome := backoffAfter_default_isSome db.ext.float number nanos
    rw [hretry] at hnone
    rw [hnone] at hsome
    cases hsome
  have hend := hensures.of_run ω
  obtain ⟨hok, herr⟩ := outcomes_run_statement db read ω w
  unfold OperationAgrees
  cases houtcome : ((db.statement q read).run (perform db.ext) ω w).outcome with
  | done result =>
      rw [houtcome] at hend
      cases result with
      | ok b =>
          obtain ⟨choice, hb, hstate⟩ := hend
          exact ⟨choice, hb, hok b houtcome, congrArg World.table hstate⟩
      | error e =>
          obtain ⟨failed, last, hcalls, rfl⟩ := herr e houtcome
          exact ⟨last, ⟨⟨failed, hcalls⟩, congrArg World.table hend⟩, isBusy_toRepositoryError last⟩
  | panicked m =>
      rw [houtcome] at hend
      exact hend

end Statement

/-! ## Programs that make no attempt -/

section Passive

variable {α β : Type} {ext : External}

/-- From every world the program runs to its end, makes no attempt of a statement and leaves
the table alone. -/
def Passive (ext : External) (p : AppAction α) : Prop :=
  ∀ ω w, ∃ a, (p.run (perform ext) ω w).outcome = .done a ∧
    outcomes (p.run (perform ext) ω w).calls = [] ∧
    (p.run (perform ext) ω w).state.table = w.table

theorem passive_pure (a : α) : Passive ext (.pure a : AppAction α) := fun _ _ => ⟨a, rfl, rfl, rfl⟩

/-- A call that is no statement, and a program that makes no attempt after it. -/
theorem passive_call {c : Call Query} (hc : ∀ q, c ≠ .sql q)
    {next : Call.Answer Query.Answer c → AppAction α} (hnext : ∀ r, Passive ext (next r)) :
    Passive ext (.call c next) := by
  intro ω w
  obtain ⟨a, houtcome, hquiet, htable⟩ := hnext (perform ext c (ω 0) w).1 (fun n => ω (n + 1))
    (perform ext c (ω 0) w).2
  refine ⟨a, houtcome, ?_, htable.trans (perform_table_of_not_sql hc)⟩
  have hnone : attemptOutcome ⟨c, (perform ext c (ω 0) w).1⟩ = none := by
    cases c with
    | sql q => exact absurd rfl (hc q)
    | _ => rfl
  rw [CallProgram.run_call]
  exact (List.filterMap_cons_none hnone).trans hquiet

/-- Two programs that make no attempt, one after the other. -/
theorem Passive.bind {p : AppAction α} {f : α → AppAction β} (hp : Passive ext p)
    (hf : ∀ a, Passive ext (f a)) : Passive ext (p.bind f) := by
  intro ω w
  obtain ⟨a, houtcome, hquiet, htable⟩ := hp ω w
  obtain ⟨b, houtcome', hquiet', htable'⟩ := hf a
    (fun n => ω (n + (p.run (perform ext) ω w).calls.length)) (p.run (perform ext) ω w).state
  refine ⟨b, ?_, ?_, ?_⟩
  · rw [CallProgram.run_bind, houtcome]
    exact houtcome'
  · rw [CallProgram.run_bind, houtcome]
    dsimp only
    rw [outcomes_append, hquiet, hquiet', List.append_nil]
  · rw [CallProgram.run_bind, houtcome]
    exact htable'.trans htable

/-- The execution came to its end, and its last attempt committed the statement or every
attempt failed. -/
def EndsWith (q : Query) (w : World) (ex : Executed α) : Prop :=
  (∃ a, ex.outcome = .done a) ∧
    ((∃ choice, CommittedOnce q choice w ex) ∨ ∃ e, FailedWith e w ex)

/-- A call that is no statement comes first. -/
theorem EndsWith.call {q : Query} {c : Call Query} (hc : ∀ q, c ≠ .sql q)
    {next : Call.Answer Query.Answer c → AppAction α} {ω : ℕ → Input} {w : World}
    (h : EndsWith q (perform ext c (ω 0) w).2
      ((next (perform ext c (ω 0) w).1).run (perform ext) (fun n => ω (n + 1))
        (perform ext c (ω 0) w).2)) :
    EndsWith q w ((CallProgram.call c next).run (perform ext) ω w) := by
  have hnone : attemptOutcome ⟨c, (perform ext c (ω 0) w).1⟩ = none := by
    cases c with
    | sql q => exact absurd rfl (hc q)
    | _ => rfl
  unfold EndsWith CommittedOnce FailedWith outcomes at h ⊢
  rw [CallProgram.run_call]
  rw [perform_table_of_not_sql hc] at h
  rwa [List.filterMap_cons_none hnone]

/-- **A statement followed by a program that makes no attempt** ends with that statement. -/
theorem run_statement_passive {db : Sqlite} (hretry : db.retry = LockRetryPolicy.default)
    {q : Query} {read : q.Answer → β} {f : Except WebhookRepositoryError β → AppAction α}
    (hf : ∀ result, Passive db.ext (f result)) (ω : ℕ → Input) (w : World) :
    EndsWith q w (((db.statement q read).bind f).run (perform db.ext) ω w) := by
  have hagrees := statement_agrees hretry read ω w
  rw [CallProgram.run_bind]
  unfold OperationAgrees at hagrees
  cases houtcome : ((db.statement q read).run (perform db.ext) ω w).outcome with
  | panicked m =>
      rw [houtcome] at hagrees
      exact hagrees.elim
  | done result =>
      rw [houtcome] at hagrees
      obtain ⟨a, ha, hquiet, hsame⟩ := hf result
        (fun n => ω (n + ((db.statement q read).run (perform db.ext) ω w).calls.length))
        ((db.statement q read).run (perform db.ext) ω w).state
      refine ⟨⟨a, ha⟩, ?_⟩
      unfold CommittedOnce FailedWith
      dsimp only
      rw [outcomes_append, hquiet, List.append_nil, hsame]
      cases result with
      | ok b =>
          obtain ⟨choice, -, hcommitted⟩ := hagrees
          exact Or.inl ⟨choice, hcommitted⟩
      | error e =>
          obtain ⟨last, hfailed, -⟩ := hagrees
          exact Or.inr ⟨last, hfailed⟩

end Passive

/-! ## Runs in which nothing fails -/

section Undisturbed

variable {α β : Type} {i : Input} {w : World}

/-- A statement whose first attempt does not fail commits at that attempt. -/
theorem run_statement_of_fault_eq_none {ω : ℕ → Input} (hω : (ω 1).fault = none) (w : World)
    (db : Sqlite) (q : Query) (read : q.Answer → β) :
    (db.statement q read).run (perform db.ext) ω w =
      ⟨.done (.ok (read (q.execute (ω 1).choice w.table).1)),
        { w with table := (q.execute (ω 1).choice w.table).2 },
        [⟨.instantNow, (ω 0).instant⟩, ⟨.sql q, .ok (q.execute (ω 1).choice w.table).1⟩]⟩ := by
  have hcommit : perform db.ext (.sql q) (ω 1) w =
      (.ok (q.execute (ω 1).choice w.table).1,
        { w with table := (q.execute (ω 1).choice w.table).2 }) := by
    simp only [perform, hω]
  unfold Sqlite.statement Sqlite.withLockRetry retryOnLocked
  rw [CallProgram.bind_call, CallProgram.bind_call, CallProgram.run_call]
  rw [CallProgram.bind_pure_left, retryFrom.eq_def]
  simp only [CallProgram.bind_call, CallProgram.bind_pure_left, CallProgram.run_call]
  have hinstant : perform db.ext .instantNow (ω 0) w = ((ω 0).instant, w) := rfl
  rw [hinstant]
  dsimp only
  rw [hcommit]
  rfl

/-- When nothing fails, a statement commits at its first attempt. -/
theorem run_statement_undisturbed (hi : i.fault = none) (w : World) (db : Sqlite) (q : Query)
    (read : q.Answer → β) :
    (db.statement q read).run (perform db.ext) (fun _ => i) w =
      ⟨.done (.ok (read (q.execute i.choice w.table).1)),
        { w with table := (q.execute i.choice w.table).2 },
        [⟨.instantNow, i.instant⟩, ⟨.sql q, .ok (q.execute i.choice w.table).1⟩]⟩ :=
  run_statement_of_fault_eq_none hi w db q read

/-- When nothing fails, a statement followed by a program that makes no attempt returns and
leaves the table of the statement. -/
theorem run_statement_passive_undisturbed (hi : i.fault = none) {db : Sqlite} {q : Query}
    {read : q.Answer → β} {f : Except WebhookRepositoryError β → AppAction α}
    (hf : ∀ result, Passive db.ext (f result)) :
    (∃ a, (((db.statement q read).bind f).run (perform db.ext) (fun _ => i) w).outcome = .done a) ∧
      (((db.statement q read).bind f).run (perform db.ext) (fun _ => i) w).state.table =
        (q.execute i.choice w.table).2 := by
  rw [CallProgram.run_bind, run_statement_undisturbed hi]
  obtain ⟨a, houtcome, -, htable⟩ := hf (.ok (read (q.execute i.choice w.table).1)) (fun _ => i)
    { w with table := (q.execute i.choice w.table).2 }
  exact ⟨⟨a, houtcome⟩, htable⟩

end Undisturbed
