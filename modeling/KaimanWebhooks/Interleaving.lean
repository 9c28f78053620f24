/-
# Interleavings of sequential programs over one shared state

A machine runs any number of tasks.  Every task executes a `CallProgram`; one
event of a run either starts a new task or lets one unfinished task make its next
call.  Between two calls of a task any number of calls of other tasks may happen,
so a run is an arbitrary interleaving, and a task that is never advanced again is
a task that was cancelled.

Next to the shared state a system keeps what its runs are specified with: the
calls each task has made (`TaskState.past`) and the history of all calls, each with the
shared state before and after it.
-/
import KaimanWebhooks.CallProgram
import Mathlib.Data.List.Count

/-- A started task: its job, the calls it has made (newest first) and the program
that is left. -/
structure TaskState (C : Type) (R : C → Type) (α J : Type) where
  job : J
  past : List (CallProgram.Done C R)
  rest : CallProgram C R α

/-- The task has returned. -/
def TaskState.hasReturned {C : Type} {R : C → Type} {α J : Type} (t : TaskState C R α J) : Bool :=
  match t.rest with
  | .pure _ => true
  | _ => false

theorem TaskState.hasReturned_iff {C : Type} {R : C → Type} {α J : Type}
    {t : TaskState C R α J} : t.hasReturned = true ↔ ∃ a, t.rest = .pure a := by
  unfold TaskState.hasReturned
  cases t.rest with
  | pure a => exact iff_of_true rfl ⟨a, rfl⟩
  | call c next => exact iff_of_false Bool.false_ne_true nofun
  | panic m => exact iff_of_false Bool.false_ne_true nofun

/-- A task with a call left has not returned. -/
theorem TaskState.not_hasReturned {C : Type} {R : C → Type} {α J : Type} {t : TaskState C R α J}
    {c : C} {k : R c → CallProgram C R α} (h : t.rest = .call c k) : ¬t.hasReturned = true := by
  rw [hasReturned_iff, h]
  nofun

/-- One call of the history: who made it, for which job, what it was answered, and
the shared state around it. -/
structure Entry (C : Type) (R : C → Type) (J S : Type) where
  task : ℕ
  job : J
  call : C
  answer : R call
  before : S
  after : S

/-- The call of an entry with its answer. -/
def Entry.done {C : Type} {R : C → Type} {J S : Type} (e : Entry C R J S) : CallProgram.Done C R :=
  ⟨e.call, e.answer⟩

/-- The state of all tasks together; the history is newest first. -/
structure TaskSystem (C : Type) (R : C → Type) (α J S : Type) where
  shared : S
  tasks : List (TaskState C R α J)
  history : List (Entry C R J S)

/-- What drives a system: a new task, or the next call of task `n` on the input `i`. -/
inductive TaskEvent (J I : Type) : Type where
  | spawn (job : J)
  | advance (n : ℕ) (i : I)

/-- A machine: how calls act on the shared state, the program of every job, and when
a job may be started. -/
structure TaskMachine (C : Type) (R : C → Type) (α J I S : Type) where
  perform : (c : C) → I → S → R c × S
  start : J → CallProgram C R α
  mayStart : TaskSystem C R α J S → J → Bool

namespace TaskMachine

variable {C : Type} {R : C → Type} {α J I S : Type} (M : TaskMachine C R α J I S)

/-! ## Steps -/

/-- The system after a new task was started. -/
def spawned (s : TaskSystem C R α J S) (j : J) : TaskSystem C R α J S :=
  { s with tasks := s.tasks ++ [⟨j, [], M.start j⟩] }

/-- The system after task `n`, found as `t` and about to make the call `c`, made it. -/
def advanced (s : TaskSystem C R α J S) (n : ℕ) (t : TaskState C R α J) (c : C)
    (next : R c → CallProgram C R α) (i : I) : TaskSystem C R α J S :=
  let answer := M.perform c i s.shared
  { shared := answer.2
    tasks := s.tasks.set n ⟨t.job, ⟨c, answer.1⟩ :: t.past, next answer.1⟩
    history := ⟨n, t.job, c, answer.1, s.shared, answer.2⟩ :: s.history }

/-- The entry this call leaves in the history. -/
def entry (s : TaskSystem C R α J S) (n : ℕ) (t : TaskState C R α J) (c : C) (i : I) :
    Entry C R J S :=
  ⟨n, t.job, c, (M.perform c i s.shared).1, s.shared, (M.perform c i s.shared).2⟩

/-- One event; `none` when it is not possible. -/
def next (s : TaskSystem C R α J S) : TaskEvent J I → Option (TaskSystem C R α J S)
  | .spawn j => if M.mayStart s j then some (M.spawned s j) else none
  | .advance n i =>
      match s.tasks[n]? with
      | none => none
      | some t =>
          match t.rest with
          | .call c next => some (M.advanced s n t c next i)
          | .pure _ => none
          | .panic _ => none

/-- Everything one event can do. -/
theorem next_cases {s s' : TaskSystem C R α J S} {e : TaskEvent J I}
    (h : M.next s e = some s') :
    (∃ j, e = .spawn j ∧ M.mayStart s j = true ∧ s' = M.spawned s j) ∨
    (∃ n i t c k, e = .advance n i ∧ s.tasks[n]? = some t ∧ t.rest = .call c k ∧
      s' = M.advanced s n t c k i) := by
  cases e with
  | spawn j =>
      simp only [next] at h
      split at h
      · rename_i hj
        exact Or.inl ⟨j, rfl, hj, (Option.some.inj h).symm⟩
      · cases h
  | advance n i =>
      simp only [next] at h
      cases ht : s.tasks[n]? with
      | none => simp [ht] at h
      | some t =>
          rw [ht] at h
          cases hr : t.rest with
          | pure a => simp [hr] at h
          | panic m => simp [hr] at h
          | call c k =>
              simp only [hr] at h
              exact Or.inr ⟨n, i, t, c, k, rfl, ht, hr, (Option.some.inj h).symm⟩

section Tasks

variable {M}

/-- A task after another one was started is an old task or the new one. -/
theorem getElem?_spawned {s : TaskSystem C R α J S} {j : J} {m : ℕ} {u : TaskState C R α J}
    (hu : (M.spawned s j).tasks[m]? = some u) :
    s.tasks[m]? = some u ∨ (m = s.tasks.length ∧ u = ⟨j, [], M.start j⟩) := by
  rw [spawned, List.getElem?_append] at hu
  split at hu
  · exact Or.inl hu
  · obtain ⟨hm, hu⟩ := List.getElem?_eq_some_iff.mp hu
    rw [List.length_singleton] at hm
    refine Or.inr ⟨by omega, ?_⟩
    rw [← hu, List.getElem_singleton]

/-- A task after a call is the one that made it or an old task. -/
theorem getElem?_advanced {s : TaskSystem C R α J S} {n : ℕ} {t : TaskState C R α J} {c : C}
    {k : R c → CallProgram C R α} {i : I} {m : ℕ} {u : TaskState C R α J}
    (hu : (M.advanced s n t c k i).tasks[m]? = some u) :
    (m = n ∧ u = ⟨t.job, ⟨c, (M.perform c i s.shared).1⟩ :: t.past,
      k (M.perform c i s.shared).1⟩) ∨ (m ≠ n ∧ s.tasks[m]? = some u) := by
  rw [advanced, List.getElem?_set] at hu
  split at hu
  · rename_i hnm
    split at hu
    · exact Or.inl ⟨hnm.symm, (Option.some.inj hu).symm⟩
    · cases hu
  · rename_i hnm
    exact Or.inr ⟨Ne.symm hnm, hu⟩

end Tasks

/-- The events of a list, one after the other. -/
def runEvents (s : TaskSystem C R α J S) : List (TaskEvent J I) → Option (TaskSystem C R α J S)
  | [] => some s
  | e :: es => (M.next s e).bind fun s' => runEvents s' es

/-! ## Runs -/

/-- `Reaches ok s₀ s`: a run whose every event satisfies `ok` in the state it starts
from leads from `s₀` to `s`. -/
inductive Reaches (ok : TaskSystem C R α J S → TaskEvent J I → Prop)
    (s₀ : TaskSystem C R α J S) : TaskSystem C R α J S → Prop where
  | refl : Reaches ok s₀ s₀
  | step {s s' : TaskSystem C R α J S} {e : TaskEvent J I} :
      Reaches ok s₀ s → ok s e → M.next s e = some s' → Reaches ok s₀ s'

variable {M} {ok : TaskSystem C R α J S → TaskEvent J I → Prop}
  {s₀ s s' : TaskSystem C R α J S}

/-- **The invariant rule.**  What holds at the start, survives the start of a task and
survives every call of a task, made in a state of the run, holds along every run. -/
theorem Reaches.invariant_along (Inv : TaskSystem C R α J S → Prop) (h : M.Reaches ok s₀ s)
    (h₀ : Inv s₀)
    (hspawn : ∀ s j, M.Reaches ok s₀ s → Inv s → ok s (.spawn j) → M.mayStart s j = true →
      Inv (M.spawned s j))
    (hadvance : ∀ s n i t c k, M.Reaches ok s₀ s → Inv s → ok s (.advance n i) →
      s.tasks[n]? = some t → t.rest = .call c k → Inv (M.advanced s n t c k i)) :
    Inv s := by
  induction h with
  | refl => exact h₀
  | step hreach hok hnext ih =>
      rcases M.next_cases hnext with ⟨j, rfl, hj, rfl⟩ | ⟨n, i, t, c, k, rfl, ht, hr, rfl⟩
      · exact hspawn _ j hreach ih hok hj
      · exact hadvance _ n i t c k hreach ih hok ht hr

/-- The invariant rule for what every call preserves in whatever state. -/
theorem Reaches.invariant (Inv : TaskSystem C R α J S → Prop) (h : M.Reaches ok s₀ s)
    (h₀ : Inv s₀)
    (hspawn : ∀ s j, Inv s → ok s (.spawn j) → M.mayStart s j = true → Inv (M.spawned s j))
    (hadvance : ∀ s n i t c k, Inv s → ok s (.advance n i) → s.tasks[n]? = some t →
      t.rest = .call c k → Inv (M.advanced s n t c k i)) :
    Inv s :=
  h.invariant_along Inv h₀ (fun s j _ => hspawn s j) fun s n i t c k _ => hadvance s n i t c k

/-- The invariant rule for the shared state, which only calls change. -/
theorem Reaches.invariant_shared (Inv : S → Prop) (h : M.Reaches ok s₀ s) (h₀ : Inv s₀.shared)
    (hperform : ∀ s n i t c k, Inv s.shared → ok s (.advance n i) → s.tasks[n]? = some t →
      t.rest = .call c k → Inv (M.perform c i s.shared).2) : Inv s.shared :=
  h.invariant (fun s => Inv s.shared) h₀ (fun _ _ hs _ _ => hs) hperform

/-- What held right after an entry of the history, and what every call keeps, holds still. -/
theorem Reaches.holds_of_mem_history (Inv : S → Prop) (h : M.Reaches ok s₀ s)
    (h₀ : s₀.history = [])
    (hperform : ∀ s n i t c k, Inv s.shared → ok s (.advance n i) → s.tasks[n]? = some t →
      t.rest = .call c k → Inv (M.perform c i s.shared).2)
    {e : Entry C R J S} (he : e ∈ s.history) (hafter : Inv e.after) : Inv s.shared := by
  refine h.invariant (fun s => ∀ e ∈ s.history, Inv e.after → Inv s.shared) ?_
    (fun _ _ hs _ _ => hs) ?_ e he hafter
  · simp [h₀]
  · intro s n i t c k hs hok ht hr e he hafter
    rcases List.mem_cons.mp he with rfl | he
    · exact hafter
    · exact hperform s n i t c k (hs e he hafter) hok ht hr

/-- **What holds between every new entry and those before it** holds between any two entries of
the history. -/
theorem Reaches.pairwise_history {Rel : Entry C R J S → Entry C R J S → Prop}
    (h : M.Reaches ok s₀ s) (h₀ : s₀.history = [])
    (hnew : ∀ s n i t c k, M.Reaches ok s₀ s → ok s (.advance n i) → s.tasks[n]? = some t →
      t.rest = .call c k → ∀ e ∈ s.history, Rel (M.entry s n t c i) e) :
    s.history.Pairwise Rel := by
  refine h.invariant_along (fun s => s.history.Pairwise Rel) ?_ (fun _ _ _ hs _ _ => hs) ?_
  · rw [h₀]
    exact List.Pairwise.nil
  · intro s n i t c k hreach hs hok ht hr
    exact List.Pairwise.cons (hnew s n i t c k hreach hok ht hr) hs

/-- A run stays a run when the condition on its events is weakened. -/
theorem Reaches.mono {ok' : TaskSystem C R α J S → TaskEvent J I → Prop}
    (h : M.Reaches ok s₀ s) (hok : ∀ s e, ok s e → ok' s e) : M.Reaches ok' s₀ s := by
  induction h with
  | refl => exact .refl
  | step _ hok₁ hnext ih => exact .step ih (hok _ _ hok₁) hnext

/-- A run stays a run under a condition that its events are seen to satisfy where they happen. -/
theorem Reaches.strengthen {ok' : TaskSystem C R α J S → TaskEvent J I → Prop}
    (h : M.Reaches ok s₀ s) (hok : ∀ s e, M.Reaches ok s₀ s → ok s e → ok' s e) :
    M.Reaches ok' s₀ s := by
  induction h with
  | refl => exact .refl
  | step hreach hok₁ hnext ih => exact .step ih (hok _ _ hreach hok₁) hnext

theorem Reaches.trans {s₁ : TaskSystem C R α J S} (h₁ : M.Reaches ok s₀ s₁)
    (h₂ : M.Reaches ok s₁ s) : M.Reaches ok s₀ s := by
  induction h₂ with
  | refl => exact h₁
  | step _ hok hnext ih => exact .step ih hok hnext

/-- A list of events that succeeds is a run. -/
theorem reaches_of_runEvents {es : List (TaskEvent J I)} (h : M.runEvents s₀ es = some s)
    (hok : ∀ s e, e ∈ es → ok s e) : M.Reaches ok s₀ s := by
  induction es generalizing s₀ with
  | nil =>
      cases h
      exact .refl
  | cons e es ih =>
      simp only [runEvents, Option.bind_eq_some_iff] at h
      obtain ⟨s₁, hnext, hrest⟩ := h
      have hone : M.Reaches ok s₀ s₁ := .step .refl (hok _ _ List.mem_cons_self) hnext
      exact hone.trans (ih hrest fun s e he => hok s e (List.mem_cons_of_mem _ he))

variable (M) in
/-- The events of a list, one after the other, as long as each of them is permitted. -/
def runPermitted (ok : TaskSystem C R α J S → TaskEvent J I → Prop)
    [∀ s e, Decidable (ok s e)] (s : TaskSystem C R α J S) :
    List (TaskEvent J I) → Option (TaskSystem C R α J S)
  | [] => some s
  | e :: es => if ok s e then (M.next s e).bind fun s' => runPermitted ok s' es else none

/-- A list of permitted events that succeeds is a run. -/
theorem reaches_of_runPermitted [∀ s e, Decidable (ok s e)] {es : List (TaskEvent J I)}
    (h : M.runPermitted ok s₀ es = some s) : M.Reaches ok s₀ s := by
  induction es generalizing s₀ with
  | nil =>
      cases h
      exact .refl
  | cons e es ih =>
      unfold runPermitted at h
      split at h
      · rename_i hok
        obtain ⟨s₁, hnext, hrest⟩ := Option.bind_eq_some_iff.mp h
        have hone : M.Reaches ok s₀ s₁ := .step .refl hok hnext
        exact hone.trans (ih hrest)
      · cases h

/-! ## Protocols of the tasks -/

variable (M) in
/-- The answers the machine can give to a call. -/
def Answers (c : C) (r : R c) : Prop := ∃ i s, (M.perform c i s).1 = r

variable (M) in
/-- Every task keeps to the protocol `P` of its job and will return what `Q` allows. -/
def TasksObey (P : J → List (CallProgram.Done C R) → C → Prop)
    (Q : J → List (CallProgram.Done C R) → α → Prop) (s : TaskSystem C R α J S) : Prop :=
  ∀ t ∈ s.tasks, t.rest.Obeys M.Answers (P t.job) (Q t.job) t.past

section Protocols

variable {P : J → List (CallProgram.Done C R) → C → Prop}
  {Q : J → List (CallProgram.Done C R) → α → Prop}

theorem TasksObey.spawned (h : M.TasksObey P Q s) {j : J}
    (hj : (M.start j).Obeys M.Answers (P j) (Q j) []) : M.TasksObey P Q (M.spawned s j) := by
  intro t ht
  rcases List.mem_append.mp ht with ht | ht
  · exact h t ht
  · rw [List.mem_singleton.mp ht]
    exact hj

theorem TasksObey.advanced (h : M.TasksObey P Q s) {n : ℕ} {i : I} {t : TaskState C R α J}
    {c : C} {k : R c → CallProgram C R α} (ht : s.tasks[n]? = some t) (hr : t.rest = .call c k) :
    M.TasksObey P Q (M.advanced s n t c k i) := by
  intro u hu
  rcases List.mem_or_eq_of_mem_set hu with hu | rfl
  · exact h u hu
  · have hobeys := h t (List.mem_of_getElem? ht)
    rw [hr] at hobeys
    exact hobeys.2 _ ⟨i, s.shared, rfl⟩

/-- Tasks that start out obeying their protocol obey it along every run. -/
theorem Reaches.tasksObey (h : M.Reaches ok s₀ s) (h₀ : M.TasksObey P Q s₀)
    (hstart : ∀ j, (M.start j).Obeys M.Answers (P j) (Q j) []) : M.TasksObey P Q s :=
  h.invariant (M.TasksObey P Q) h₀ (fun _ j hs _ _ => hs.spawned (hstart j))
    (fun _ _ _ _ _ _ hs _ ht hr => hs.advanced ht hr)

/-- The call a task makes next is permitted after the calls it has made. -/
theorem Reaches.next_permitted (h : M.Reaches ok s₀ s) (h₀ : s₀.tasks = [])
    (hstart : ∀ j, (M.start j).Obeys M.Answers (P j) (Q j) []) {t : TaskState C R α J}
    (ht : t ∈ s.tasks) {c : C} {k : R c → CallProgram C R α} (hr : t.rest = .call c k) :
    P t.job t.past c := by
  have hobey := h.tasksObey (by simp [TasksObey, h₀]) hstart t ht
  rw [hr] at hobey
  exact hobey.1

/-- What a task has returned is allowed after the calls it has made. -/
theorem Reaches.returned_allowed (h : M.Reaches ok s₀ s) (h₀ : s₀.tasks = [])
    (hstart : ∀ j, (M.start j).Obeys M.Answers (P j) (Q j) []) {t : TaskState C R α J}
    (ht : t ∈ s.tasks) {a : α} (hr : t.rest = .pure a) : Q t.job t.past a := by
  have hobey := h.tasksObey (by simp [TasksObey, h₀]) hstart t ht
  rw [hr] at hobey
  exact hobey

/-- **The invariant rule with protocols.**  Like `Reaches.invariant`, where a call only
has to preserve the invariant when the protocol of its job permits it. -/
theorem Reaches.invariant_of_protocol (Inv : TaskSystem C R α J S → Prop)
    (h : M.Reaches ok s₀ s) (h₀ : Inv s₀) (hobey₀ : M.TasksObey P Q s₀)
    (hstart : ∀ j, (M.start j).Obeys M.Answers (P j) (Q j) [])
    (hspawn : ∀ s j, Inv s → ok s (.spawn j) → M.mayStart s j = true → Inv (M.spawned s j))
    (hadvance : ∀ s n i t c k, Inv s → ok s (.advance n i) → s.tasks[n]? = some t →
      t.rest = .call c k → P t.job t.past c → Inv (M.advanced s n t c k i)) :
    Inv s := by
  have hboth : Inv s ∧ M.TasksObey P Q s := by
    refine h.invariant (fun s => Inv s ∧ M.TasksObey P Q s) ⟨h₀, hobey₀⟩ ?_ ?_
    · intro s j hs hok hj
      exact ⟨hspawn s j hs.1 hok hj, hs.2.spawned (hstart j)⟩
    · intro s n i t c k hs hok ht hr
      have hobeys := hs.2 t (List.mem_of_getElem? ht)
      rw [hr] at hobeys
      exact ⟨hadvance s n i t c k hs.1 hok ht hr hobeys.1, hs.2.advanced ht hr⟩
  exact hboth.1

/-- **Every call in a task's past was permitted when it was made**, after the calls before it. -/
theorem Reaches.permitted (h : M.Reaches ok s₀ s) (h₀ : s₀.tasks = [])
    (hstart : ∀ j, (M.start j).Obeys M.Answers (P j) (Q j) []) :
    ∀ t ∈ s.tasks, ∀ d older, (d :: older) <:+ t.past → P t.job older d.1 := by
  refine h.invariant_of_protocol
    (fun s => ∀ t ∈ s.tasks, ∀ d older, (d :: older) <:+ t.past → P t.job older d.1)
    ?_ (by simp [TasksObey, h₀]) hstart ?_ ?_
  · simp [h₀]
  · intro s j hs _ _ t ht d older hsuffix
    rcases List.mem_append.mp ht with ht | ht
    · exact hs t ht d older hsuffix
    · rw [List.mem_singleton.mp ht] at hsuffix
      cases List.eq_nil_of_suffix_nil hsuffix
  · intro s n i t c k hs _ ht hr hc u hu d older hsuffix
    rcases List.mem_or_eq_of_mem_set hu with hu | rfl
    · exact hs u hu d older hsuffix
    · rcases List.suffix_cons_iff.mp hsuffix with heq | hsuffix
      · cases heq
        exact hc
      · exact hs t (List.mem_of_getElem? ht) d older hsuffix

end Protocols

/-! ## Bounded tasks -/

/-- **A task that returns within `n` calls on its own does so in every interleaving.** -/
theorem Reaches.within {n : ℕ} (h : M.Reaches ok s₀ s) (h₀ : s₀.tasks = [])
    (hstart : ∀ j, (M.start j).Within n) :
    ∀ t ∈ s.tasks, ∃ m, t.past.length + m = n ∧ t.rest.Within m := by
  refine h.invariant (fun s => ∀ t ∈ s.tasks, ∃ m, t.past.length + m = n ∧ t.rest.Within m)
    ?_ ?_ ?_
  · simp [h₀]
  · intro s j hs _ _ t ht
    rcases List.mem_append.mp ht with ht | ht
    · exact hs t ht
    · rw [List.mem_singleton.mp ht]
      exact ⟨n, Nat.zero_add n, hstart j⟩
  · intro s k i t c next hs _ ht hr u hu
    rcases List.mem_or_eq_of_mem_set hu with hu | rfl
    · exact hs u hu
    · obtain ⟨m, hm, hwithin⟩ := hs t (List.mem_of_getElem? ht)
      rw [hr] at hwithin
      obtain ⟨m, rfl, hnext⟩ := hwithin.call_pos
      refine ⟨m, ?_, hnext _⟩
      dsimp only [List.length_cons]
      omega

/-! ## Tasks that take turns -/

/-- Of two tasks whose jobs are rivals one has returned. -/
def TakeTurns (Rival : J → J → Prop) (s : TaskSystem C R α J S) : Prop :=
  ∀ (m n : ℕ) (t u : TaskState C R α J), s.tasks[m]? = some t → s.tasks[n]? = some u → m ≠ n →
    Rival t.job u.job → t.hasReturned = true ∨ u.hasReturned = true

/-- **Rivals take turns** when a task may start only after its rivals have returned. -/
theorem Reaches.takeTurns {Rival : J → J → Prop} (h : M.Reaches ok s₀ s) (h₀ : s₀.tasks = [])
    (hsymm : ∀ i j, Rival i j → Rival j i)
    (hturn : ∀ s j, M.mayStart s j = true → ∀ t ∈ s.tasks, Rival t.job j →
      t.hasReturned = true) : TakeTurns Rival s := by
  refine h.invariant (TakeTurns Rival) ?_ ?_ ?_
  · intro m n t u ht
    simp [h₀] at ht
  · intro s j hs _ hj m n t u ht hu hne hrival
    rcases getElem?_spawned ht with ht | ⟨rfl, rfl⟩
    · rcases getElem?_spawned hu with hu | ⟨-, rfl⟩
      · exact hs m n t u ht hu hne hrival
      · exact Or.inl (hturn s j hj t (List.mem_of_getElem? ht) hrival)
    · rcases getElem?_spawned hu with hu | ⟨rfl, -⟩
      · exact Or.inr (hturn s j hj u (List.mem_of_getElem? hu) (hsymm _ _ hrival))
      · exact absurd rfl hne
  · intro s n₀ i t₀ c k hs _ ht₀ hr m n t u ht hu hne hrival
    have hopen := TaskState.not_hasReturned hr
    rcases getElem?_advanced ht with ⟨hm, rfl⟩ | ⟨-, hold⟩
    · rcases getElem?_advanced hu with ⟨hn, -⟩ | ⟨-, hold⟩
      · exact absurd (hm.trans hn.symm) hne
      · exact Or.inr ((hs m n t₀ u (hm ▸ ht₀) hold hne hrival).resolve_left hopen)
    · rcases getElem?_advanced hu with ⟨hn, rfl⟩ | ⟨-, hold'⟩
      · exact Or.inl ((hs m n t t₀ hold (hn ▸ ht₀) hne hrival).resolve_right hopen)
      · exact hs m n t u hold hold' hne hrival

/-! ## History and the pasts of the tasks -/

/-- Every call in a task's past stands in the history, under the task's number and job. -/
def PastsRecorded (s : TaskSystem C R α J S) : Prop :=
  ∀ n t d, s.tasks[n]? = some t → d ∈ t.past →
    ∃ e ∈ s.history, e.task = n ∧ e.job = t.job ∧ e.done = d

/-- Along a run from a system without tasks, every past is recorded. -/
theorem Reaches.pastsRecorded (h : M.Reaches ok s₀ s) (h₀ : s₀.tasks = []) :
    PastsRecorded s := by
  refine h.invariant PastsRecorded ?_ ?_ ?_
  · intro n t d ht
    simp [h₀] at ht
  · intro s j hs _ _ n t d ht hd
    rcases getElem?_spawned ht with ht | ⟨-, rfl⟩
    · exact hs n t d ht hd
    · cases hd
  · intro s n i t c k hs _ ht hr m u d hu hd
    rcases getElem?_advanced hu with ⟨rfl, rfl⟩ | ⟨-, hu⟩
    · rcases List.mem_cons.mp hd with rfl | hd
      · exact ⟨_, List.mem_cons_self, rfl, rfl, rfl⟩
      · obtain ⟨e, he, hrest⟩ := hs m t d ht hd
        exact ⟨e, List.mem_cons_of_mem _ he, hrest⟩
    · obtain ⟨e, he, hrest⟩ := hs m u d hu hd
      exact ⟨e, List.mem_cons_of_mem _ he, hrest⟩

/-- Along a run without a history at the start, every entry of the history stands in the past
of its task. -/
theorem Reaches.historyRecorded (h : M.Reaches ok s₀ s) (h₀ : s₀.history = []) :
    ∀ e ∈ s.history, ∃ t, s.tasks[e.task]? = some t ∧ t.job = e.job ∧ e.done ∈ t.past := by
  refine h.invariant (fun s => ∀ e ∈ s.history, ∃ t, s.tasks[e.task]? = some t ∧
    t.job = e.job ∧ e.done ∈ t.past) ?_ ?_ ?_
  · simp [h₀]
  · intro s j hs _ _ e he
    obtain ⟨t, ht, hjob, hdone⟩ := hs e he
    refine ⟨t, ?_, hjob, hdone⟩
    rw [spawned, List.getElem?_append_left (List.getElem?_eq_some_iff.mp ht).1]
    exact ht
  · intro s n i t c k hs _ ht hr e he
    have hn : n < s.tasks.length := (List.getElem?_eq_some_iff.mp ht).1
    rw [advanced, List.getElem?_set]
    rcases List.mem_cons.mp he with rfl | he
    · exact ⟨_, (if_pos rfl).trans (if_pos hn), rfl, List.mem_cons_self⟩
    · obtain ⟨u, hu, hjob, hdone⟩ := hs e he
      by_cases hne : n = e.task
      · obtain rfl : t = u := Option.some.inj (ht.symm.trans (hne ▸ hu))
        exact ⟨_, (if_pos hne).trans (if_pos hn), hjob, List.mem_cons_of_mem _ hdone⟩
      · exact ⟨u, (if_neg hne).trans hu, hjob, hdone⟩

/-- The past of a task only grows. -/
theorem Reaches.past_subset {s₁ : TaskSystem C R α J S} (h₁ : M.Reaches ok s₀ s₁)
    (h : M.Reaches ok s₀ s) (htasks : s₀.tasks = []) (hhistory : s₀.history = [])
    (hsubset : ∀ e ∈ s₁.history, e ∈ s.history) {n : ℕ} {t₁ t : TaskState C R α J}
    (ht₁ : s₁.tasks[n]? = some t₁) (ht : s.tasks[n]? = some t) : ∀ d ∈ t₁.past, d ∈ t.past := by
  intro d hd
  obtain ⟨e, he, rfl, -, rfl⟩ := h₁.pastsRecorded htasks n t₁ d ht₁ hd
  obtain ⟨u, hu, -, hdone⟩ := h.historyRecorded hhistory e (hsubset e he)
  obtain rfl : u = t := Option.some.inj (hu.symm.trans ht)
  exact hdone

/-- **A task goes on**: it keeps its number and its job, its past only grows, and once it has
returned it does nothing more. -/
theorem Reaches.exists_task (h : M.Reaches ok s₀ s) {n : ℕ} {t : TaskState C R α J}
    (ht : s₀.tasks[n]? = some t) :
    ∃ u, s.tasks[n]? = some u ∧ u.job = t.job ∧ t.past <:+ u.past ∧
      (t.hasReturned = true → u = t) := by
  refine h.invariant (fun s => ∃ u, s.tasks[n]? = some u ∧ u.job = t.job ∧ t.past <:+ u.past ∧
    (t.hasReturned = true → u = t)) ⟨t, ht, rfl, List.suffix_refl _, fun _ => rfl⟩ ?_ ?_
  · rintro s j ⟨u, hu, hrest⟩ - -
    refine ⟨u, ?_, hrest⟩
    rw [spawned, List.getElem?_append_left (List.getElem?_eq_some_iff.mp hu).1]
    exact hu
  · rintro s m i t₀ c k ⟨u, hu, hjob, hpast, hreturned⟩ - ht₀ hr
    rw [advanced, List.getElem?_set]
    by_cases hmn : m = n
    · obtain rfl : t₀ = u := Option.some.inj (ht₀.symm.trans (hmn ▸ hu))
      have hlt : m < s.tasks.length := (List.getElem?_eq_some_iff.mp ht₀).1
      refine ⟨_, (if_pos hmn).trans (if_pos hlt), hjob, hpast.trans (List.suffix_cons _ _), ?_⟩
      -- a task that has returned makes no call
      intro hdone
      exact absurd (hreturned hdone ▸ hdone) (TaskState.not_hasReturned hr)
    · exact ⟨u, (if_neg hmn).trans hu, hjob, hpast, hreturned⟩

/-- **The past of a task is its part of the history**, in the same order. -/
theorem Reaches.past_eq (h : M.Reaches ok s₀ s) (htasks : s₀.tasks = [])
    (hhistory : s₀.history = []) {n : ℕ} {t : TaskState C R α J} (ht : s.tasks[n]? = some t) :
    t.past = (s.history.filter fun e => e.task = n).map Entry.done := by
  have hboth : (∀ e ∈ s.history, e.task < s.tasks.length) ∧
      ∀ n t, s.tasks[n]? = some t →
        t.past = (s.history.filter fun e => e.task = n).map Entry.done := by
    refine h.invariant (fun s => (∀ e ∈ s.history, e.task < s.tasks.length) ∧
      ∀ n t, s.tasks[n]? = some t →
        t.past = (s.history.filter fun e => e.task = n).map Entry.done) ?_ ?_ ?_
    · simp [htasks, hhistory]
    · rintro s j ⟨hlt, hpast⟩ - -
      refine ⟨fun e he => ?_, fun n t ht => ?_⟩
      · rw [spawned, List.length_append, List.length_singleton]
        exact Nat.lt_succ_of_lt (hlt e he)
      · rcases getElem?_spawned ht with ht | ⟨rfl, rfl⟩
        · exact hpast n t ht
        · -- a new task has made no calls, and no entry has its number
          have hfilter : (s.history.filter fun e => e.task = s.tasks.length) = [] := by
            rw [List.filter_eq_nil_iff]
            intro e he htask
            have hlt' := hlt e he
            rw [decide_eq_true_eq.mp htask] at hlt'
            exact Nat.lt_irrefl _ hlt'
          show [] = (s.history.filter fun e => e.task = s.tasks.length).map Entry.done
          rw [hfilter]
          rfl
    · rintro s n i t c k ⟨hlt, hpast⟩ - ht -
      have hn : n < s.tasks.length := (List.getElem?_eq_some_iff.mp ht).1
      refine ⟨fun e he => ?_, fun m u hu => ?_⟩
      · rw [advanced, List.length_set]
        rcases List.mem_cons.mp he with rfl | he
        · exact hn
        · exact hlt e he
      · rw [advanced, List.filter_cons]
        rcases getElem?_advanced hu with ⟨rfl, rfl⟩ | ⟨hmn, hu⟩
        · rw [if_pos (by simp), List.map_cons, ← hpast m t ht]
          rfl
        · rw [if_neg (by simpa using hmn.symm)]
          exact hpast m u hu
  exact hboth.2 n t ht

/-- A run only adds to the history. -/
theorem Reaches.history_suffix (h : M.Reaches ok s₀ s) : s₀.history <:+ s.history := by
  refine h.invariant (fun s => s₀.history <:+ s.history) (List.suffix_refl _)
    (fun s j hs _ _ => hs) ?_
  intro s n i t c k hs _ _ _
  exact hs.trans (List.suffix_cons _ _)

/-- The state in which an entry of the history was made: the run up to it, the task whose
call it was, and what of the history came later. -/
structure MadeIn (M : TaskMachine C R α J I S)
    (ok : TaskSystem C R α J S → TaskEvent J I → Prop) (s₀ s : TaskSystem C R α J S)
    (e : Entry C R J S) (s₁ : TaskSystem C R α J S) (newer : List (Entry C R J S)) : Prop where
  reaches : M.Reaches ok s₀ s₁
  history : s.history = newer ++ e :: s₁.history
  before : s₁.shared = e.before
  event : ∃ i t k, ok s₁ (.advance e.task i) ∧ s₁.tasks[e.task]? = some t ∧ t.job = e.job ∧
    t.rest = .call e.call k ∧ M.perform e.call i e.before = (e.answer, e.after)

/-- **Every entry that a run adds was made in a state of the run.** -/
theorem Reaches.exists_madeIn_of_later (h : M.Reaches ok s₀ s) {later : List (Entry C R J S)}
    (hlater : s.history = later ++ s₀.history) {e : Entry C R J S} (he : e ∈ later) :
    ∃ s₁ newer, MadeIn M ok s₀ s e s₁ newer := by
  induction h generalizing later with
  | refl =>
      rw [List.self_eq_append_left.mp hlater] at he
      cases he
  | @step s s' event hreach hok hnext ih =>
      rcases M.next_cases hnext with ⟨j, rfl, -, rfl⟩ | ⟨n, i, t, c, k, rfl, ht, hr, rfl⟩
      · exact (ih hlater he).imp fun s₁ => Exists.imp fun newer hmade => { hmade with }
      · obtain ⟨earlier, hearlier⟩ := hreach.history_suffix
        have hsplit : later ++ s₀.history = (M.entry s n t c i :: earlier) ++ s₀.history := by
          rw [List.cons_append, hearlier]
          exact hlater.symm
        obtain rfl := List.append_cancel_right hsplit
        rcases List.mem_cons.mp he with rfl | he
        · exact ⟨s, [], hreach, rfl, rfl, i, t, k, hok, ht, rfl, hr, rfl⟩
        · obtain ⟨s₁, newer, hmade⟩ := ih hearlier.symm he
          refine ⟨s₁, M.entry s n t c i :: newer, { hmade with history := ?_ }⟩
          rw [List.cons_append, ← hmade.history]
          rfl

/-- **Every entry of the history was made in a reachable state.** -/
theorem Reaches.exists_madeIn (h : M.Reaches ok s₀ s) (h₀ : s₀.history = [])
    {e : Entry C R J S} (he : e ∈ s.history) : ∃ s₁ newer, MadeIn M ok s₀ s e s₁ newer :=
  h.exists_madeIn_of_later (by rw [h₀, List.append_nil]) he

/-- **Every split of the history at an entry** goes back to the state it was made in. -/
theorem Reaches.madeIn_of_split (h : M.Reaches ok s₀ s) (h₀ : s₀.history = [])
    {later older : List (Entry C R J S)} {e : Entry C R J S}
    (hsplit : s.history = later ++ e :: older) :
    ∃ s₁, MadeIn M ok s₀ s e s₁ later ∧ s₁.history = older := by
  induction h generalizing later with
  | refl =>
      rw [h₀] at hsplit
      exact absurd hsplit (by simp)
  | @step s s' event hreach hok hnext ih =>
      rcases M.next_cases hnext with ⟨j, rfl, -, rfl⟩ | ⟨n, i, t, c, k, rfl, ht, hr, rfl⟩
      · obtain ⟨s₁, hmade, hold⟩ := ih hsplit
        exact ⟨s₁, { hmade with }, hold⟩
      · cases later with
        | nil =>
            obtain ⟨rfl, hrest⟩ := List.cons.inj hsplit
            exact ⟨s, ⟨hreach, rfl, rfl, i, t, k, hok, ht, rfl, hr, rfl⟩, hrest⟩
        | cons x later =>
            obtain ⟨rfl, hrest⟩ := List.cons.inj hsplit
            obtain ⟨s₁, hmade, hold⟩ := ih hrest
            refine ⟨s₁, { hmade with history := ?_ }, hold⟩
            rw [List.cons_append, ← hmade.history]
            rfl

/-- **Who makes a later call was not done before.**  When the task of an entry that a run adds was
there at its start, it had the job of the entry and had not returned. -/
theorem Reaches.not_hasReturned_of_later (h : M.Reaches ok s₀ s) {later : List (Entry C R J S)}
    (hlater : s.history = later ++ s₀.history) {e : Entry C R J S} (he : e ∈ later)
    {t : TaskState C R α J} (ht : s₀.tasks[e.task]? = some t) :
    t.job = e.job ∧ ¬t.hasReturned = true := by
  obtain ⟨s₁, newer, hmade⟩ := h.exists_madeIn_of_later hlater he
  obtain ⟨i, u, k, -, hu, hjob, hrest, -⟩ := hmade.event
  obtain ⟨u', hu', hjob', -, hreturned⟩ := hmade.reaches.exists_task ht
  obtain rfl : u' = u := Option.some.inj (hu'.symm.trans hu)
  refine ⟨hjob'.symm.trans hjob, fun hdone => ?_⟩
  obtain rfl := hreturned hdone
  exact TaskState.not_hasReturned hrest hdone

/-- Entries of one task that are calls of a kind it makes at most once are at most one. -/
theorem Reaches.countP_le_one (h : M.Reaches ok s₀ s) (htasks : s₀.tasks = [])
    (hhistory : s₀.history = []) {later older : List (Entry C R J S)}
    (hlater : s.history = later ++ older) {n : ℕ} {t : TaskState C R α J}
    (ht : s.tasks[n]? = some t) {kind : CallProgram.Done C R → Bool}
    (honce : t.past.countP kind ≤ 1) {p : Entry C R J S → Bool}
    (hp : ∀ e ∈ later, p e = true → e.task = n ∧ kind e.done = true) : later.countP p ≤ 1 := by
  have hpast := h.past_eq htasks hhistory ht
  calc later.countP p
      ≤ later.countP fun e => decide (e.task = n) && kind e.done :=
        List.countP_mono_left fun e he hpe => by
          obtain ⟨htask, hkind⟩ := hp e he hpe
          rw [htask, hkind, decide_eq_true rfl]
          rfl
    _ ≤ s.history.countP fun e => decide (e.task = n) && kind e.done := by
        rw [hlater, List.countP_append]
        exact Nat.le_add_right _ _
    _ = t.past.countP kind := by
        rw [hpast, List.countP_map, List.countP_filter]
        exact List.countP_congr fun e _ => by simp [Bool.and_comm]
    _ ≤ 1 := honce

/-- What was in the history when an entry was made is in it still. -/
theorem MadeIn.mem_history {e e' : Entry C R J S} {s₁ : TaskSystem C R α J S}
    {newer : List (Entry C R J S)} (hmade : MadeIn M ok s₀ s e s₁ newer) (he' : e' ∈ s₁.history) :
    e' ∈ s.history := by
  rw [hmade.history]
  exact List.mem_append_right _ (List.mem_cons_of_mem _ he')

/-- The calls before an entry of the history, when a protocol of its task permits it. -/
theorem MadeIn.protocol {e : Entry C R J S} {s₁ : TaskSystem C R α J S}
    {newer : List (Entry C R J S)} (hmade : MadeIn M ok s₀ s e s₁ newer) (h₀ : s₀.tasks = [])
    {P : J → List (CallProgram.Done C R) → C → Prop}
    {Q : J → List (CallProgram.Done C R) → α → Prop}
    (hstart : ∀ j, (M.start j).Obeys M.Answers (P j) (Q j) []) :
    ∃ past, P e.job past e.call ∧
      ∀ d ∈ past, ∃ e' ∈ s₁.history, e'.task = e.task ∧ e'.job = e.job ∧ e'.done = d := by
  obtain ⟨i, t, k, -, ht, hjob, hrest, -⟩ := hmade.event
  have hpermitted := hmade.reaches.next_permitted h₀ hstart (List.mem_of_getElem? ht) hrest
  refine ⟨t.past, hjob ▸ hpermitted, fun d hd => ?_⟩
  obtain ⟨e', he', htask, hjob', hdone⟩ := hmade.reaches.pastsRecorded h₀ e.task t d ht hd
  exact ⟨e', he', htask, hjob'.trans hjob, hdone⟩

/-- **Every entry of the history was permitted** after calls its task had made. -/
theorem Reaches.protocol_of_mem (h : M.Reaches ok s₀ s) (h₀ : s₀.tasks = [])
    (hhistory : s₀.history = []) {P : J → List (CallProgram.Done C R) → C → Prop}
    {Q : J → List (CallProgram.Done C R) → α → Prop}
    (hstart : ∀ j, (M.start j).Obeys M.Answers (P j) (Q j) []) {e : Entry C R J S}
    (he : e ∈ s.history) :
    ∃ past, P e.job past e.call ∧
      ∀ d ∈ past, ∃ e' ∈ s.history, e'.task = e.task ∧ e'.job = e.job ∧ e'.done = d := by
  obtain ⟨s₁, newer, hmade⟩ := h.exists_madeIn hhistory he
  obtain ⟨past, hpermitted, hpast⟩ := hmade.protocol h₀ hstart
  refine ⟨past, hpermitted, fun d hd => ?_⟩
  obtain ⟨e', he', hrest⟩ := hpast d hd
  exact ⟨e', hmade.mem_history he', hrest⟩

end TaskMachine
