/-
# Two systems in lockstep

That an observer cannot tell one system from another is a statement about two runs, and is proved
by running both side by side.  Two programs are in lockstep when they make the same calls, up to a
relation on calls, and go on in lockstep whatever both are answered, to related results.  Two
machines whose jobs are in lockstep, and whose related calls do the same, stay alike along every
list of events.
-/
import KaimanWebhooks.Interleaving
import Mathlib.Data.List.Forall2

/-! ## Programs -/

namespace CallProgram

variable {C : Type} {R : C → Type} {α β γ δ : Type}

/-- The programs make calls that are the same in the sense of `Same`, and end in results related
by `Q`. -/
inductive Lockstep (Same : C → C → Prop) (Q : α → β → Prop) :
    CallProgram C R α → CallProgram C R β → Prop where
  | pure {a : α} {b : β} : Q a b → Lockstep Same Q (.pure a) (.pure b)
  | call {c c' : C} {next : R c → CallProgram C R α} {next' : R c' → CallProgram C R β} :
      Same c c' → (∀ answer answer', HEq answer answer' →
        Lockstep Same Q (next answer) (next' answer')) →
      Lockstep Same Q (.call c next) (.call c' next')
  | panic (message : String) : Lockstep Same Q (.panic message) (.panic message)

variable {Same : C → C → Prop} {Q : α → β → Prop}

/-- A program is in lockstep with itself. -/
theorem lockstep_refl (hsame : ∀ c, Same c c) (p : CallProgram C R α) : Lockstep Same Eq p p := by
  induction p with
  | pure a => exact .pure rfl
  | call c next ih =>
      refine .call (hsame c) fun answer answer' hanswer => ?_
      obtain rfl := eq_of_heq hanswer
      exact ih answer
  | panic m => exact .panic m

/-- **Sequential composition.** -/
theorem Lockstep.bind {Q' : γ → δ → Prop} {p : CallProgram C R α} {p' : CallProgram C R β}
    (h : Lockstep Same Q p p') {f : α → CallProgram C R γ} {f' : β → CallProgram C R δ}
    (hf : ∀ a b, Q a b → Lockstep Same Q' (f a) (f' b)) :
    Lockstep Same Q' (p.bind f) (p'.bind f') := by
  induction h with
  | pure hQ => exact hf _ _ hQ
  | call hc _ ih => exact .call hc ih
  | panic m => exact .panic m

/-- After the same program both go on with its result. -/
theorem lockstep_bind_of_eq (hsame : ∀ c, Same c c) {Q' : γ → δ → Prop} (p : CallProgram C R α)
    {f : α → CallProgram C R γ} {f' : α → CallProgram C R δ}
    (hf : ∀ a, Lockstep Same Q' (f a) (f' a)) : Lockstep Same Q' (p.bind f) (p.bind f') := by
  refine (lockstep_refl hsame p).bind fun a b hab => ?_
  obtain rfl := hab
  exact hf a

/-- One of two programs in lockstep returns what the other one does. -/
theorem Lockstep.eq_pure_iff {p p' : CallProgram C R α} (h : Lockstep Same Eq p p') (a : α) :
    p = .pure a ↔ p' = .pure a := by
  cases h with
  | pure hab => rw [hab]
  | call hc hnext => simp
  | panic m => simp

end CallProgram

/-! ## Systems -/

section Alike

variable {C : Type} {R : C → Type} {α J I S : Type} (Same : C → C → Prop)

/-- The tasks do the same job, have made the same calls with the same answers, and are in
lockstep. -/
structure TaskState.Alike (t t' : TaskState C R α J) : Prop where
  job : t.job = t'.job
  past : List.Forall₂ (fun d d' => Same d.1 d'.1 ∧ HEq d.2 d'.2) t.past t'.past
  rest : CallProgram.Lockstep Same Eq t.rest t'.rest

/-- The same call of the same task, with the same answer, between the same states. -/
structure Entry.Alike (e e' : Entry C R J S) : Prop where
  task : e.task = e'.task
  job : e.job = e'.job
  call : Same e.call e'.call
  answer : HEq e.answer e'.answer
  before : e.before = e'.before
  after : e.after = e'.after

/-- The systems differ in nothing but what related calls differ in. -/
structure TaskSystem.Alike (s s' : TaskSystem C R α J S) : Prop where
  shared : s.shared = s'.shared
  tasks : List.Forall₂ (TaskState.Alike Same) s.tasks s'.tasks
  history : List.Forall₂ (Entry.Alike Same) s.history s'.history

end Alike

/-- What stands at one place of two related lists. -/
theorem List.Forall₂.rel_getElem? {α β : Type} {r : α → β → Prop} {l : List α} {l' : List β}
    (h : List.Forall₂ r l l') (n : ℕ) : Option.Rel r l[n]? l'[n]? := by
  induction h generalizing n with
  | nil => exact .none
  | cons hab _ ih =>
      cases n with
      | zero => exact .some hab
      | succ n => exact ih n

/-- Two related lists stay related when one place of both is replaced. -/
theorem List.Forall₂.set {α β : Type} {r : α → β → Prop} {l : List α} {l' : List β}
    (h : List.Forall₂ r l l') {a : α} {b : β} (hab : r a b) (n : ℕ) :
    List.Forall₂ r (l.set n a) (l'.set n b) := by
  induction h generalizing n with
  | nil => exact .nil
  | cons hhead htail ih =>
      cases n with
      | zero => exact .cons hab htail
      | succ n => exact .cons hhead (ih n)

namespace TaskMachine

variable {C : Type} {R : C → Type} {α J I S : Type}

/-- The machines do the same on related calls, start the jobs in `ok` in lockstep, and let the
same jobs start. -/
structure InLockstep (Same : C → C → Prop) (ok : J → Prop) (M M' : TaskMachine C R α J I S) :
    Prop where
  perform : ∀ c c' i s, Same c c' →
    HEq (M.perform c i s).1 (M'.perform c' i s).1 ∧ (M.perform c i s).2 = (M'.perform c' i s).2
  start : ∀ j, ok j → CallProgram.Lockstep Same Eq (M.start j) (M'.start j)
  mayStart : ∀ s s' j, TaskSystem.Alike Same s s' → M.mayStart s j = M'.mayStart s' j

namespace InLockstep

variable {Same : C → C → Prop} {ok : J → Prop} {M M' : TaskMachine C R α J I S}
  (h : InLockstep Same ok M M') {s s' : TaskSystem C R α J S}
include h

/-- A job that both start. -/
theorem alike_spawned (hs : s.Alike Same s') {j : J} (hj : ok j) :
    (M.spawned s j).Alike Same (M'.spawned s' j) where
  shared := hs.shared
  tasks := List.rel_append hs.tasks (.cons ⟨rfl, .nil, h.start j hj⟩ .nil)
  history := hs.history

/-- Related calls of a task of both. -/
theorem alike_advanced (hs : s.Alike Same s') {t t' : TaskState C R α J} (ht : t.Alike Same t')
    {c c' : C} {k : R c → CallProgram C R α} {k' : R c' → CallProgram C R α} (hc : Same c c')
    (hk : ∀ answer answer', HEq answer answer' →
      CallProgram.Lockstep Same Eq (k answer) (k' answer')) (n : ℕ) (i : I) :
    (M.advanced s n t c k i).Alike Same (M'.advanced s' n t' c' k' i) := by
  obtain ⟨hanswer, hafter⟩ := h.perform c c' i s.shared hc
  rw [hs.shared] at hanswer hafter
  unfold advanced
  rw [hs.shared]
  have htask : TaskState.Alike Same
      ⟨t.job, ⟨c, (M.perform c i s'.shared).1⟩ :: t.past, k (M.perform c i s'.shared).1⟩
      ⟨t'.job, ⟨c', (M'.perform c' i s'.shared).1⟩ :: t'.past, k' (M'.perform c' i s'.shared).1⟩ :=
    ⟨ht.job, .cons ⟨hc, hanswer⟩ ht.past, hk _ _ hanswer⟩
  exact ⟨hafter, hs.tasks.set htask n, .cons ⟨rfl, ht.job, hc, hanswer, rfl, hafter⟩ hs.history⟩

/-- **One event.**  It is possible for both or for neither, and leaves them alike. -/
theorem rel_next (hs : s.Alike Same s') {e : TaskEvent J I} (he : ∀ j, e = .spawn j → ok j) :
    Option.Rel (TaskSystem.Alike Same) (M.next s e) (M'.next s' e) := by
  cases e with
  | spawn j =>
      simp only [next, h.mayStart s s' j hs]
      split
      · exact .some (h.alike_spawned hs (he j rfl))
      · exact .none
  | advance n i =>
      have htask := hs.tasks.rel_getElem? n
      simp only [next]
      generalize s.tasks[n]? = found at htask ⊢
      generalize s'.tasks[n]? = found' at htask ⊢
      cases htask with
      | none => exact .none
      | @some t t' ht =>
          have hrest := ht.rest
          dsimp only
          generalize t.rest = rest at hrest ⊢
          generalize t'.rest = rest' at hrest ⊢
          cases hrest with
          | pure _ => exact .none
          | panic _ => exact .none
          | call hc hk => exact .some (h.alike_advanced hs ht hc hk n i)

/-- **A whole run.**  The same events are possible for both or for neither, and leave them
alike. -/
theorem rel_runEvents (hs : s.Alike Same s') {es : List (TaskEvent J I)}
    (hes : ∀ j, .spawn j ∈ es → ok j) :
    Option.Rel (TaskSystem.Alike Same) (M.runEvents s es) (M'.runEvents s' es) := by
  induction es generalizing s s' with
  | nil => exact .some hs
  | cons e es ih =>
      have hnext := h.rel_next hs (e := e) fun j hj => hes j (hj ▸ List.mem_cons_self)
      rw [runEvents, runEvents]
      generalize M.next s e = after at hnext ⊢
      generalize M'.next s' e = after' at hnext ⊢
      cases hnext with
      | none => exact .none
      | some hnext => exact ih hnext fun j hj => hes j (List.mem_cons_of_mem e hj)

end InLockstep

end TaskMachine
