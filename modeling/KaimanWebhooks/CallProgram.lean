/-
# Sequential programs that talk to the outside through calls

A program either returns, panics, or makes one call and continues with the
answer.  Calls come from an arbitrary signature: a type `C` of calls and, for
each of them, the type `R c` of its answers.  The tree is finite, so every run of
a program ends.

Four readings of a program are developed here:

* `run`, the execution against an environment that answers every call;
* `Ensures post`, what every execution from a state guarantees of its outcome and of
  the state it leaves;
* `Obeys A P Q`, the demonic reading: whatever answers `A` allows, every call satisfies
  `P` and every result satisfies `Q`, both relative to the calls already made;
* `Within n`, the bound on the number of calls of a program that returns.
-/
import Mathlib.Logic.Basic
import Mathlib.Data.List.Basic

/-- A program that makes calls `c : C`, is answered by `R c`, and returns an `α`. -/
inductive CallProgram (C : Type) (R : C → Type) (α : Type) : Type where
  | pure (a : α)
  | call (c : C) (next : R c → CallProgram C R α)
  | panic (message : String)

namespace CallProgram

variable {C : Type} {R : C → Type} {α β γ : Type}

/-! ## Sequencing -/

/-- Run the first program, then the second on its result; a panic ends both. -/
def bind : CallProgram C R α → (α → CallProgram C R β) → CallProgram C R β
  | .pure a, f => f a
  | .call c next, f => .call c (fun r => (next r).bind f)
  | .panic m, _ => .panic m

instance : Monad (CallProgram C R) where
  pure := .pure
  bind := .bind

/-- The program that makes one call and returns its answer. -/
def request (c : C) : CallProgram C R (R c) := .call c .pure

@[simp] theorem pure_eq (a : α) : (Pure.pure a : CallProgram C R α) = .pure a := rfl

@[simp] theorem bind_eq (p : CallProgram C R α) (f : α → CallProgram C R β) :
    p >>= f = p.bind f := rfl

@[simp] theorem bind_pure_left (a : α) (f : α → CallProgram C R β) :
    (CallProgram.pure a : CallProgram C R α).bind f = f a := rfl

@[simp] theorem bind_call (c : C) (next : R c → CallProgram C R α)
    (f : α → CallProgram C R β) :
    (CallProgram.call c next).bind f = .call c (fun r => (next r).bind f) := rfl

@[simp] theorem bind_panic (m : String) (f : α → CallProgram C R β) :
    (CallProgram.panic m : CallProgram C R α).bind f = .panic m := rfl

@[simp] theorem bind_request (c : C) (f : R c → CallProgram C R β) :
    (request c).bind f = .call c f := rfl

/-- Sequencing is associative. -/
@[simp] theorem bind_assoc (p : CallProgram C R α) (f : α → CallProgram C R β)
    (g : β → CallProgram C R γ) :
    (p.bind f).bind g = p.bind (fun a => (f a).bind g) := by
  induction p with
  | pure a => rfl
  | call c next ih =>
      simp only [bind_call]
      congr 1
      funext r
      exact ih r
  | panic m => rfl

/-- Returning the result unchanged is the unit of sequencing. -/
@[simp] theorem bind_pure_right (p : CallProgram C R α) : p.bind .pure = p := by
  induction p with
  | pure a => rfl
  | call c next ih =>
      simp only [bind_call]
      congr 1
      funext r
      exact ih r
  | panic m => rfl

/-! ## Execution -/

/-- How a program ends. -/
inductive Outcome (α : Type) : Type where
  | done (a : α)
  | panicked (message : String)
  deriving DecidableEq

/-- The program returned. -/
def Outcome.isDone : Outcome α → Bool
  | .done _ => true
  | .panicked _ => false

theorem Outcome.exists_done_of_isDone {o : Outcome α} (h : o.isDone = true) :
    ∃ a, o = .done a := by
  cases o with
  | done a => exact ⟨a, rfl⟩
  | panicked m => cases h

/-- A call together with the answer it got. -/
abbrev Done (C : Type) (R : C → Type) : Type := (c : C) × R c

/-- What an execution leaves behind: the outcome, the state of the environment and
the answered calls, oldest first. -/
structure Execution (C : Type) (R : C → Type) (S α : Type) where
  outcome : Outcome α
  state : S
  calls : List (Done C R)

section Execution

variable {I S : Type} (perform : (c : C) → I → S → R c × S)

/-- Execute a program: the `n`-th call is answered by the environment `perform` from
the `n`-th input and the current state. -/
def run : CallProgram C R α → (ℕ → I) → S → Execution C R S α
  | .pure a, _, s => ⟨.done a, s, []⟩
  | .call c next, ω, s =>
      let answer := perform c (ω 0) s
      let rest := run (next answer.1) (fun n => ω (n + 1)) answer.2
      ⟨rest.outcome, rest.state, ⟨c, answer.1⟩ :: rest.calls⟩
  | .panic m, _, s => ⟨.panicked m, s, []⟩

@[simp] theorem run_pure (a : α) (ω : ℕ → I) (s : S) :
    (CallProgram.pure a : CallProgram C R α).run perform ω s = ⟨.done a, s, []⟩ := rfl

@[simp] theorem run_panic (m : String) (ω : ℕ → I) (s : S) :
    (CallProgram.panic m : CallProgram C R α).run perform ω s = ⟨.panicked m, s, []⟩ := rfl

theorem run_call (c : C) (next : R c → CallProgram C R α) (ω : ℕ → I) (s : S) :
    (CallProgram.call c next).run perform ω s =
      ⟨((next (perform c (ω 0) s).1).run perform (fun n => ω (n + 1))
          (perform c (ω 0) s).2).outcome,
       ((next (perform c (ω 0) s).1).run perform (fun n => ω (n + 1)) (perform c (ω 0) s).2).state,
       ⟨c, (perform c (ω 0) s).1⟩ ::
         ((next (perform c (ω 0) s).1).run perform (fun n => ω (n + 1))
           (perform c (ω 0) s).2).calls⟩ := rfl

/-- **Sequential composition.**  A run of `p.bind f` is a run of `p`, followed — when `p`
returns `a` — by a run of `f a` on the inputs `p` left over. -/
theorem run_bind (p : CallProgram C R α) (f : α → CallProgram C R β) (ω : ℕ → I) (s : S) :
    (p.bind f).run perform ω s =
      match (p.run perform ω s).outcome with
      | .done a =>
          let e := p.run perform ω s
          let e' := (f a).run perform (fun n => ω (n + e.calls.length)) e.state
          ⟨e'.outcome, e'.state, e.calls ++ e'.calls⟩
      | .panicked m => ⟨.panicked m, (p.run perform ω s).state, (p.run perform ω s).calls⟩ := by
  induction p generalizing ω s with
  | pure a => simp
  | call c next ih =>
      simp only [bind_call, run_call, ih]
      cases ((next (perform c (ω 0) s).1).run perform (fun n => ω (n + 1))
        (perform c (ω 0) s).2).outcome with
      | done a =>
          simp only [List.length_cons, List.cons_append]
          simp only [Nat.add_assoc]
      | panicked m => rfl
  | panic m => rfl

/-- Every call of an execution was answered by the environment. -/
theorem exists_perform_of_mem_calls {perform : (c : C) → I → S → R c × S}
    {p : CallProgram C R α} {ω : ℕ → I} {s : S} {d : Done C R}
    (h : d ∈ (p.run perform ω s).calls) : ∃ n s', (perform d.1 (ω n) s').1 = d.2 := by
  induction p generalizing ω s with
  | pure a => cases h
  | call c next ih =>
      rcases List.mem_cons.mp h with rfl | h
      · exact ⟨0, s, rfl⟩
      · obtain ⟨n, s', hn⟩ := ih _ h
        exact ⟨n + 1, s', hn⟩
  | panic m => cases h

/-- A program followed by a constant returns that constant, if it returns. -/
theorem eq_of_run_bind_pure {perform : (c : C) → I → S → R c × S} {p : CallProgram C R α}
    {b a : β} {ω : ℕ → I} {s : S}
    (h : ((p.bind fun _ => .pure b).run perform ω s).outcome = .done a) : a = b := by
  rw [run_bind] at h
  split at h
  · cases h
    rfl
  · cases h

/-! ## Guarantees of executions from a state -/

/-- `Ensures perform post p s`: every execution of `p` from `s` ends with an outcome and a
state that satisfy `post`. -/
def Ensures (post : Outcome α → S → Prop) : CallProgram C R α → S → Prop
  | .pure a, s => post (.done a) s
  | .call c next, s => ∀ i, Ensures post (next (perform c i s).1) (perform c i s).2
  | .panic m, s => post (.panicked m) s

variable {perform} {post post' : Outcome α → S → Prop} {s : S}

@[simp] theorem ensures_pure (a : α) :
    Ensures perform post (.pure a : CallProgram C R α) s ↔ post (.done a) s := Iff.rfl

@[simp] theorem ensures_call (c : C) (next : R c → CallProgram C R α) :
    Ensures perform post (.call c next) s ↔
      ∀ i, Ensures perform post (next (perform c i s).1) (perform c i s).2 := Iff.rfl

@[simp] theorem ensures_panic (m : String) :
    Ensures perform post (.panic m : CallProgram C R α) s ↔ post (.panicked m) s := Iff.rfl

/-- The rule of sequencing. -/
theorem ensures_bind {post : Outcome β → S → Prop} (p : CallProgram C R α)
    (f : α → CallProgram C R β) (s : S) :
    Ensures perform post (p.bind f) s ↔
      Ensures perform (fun o s' =>
        match o with
        | .done a => Ensures perform post (f a) s'
        | .panicked m => post (.panicked m) s') p s := by
  induction p generalizing s with
  | pure a => rfl
  | call c next ih => simp only [bind_call, ensures_call, ih]
  | panic m => rfl

theorem Ensures.weaken {p : CallProgram C R α} (h : Ensures perform post p s)
    (hpost : ∀ o s, post o s → post' o s) : Ensures perform post' p s := by
  induction p generalizing s with
  | pure a => exact hpost _ _ h
  | call c next ih => exact fun i => ih _ (h i)
  | panic m => exact hpost _ _ h

/-- What is ensured holds of the end of every execution. -/
theorem Ensures.of_run {p : CallProgram C R α} (h : Ensures perform post p s) (ω : ℕ → I) :
    post (p.run perform ω s).outcome (p.run perform ω s).state := by
  induction p generalizing s ω with
  | pure a => exact h
  | call c next ih => exact ih _ (h (ω 0)) _
  | panic m => exact h

end Execution

/-! ## The demonic reading -/

/-- `Obeys A P Q past p`: after the calls `past` (newest first), whatever the answers to
come, as long as they are answers `A` allows, every call `p` makes satisfies `P` relative
to the calls made before it, and every result satisfies `Q`.  A panic is allowed. -/
def Obeys (A : (c : C) → R c → Prop) (P : List (Done C R) → C → Prop)
    (Q : List (Done C R) → α → Prop) : List (Done C R) → CallProgram C R α → Prop
  | past, .pure a => Q past a
  | past, .call c next => P past c ∧ ∀ r, A c r → Obeys A P Q (⟨c, r⟩ :: past) (next r)
  | _, .panic _ => True

section Obeys

variable {A : (c : C) → R c → Prop} {P P' : List (Done C R) → C → Prop}
  {Q Q' : List (Done C R) → α → Prop} {past : List (Done C R)}

@[simp] theorem obeys_pure (a : α) :
    Obeys A P Q past (.pure a) ↔ Q past a := Iff.rfl

@[simp] theorem obeys_call (c : C) (next : R c → CallProgram C R α) :
    Obeys A P Q past (.call c next) ↔
      P past c ∧ ∀ r, A c r → Obeys A P Q (⟨c, r⟩ :: past) (next r) := Iff.rfl

@[simp] theorem obeys_panic (m : String) :
    Obeys A P Q past (.panic m : CallProgram C R α) ↔ True := Iff.rfl

/-- The rule of sequencing: what `f` owes is what `p` promises about its result. -/
theorem obeys_bind {Q : List (Done C R) → β → Prop} (p : CallProgram C R α)
    (f : α → CallProgram C R β) :
    Obeys A P Q past (p.bind f) ↔ Obeys A P (fun past a => Obeys A P Q past (f a)) past p := by
  induction p generalizing past with
  | pure a => rfl
  | call c next ih => simp only [bind_call, obeys_call, ih]
  | panic m => rfl

/-- Weakening, with the guarantee that the calls already made are never forgotten. -/
theorem Obeys.weaken {p : CallProgram C R α} (h : Obeys A P Q past p)
    (hP : ∀ past' c, past <:+ past' → P past' c → P' past' c)
    (hQ : ∀ past' a, past <:+ past' → Q past' a → Q' past' a) :
    Obeys A P' Q' past p := by
  induction p generalizing past with
  | pure a => exact hQ past a (List.suffix_refl past) h
  | call c next ih =>
      refine ⟨hP past c (List.suffix_refl past) h.1, fun r hr => ih r (h.2 r hr) ?_ ?_⟩
      · intro past' c' hs
        exact hP past' c' ((List.suffix_cons _ past).trans hs)
      · intro past' a hs
        exact hQ past' a ((List.suffix_cons _ past).trans hs)
  | panic m => trivial

/-- A program that keeps to two protocols keeps to both at once. -/
theorem Obeys.and {p : CallProgram C R α} (h : Obeys A P Q past p) (h' : Obeys A P' Q' past p) :
    Obeys A (fun past c => P past c ∧ P' past c) (fun past a => Q past a ∧ Q' past a) past p := by
  induction p generalizing past with
  | pure a => exact ⟨h, h'⟩
  | call c next ih => exact ⟨⟨h.1, h'.1⟩, fun r hr => ih r (h.2 r hr) (h'.2 r hr)⟩
  | panic m => trivial

/-- What holds after whatever calls holds of every call and of every result. -/
theorem obeys_of_forall (hP : ∀ past c, P past c) (hQ : ∀ past a, Q past a)
    (p : CallProgram C R α) : Obeys A P Q past p := by
  induction p generalizing past with
  | pure a => exact hQ past a
  | call c next ih => exact ⟨hP past c, fun r _ => ih r⟩
  | panic m => trivial

/-- A protocol under a condition asks nothing of a program where the condition fails. -/
theorem obeys_of_not {b : Prop} (hb : ¬b) (hQ : ∀ past a, Q past a) (p : CallProgram C R α) :
    Obeys A (fun past c => b → P past c) Q past p :=
  obeys_of_forall (fun _ _ h => absurd h hb) hQ p

/-- Some answers that `A` allows lead the program to a call of the kind `K`. -/
def MayCall (A : (c : C) → R c → Prop) (K : C → Prop) : CallProgram C R α → Prop
  | .pure _ => False
  | .call c next => K c ∨ ∃ r, A c r ∧ MayCall A K (next r)
  | .panic _ => False

/-- A call that an obedient program may come to is permitted after more calls than were made. -/
theorem MayCall.exists_permitted {K : C → Prop} {p : CallProgram C R α} (hmay : p.MayCall A K)
    (h : Obeys A P Q past p) : ∃ past' c, past <:+ past' ∧ P past' c ∧ K c := by
  induction p generalizing past with
  | pure a => exact hmay.elim
  | call c next ih =>
      rcases hmay with hcall | ⟨r, hr, hmay⟩
      · exact ⟨past, c, List.suffix_refl past, h.1, hcall⟩
      · obtain ⟨past', c', hsuffix, hlater⟩ := ih r hmay (h.2 r hr)
        exact ⟨past', c', (List.suffix_cons _ past).trans hsuffix, hlater⟩
  | panic m => exact hmay.elim

/-- Where every call is permitted, a program owes what its continuations owe. -/
theorem obeys_bind_of_forall {Q : List (Done C R) → β → Prop} (hP : ∀ past c, P past c)
    (p : CallProgram C R α) {f : α → CallProgram C R β}
    (hf : ∀ past a, (f a).Obeys A P Q past) : (p.bind f).Obeys A P Q past :=
  (obeys_bind p f).mpr (obeys_of_forall hP hf p)

section Run

variable {I S : Type} {perform : (c : C) → I → S → R c × S}
  (hanswers : ∀ c i s, A c (perform c i s).1)

include hanswers

/-- An execution of an obedient program made only permitted calls and, when it
returned, returned a permitted result. -/
theorem Obeys.of_run {p : CallProgram C R α} (h : Obeys A P Q past p) (ω : ℕ → I) (s : S) :
    (∀ a, (p.run perform ω s).outcome = .done a →
      Q ((p.run perform ω s).calls.reverse ++ past) a) ∧
    (∀ before c r after, (p.run perform ω s).calls = before ++ ⟨c, r⟩ :: after →
      P (before.reverse ++ past) c) := by
  induction p generalizing past ω s with
  | pure a =>
      refine ⟨fun a' ha => ?_, fun before c r after hc => ?_⟩
      · cases ha
        exact h
      · simp at hc
  | call c next ih =>
      obtain ⟨hdone, hcalls⟩ :=
        ih (perform c (ω 0) s).1 (h.2 _ (hanswers c (ω 0) s)) (fun n => ω (n + 1))
          (perform c (ω 0) s).2
      refine ⟨fun a ha => ?_, fun before c' r' after hc => ?_⟩
      · simpa [run_call] using hdone a ha
      · cases before with
        | nil =>
            simp only [run_call, List.nil_append, List.cons.injEq, Sigma.mk.injEq] at hc
            obtain ⟨⟨rfl, -⟩, -⟩ := hc
            exact h.1
        | cons d before =>
            simp only [run_call, List.cons_append, List.cons.injEq] at hc
            obtain ⟨rfl, hrest⟩ := hc
            simpa using hcalls before c' r' after hrest
  | panic m =>
      refine ⟨fun a ha => ?_, fun before c r after hc => ?_⟩
      · cases ha
      · simp at hc

/-- **Noninterference.**  When every permitted call is answered alike in related states and
leaves related states behind, so does the whole program. -/
theorem Obeys.run_related {Rel : S → S → Prop}
    (hstep : ∀ past c i s₁ s₂, P past c → Rel s₁ s₂ →
      (perform c i s₁).1 = (perform c i s₂).1 ∧ Rel (perform c i s₁).2 (perform c i s₂).2)
    {p : CallProgram C R α} (h : Obeys A P Q past p) (ω : ℕ → I) {s₁ s₂ : S}
    (hrel : Rel s₁ s₂) :
    (p.run perform ω s₁).outcome = (p.run perform ω s₂).outcome ∧
      (p.run perform ω s₁).calls = (p.run perform ω s₂).calls ∧
      Rel (p.run perform ω s₁).state (p.run perform ω s₂).state := by
  induction p generalizing past ω s₁ s₂ with
  | pure a => exact ⟨rfl, rfl, hrel⟩
  | call c next ih =>
      obtain ⟨hanswer, hrel'⟩ := hstep past c (ω 0) s₁ s₂ h.1 hrel
      have hrest := ih (perform c (ω 0) s₁).1 (h.2 _ (hanswers c (ω 0) s₁))
        (fun n => ω (n + 1)) hrel'
      simp only [run_call, ← hanswer]
      exact ⟨hrest.1, by rw [hrest.2.1], hrest.2.2⟩
  | panic m => exact ⟨rfl, rfl, hrel⟩

end Run

end Obeys

/-! ## Bounded programs -/

/-- `Within n p`: the program returns after at most `n` calls, whatever the answers; it does
not panic. -/
def Within : ℕ → CallProgram C R α → Prop
  | _, .pure _ => True
  | 0, .call _ _ => False
  | n + 1, .call _ next => ∀ r, Within n (next r)
  | _, .panic _ => False

@[simp] theorem within_pure (n : ℕ) (a : α) :
    Within n (.pure a : CallProgram C R α) ↔ True := by
  cases n <;> rfl

@[simp] theorem within_panic (n : ℕ) (m : String) :
    Within n (.panic m : CallProgram C R α) ↔ False := by
  cases n <;> rfl

@[simp] theorem within_succ_call (n : ℕ) (c : C) (next : R c → CallProgram C R α) :
    Within (n + 1) (.call c next) ↔ ∀ r, Within n (next r) := Iff.rfl

/-- A program that makes a call needs at least one. -/
theorem Within.call_pos {n : ℕ} {c : C} {next : R c → CallProgram C R α}
    (h : Within n (.call c next)) : ∃ m, n = m + 1 ∧ ∀ r, Within m (next r) := by
  cases n with
  | zero => exact h.elim
  | succ m => exact ⟨m, rfl, h⟩

theorem Within.mono {m n : ℕ} {p : CallProgram C R α} (h : Within m p) (hmn : m ≤ n) :
    Within n p := by
  induction p generalizing m n with
  | pure a => simp
  | call c next ih =>
      obtain ⟨m, rfl, hnext⟩ := h.call_pos
      obtain ⟨n, rfl⟩ : ∃ k, n = k + 1 := ⟨n - 1, by omega⟩
      exact fun r => ih r (hnext r) (by omega)
  | panic m => simp at h

/-- The bounds of two programs in sequence add up. -/
theorem Within.bind {m n : ℕ} {p : CallProgram C R α} {f : α → CallProgram C R β}
    (hp : Within m p) (hf : ∀ a, Within n (f a)) : Within (m + n) (p.bind f) := by
  induction p generalizing m with
  | pure a => exact (hf a).mono (by omega)
  | call c next ih =>
      obtain ⟨m, rfl, hnext⟩ := hp.call_pos
      rw [show m + 1 + n = (m + n) + 1 by omega]
      exact fun r => ih r (hnext r)
  | panic m => simp at hp

end CallProgram
