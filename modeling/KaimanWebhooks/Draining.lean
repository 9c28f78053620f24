/-
# Queues that are drained in batches

A queue is drained when again and again a batch of a fixed size, or all that is left, is taken
from its front: none of what is taken comes after what stays.  What such a queue hands out is
what it held, in order from batch to batch, and it is empty after as many batches as its length
needs (`Drains.perm`, `Drains.ordered`, `Drains.length_flatten`, `Drains.eq_nil`).

The rounds of a program are its executions one after the other, and a program drains a queue when
every one of its executions takes a batch (`exists_drains_of_rounds`).
-/
import KaimanWebhooks.CallProgram
import Mathlib.Data.List.Perm.Basic
import Mathlib.Data.List.Pairwise

/-! ## Taking a batch -/

variable {α : Type} {r : α → α → Prop} {size : ℕ} {queue batch rest left : List α}
  {batches : List (List α)}

/-- A batch is taken from the front of a queue. -/
structure TakesBatch (r : α → α → Prop) (size : ℕ) (queue batch rest : List α) : Prop where
  perm : (batch ++ rest).Perm queue
  first : ∀ a ∈ batch, ∀ b ∈ rest, r a b
  length : batch.length = min size queue.length

/-- Batch after batch is taken from a queue. -/
inductive Drains (r : α → α → Prop) (size : ℕ) : List α → List (List α) → List α → Prop where
  | nil (queue : List α) : Drains r size queue [] queue
  | cons {queue batch rest left : List α} {batches : List (List α)}
      (htakes : TakesBatch r size queue batch rest) (hrest : Drains r size rest batches left) :
      Drains r size queue (batch :: batches) left

namespace Drains

/-- **What was handed out and what is left is what there was.** -/
theorem perm (h : Drains r size queue batches left) : (batches.flatten ++ left).Perm queue := by
  induction h with
  | nil queue => exact List.Perm.refl queue
  | cons htakes hrest ih =>
      rw [List.flatten_cons, List.append_assoc]
      exact (ih.append_left _).trans htakes.perm

/-- What is handed out later was in the queue before. -/
theorem mem_of_mem_flatten (h : Drains r size queue batches left) {a : α}
    (ha : a ∈ batches.flatten) : a ∈ queue :=
  h.perm.mem_iff.mp (List.mem_append_left _ ha)

/-- **Batches are handed out in order.** -/
theorem ordered (h : Drains r size queue batches left) :
    batches.Pairwise fun batch batch' => ∀ a ∈ batch, ∀ b ∈ batch', r a b := by
  induction h with
  | nil queue => exact List.Pairwise.nil
  | cons htakes hrest ih =>
      refine List.Pairwise.cons (fun batch' hbatch' a ha b hb => ?_) ih
      exact htakes.first a ha b (hrest.mem_of_mem_flatten (List.mem_flatten_of_mem hbatch' hb))

/-- None of what is handed out comes after what is left. -/
theorem first (h : Drains r size queue batches left) :
    ∀ batch ∈ batches, ∀ a ∈ batch, ∀ b ∈ left, r a b := by
  induction h with
  | nil queue => exact fun batch hbatch => absurd hbatch List.not_mem_nil
  | cons htakes hrest ih =>
      refine List.forall_mem_cons.mpr ⟨fun a ha b hb => htakes.first a ha b ?_, ih⟩
      exact hrest.perm.mem_iff.mp (List.mem_append_right _ hb)

/-- **As much is handed out as there is**, up to the size for every batch. -/
theorem length_flatten (h : Drains r size queue batches left) :
    batches.flatten.length = min (size * batches.length) queue.length := by
  induction h with
  | nil queue => simp
  | @cons queue batch rest left batches htakes hrest ih =>
      have hlength := htakes.perm.length_eq
      rw [List.length_append, htakes.length] at hlength
      rw [List.flatten_cons, List.length_append, htakes.length, ih, List.length_cons,
        Nat.mul_succ]
      omega

/-- **Every batch is as large as it can be**: of the given size, or all that is left. -/
theorem length_batch (h : Drains r size queue batches left) {i : ℕ} {batch : List α}
    (hbatch : batches[i]? = some batch) : batch.length = min size (queue.length - size * i) := by
  induction h generalizing i with
  | nil queue => simp at hbatch
  | @cons queue first rest left batches htakes hrest ih =>
      have hlength := htakes.perm.length_eq
      rw [List.length_append, htakes.length] at hlength
      cases i with
      | zero =>
          obtain rfl : first = batch := by simpa using hbatch
          simpa using htakes.length
      | succ i =>
          rw [ih (by simpa using hbatch), Nat.mul_succ]
          omega

/-- A queue is empty after as many batches as it needs. -/
theorem eq_nil (h : Drains r size queue batches left)
    (hall : queue.length ≤ size * batches.length) : left = [] := by
  have hlength := h.perm.length_eq
  rw [List.length_append, h.length_flatten, Nat.min_eq_right hall] at hlength
  exact List.eq_nil_of_length_eq_zero (by omega)

/-- Batches of one are sorted as a whole. -/
theorem pairwise_flatten (h : Drains r 1 queue batches left) : batches.flatten.Pairwise r := by
  rw [List.pairwise_flatten]
  refine ⟨fun batch hbatch => ?_, h.ordered⟩
  have hone : ∀ batch ∈ batches, batch.length ≤ 1 := by
    clear hbatch
    induction h with
    | nil queue => exact fun batch hbatch => absurd hbatch List.not_mem_nil
    | cons htakes hrest ih =>
        exact List.forall_mem_cons.mpr ⟨htakes.length ▸ Nat.min_le_left _ _, ih⟩
  match batch, hone batch hbatch with
  | [], _ => exact List.Pairwise.nil
  | [a], _ => exact List.pairwise_singleton r a

end Drains

/-! ## The rounds of a program -/

section Rounds

variable {C : Type} {R : C → Type} {I S β : Type} (perform : (c : C) → I → S → R c × S)

namespace CallProgram

/-- Executions of a program one after the other, each from the state the one before left. -/
def rounds (p : CallProgram C R β) : List (ℕ → I) → S → List (Execution C R S β)
  | [], _ => []
  | ω :: ωs, s => p.run perform ω s :: rounds p ωs (p.run perform ω s).state

@[simp] theorem length_rounds (p : CallProgram C R β) (ωs : List (ℕ → I)) (s : S) :
    (p.rounds perform ωs s).length = ωs.length := by
  induction ωs generalizing s with
  | nil => rfl
  | cons ω ωs ih => rw [rounds, List.length_cons, ih, List.length_cons]

/-- The state after all rounds. -/
def afterRounds (p : CallProgram C R β) : List (ℕ → I) → S → S
  | [], s => s
  | ω :: ωs, s => afterRounds p ωs (p.run perform ω s).state

end CallProgram

/-- **A program drains a queue** when every one of its executions takes a batch. -/
theorem exists_drains_of_rounds (queue : S → List α) {p : CallProgram C R β} {Inv : S → Prop}
    {Hands : List α → CallProgram.Execution C R S β → Prop} {ok : (ℕ → I) → Prop}
    (hround : ∀ ω s, ok ω → Inv s → ∃ batch, Hands batch (p.run perform ω s) ∧
      TakesBatch r size (queue s) batch (queue (p.run perform ω s).state) ∧
        Inv (p.run perform ω s).state)
    {ωs : List (ℕ → I)} (hok : ∀ ω ∈ ωs, ok ω) {s : S} (hs : Inv s) :
    ∃ batches, List.Forall₂ Hands batches (p.rounds perform ωs s) ∧
      Drains r size (queue s) batches (queue (p.afterRounds perform ωs s)) ∧
        Inv (p.afterRounds perform ωs s) := by
  induction ωs generalizing s with
  | nil => exact ⟨[], List.Forall₂.nil, Drains.nil _, hs⟩
  | cons ω ωs ih =>
      obtain ⟨hω, hωs⟩ := List.forall_mem_cons.mp hok
      obtain ⟨batch, hhands, htakes, hinv⟩ := hround ω s hω hs
      obtain ⟨batches, hrounds, hdrains, hend⟩ := ih hωs hinv
      exact ⟨batch :: batches, List.Forall₂.cons hhands hrounds, Drains.cons htakes hdrains, hend⟩

end Rounds
