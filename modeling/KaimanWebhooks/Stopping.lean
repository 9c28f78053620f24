/-
# Programs that stop

A program stops within a number of calls when, whatever it is answered, it returns or panics
after no more of them.  What it had done when it panicked is a condition on its calls.  A task
that stops on its own stops in every interleaving, for the others only choose its answers.
-/
import KaimanWebhooks.Interleaving

namespace CallProgram

variable {C : Type} {R : C → Type} {α β : Type}

/-- `StopsWithin Bad n past p`: with the calls of `past` made, newest first, the program makes at
most `n` more, whatever the answers, and then it has returned, or it panics after calls that
`Bad` describes. -/
def StopsWithin (Bad : List (Done C R) → Prop) :
    ℕ → List (Done C R) → CallProgram C R α → Prop
  | _, _, .pure _ => True
  | 0, _, .call _ _ => False
  | n + 1, past, .call c next => ∀ r, StopsWithin Bad n (⟨c, r⟩ :: past) (next r)
  | _, past, .panic _ => Bad past

section Rules

variable {Bad : List (Done C R) → Prop} {m n : ℕ} {past : List (Done C R)}

@[simp] theorem stopsWithin_pure (a : α) :
    StopsWithin Bad n past (.pure a : CallProgram C R α) ↔ True := by
  cases n <;> rfl

@[simp] theorem stopsWithin_panic (message : String) :
    StopsWithin Bad n past (.panic message : CallProgram C R α) ↔ Bad past := by
  cases n <;> rfl

@[simp] theorem stopsWithin_succ_call (c : C) (next : R c → CallProgram C R α) :
    StopsWithin Bad (n + 1) past (.call c next) ↔
      ∀ r, StopsWithin Bad n (⟨c, r⟩ :: past) (next r) := Iff.rfl

/-- A program that makes a call needs at least one. -/
theorem StopsWithin.call_pos {c : C} {next : R c → CallProgram C R α}
    (h : StopsWithin Bad n past (.call c next)) :
    ∃ m, n = m + 1 ∧ ∀ r, StopsWithin Bad m (⟨c, r⟩ :: past) (next r) := by
  cases n with
  | zero => exact h.elim
  | succ m => exact ⟨m, rfl, h⟩

theorem StopsWithin.mono {p : CallProgram C R α} (h : StopsWithin Bad m past p) (hmn : m ≤ n) :
    StopsWithin Bad n past p := by
  induction p generalizing m n past with
  | pure a => simp
  | call c next ih =>
      obtain ⟨m, rfl, hnext⟩ := h.call_pos
      obtain ⟨n, rfl⟩ : ∃ k, n = k + 1 := ⟨n - 1, by omega⟩
      exact fun r => ih r (hnext r) (by omega)
  | panic message => simpa using h

/-- A program that returns within a number of calls stops within them. -/
theorem Within.stopsWithin {p : CallProgram C R α} (h : Within n p) : StopsWithin Bad n past p := by
  induction p generalizing n past with
  | pure a => simp
  | call c next ih =>
      obtain ⟨n, rfl, hnext⟩ := h.call_pos
      exact fun r => ih r (hnext r)
  | panic message => simp at h

/-- The bounds of two programs in sequence add up. -/
theorem StopsWithin.bind {p : CallProgram C R α} {f : α → CallProgram C R β}
    (hp : StopsWithin Bad m past p) (hf : ∀ past a, StopsWithin Bad n past (f a)) :
    StopsWithin Bad (m + n) past (p.bind f) := by
  induction p generalizing m past with
  | pure a => exact (hf past a).mono (by omega)
  | call c next ih =>
      obtain ⟨m, rfl, hnext⟩ := hp.call_pos
      rw [show m + 1 + n = (m + n) + 1 by omega]
      exact fun r => ih r (hnext r)
  | panic message => simpa using hp

end Rules

end CallProgram

namespace TaskMachine

variable {C : Type} {R : C → Type} {α J I S : Type} {M : TaskMachine C R α J I S}
  {ok : TaskSystem C R α J S → TaskEvent J I → Prop} {s₀ s : TaskSystem C R α J S}

/-- **A task that stops on its own stops in every interleaving**, within the calls its job has. -/
theorem Reaches.stopsWithin {Bad : J → List (CallProgram.Done C R) → Prop} {n : ℕ}
    (h : M.Reaches ok s₀ s) (h₀ : s₀.tasks = [])
    (hstart : ∀ j, (M.start j).StopsWithin (Bad j) n []) :
    ∀ t ∈ s.tasks, ∃ m, t.past.length + m = n ∧ t.rest.StopsWithin (Bad t.job) m t.past := by
  refine h.invariant (fun s => ∀ t ∈ s.tasks, ∃ m, t.past.length + m = n ∧
    t.rest.StopsWithin (Bad t.job) m t.past) ?_ ?_ ?_
  · simp [h₀]
  · intro s j hs _ _ t ht
    rcases List.mem_append.mp ht with ht | ht
    · exact hs t ht
    · rw [List.mem_singleton.mp ht]
      exact ⟨n, Nat.zero_add n, hstart j⟩
  · intro s k i t c next hs _ ht hr u hu
    rcases List.mem_or_eq_of_mem_set hu with hu | rfl
    · exact hs u hu
    · obtain ⟨m, hm, hstops⟩ := hs t (List.mem_of_getElem? ht)
      rw [hr] at hstops
      obtain ⟨m, rfl, hnext⟩ := hstops.call_pos
      refine ⟨m, ?_, hnext _⟩
      dsimp only [List.length_cons]
      omega

end TaskMachine
