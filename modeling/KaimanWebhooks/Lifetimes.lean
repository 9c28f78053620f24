/-
# Systems that are killed and started again

The process that runs the tasks of a machine may die between any two calls.  Its tasks are gone
then, and with them a part of the shared state: `restart` is what the next process finds.  A run
with restarts is a chain of runs, each from what the one before left behind, and everything
proved of a single run holds in every lifetime.
-/
import KaimanWebhooks.Interleaving

variable {C : Type} {R : C → Type} {α J I S : Type}

/-- A system without tasks. -/
def TaskSystem.fresh (w : S) : TaskSystem C R α J S := ⟨w, [], []⟩

/-- The system in its current lifetime, the state that lifetime started from, and the histories
of the lifetimes before it, newest first. -/
structure Lifetimes (C : Type) (R : C → Type) (α J S : Type) where
  ended : List (List (Entry C R J S))
  boot : S
  current : TaskSystem C R α J S

namespace Lifetimes

/-- All calls of all lifetimes, newest first. -/
def history (l : Lifetimes C R α J S) : List (Entry C R J S) :=
  l.current.history ++ l.ended.flatten

/-- The current system with the history of all lifetimes. -/
def whole (l : Lifetimes C R α J S) : TaskSystem C R α J S :=
  ⟨l.current.shared, l.current.tasks, l.history⟩

/-- What is counted in the calls of each lifetime, added up. -/
def total (f : List (Entry C R J S) → ℕ) (l : Lifetimes C R α J S) : ℕ :=
  f l.current.history + l.ended.foldr (fun es n => f es + n) 0

/-- The calls of a kind in all lifetimes are those of each. -/
theorem countP_history (p : Entry C R J S → Bool) (l : Lifetimes C R α J S) :
    l.history.countP p = l.total (List.countP p) := by
  rw [history, total, List.countP_append, List.countP_flatten, List.sum_eq_foldr,
    List.foldr_map]

/-- How often the system was started again. -/
def restarts (l : Lifetimes C R α J S) : ℕ := l.ended.length

end Lifetimes

namespace TaskMachine

/-- `Outlives restart ok w₀ l`: started on `w₀`, killed and restarted any number of times, the
system is as `l` says. -/
inductive Outlives (M : TaskMachine C R α J I S) (restart : S → S)
    (ok : TaskSystem C R α J S → TaskEvent J I → Prop) (w₀ : S) : Lifetimes C R α J S → Prop where
  | first {s : TaskSystem C R α J S} :
      M.Reaches ok (.fresh w₀) s → Outlives M restart ok w₀ ⟨[], w₀, s⟩
  | again {l : Lifetimes C R α J S} {s : TaskSystem C R α J S} :
      Outlives M restart ok w₀ l → M.Reaches ok (.fresh (restart l.current.shared)) s →
        Outlives M restart ok w₀ ⟨l.current.history :: l.ended, restart l.current.shared, s⟩

variable {M : TaskMachine C R α J I S} {restart : S → S}
  {ok : TaskSystem C R α J S → TaskEvent J I → Prop} {w₀ : S} {l : Lifetimes C R α J S}

/-- The current lifetime is a run. -/
theorem Outlives.reaches (h : M.Outlives restart ok w₀ l) :
    M.Reaches ok (.fresh l.boot) l.current := by
  cases h with
  | first hrun => exact hrun
  | again _ hrun => exact hrun

/-- **The invariant rule for runs with restarts.**  Next to the system the invariant may speak of
the calls `older` of the lifetimes before. -/
theorem Outlives.invariant (Inv : List (Entry C R J S) → TaskSystem C R α J S → Prop)
    (h : M.Outlives restart ok w₀ l) (h₀ : Inv [] (.fresh w₀))
    (hrestart : ∀ older s, Inv older s → Inv (s.history ++ older) (.fresh (restart s.shared)))
    (hspawn : ∀ older s j, Inv older s → ok s (.spawn j) → M.mayStart s j = true →
      Inv older (M.spawned s j))
    (hadvance : ∀ older s n i t c k, Inv older s → ok s (.advance n i) → s.tasks[n]? = some t →
      t.rest = .call c k → Inv older (M.advanced s n t c k i)) :
    Inv l.ended.flatten l.current := by
  have hrun : ∀ older w s, Inv older (.fresh w) → M.Reaches ok (.fresh w) s → Inv older s :=
    fun older w s hw hs => hs.invariant (Inv older) hw (hspawn older) (hadvance older)
  induction h with
  | first hs => exact hrun _ _ _ h₀ hs
  | again _ hs ih => exact hrun _ _ _ (hrestart _ _ ih) hs

/-- The moment of an entry: the lifetimes up to it, whose state it was made in. -/
theorem Outlives.exists_madeIn (h : M.Outlives restart ok w₀ l) {e : Entry C R J S}
    (he : e ∈ l.history) :
    ∃ l' newer, M.Outlives restart ok w₀ l' ∧ l.history = newer ++ e :: l'.history ∧
      l'.current.shared = e.before ∧ ∃ i, M.perform e.call i e.before = (e.answer, e.after) := by
  induction h with
  | @first s hs =>
      have he' : e ∈ s.history := by simpa [Lifetimes.history] using he
      obtain ⟨s₁, newer, hmade⟩ := hs.exists_madeIn rfl he'
      obtain ⟨i, -, -, -, -, -, -, hperform⟩ := hmade.event
      refine ⟨⟨[], w₀, s₁⟩, newer, .first hmade.reaches, ?_, hmade.before, i, hperform⟩
      simp [Lifetimes.history, hmade.history]
  | @again l s hl hs ih =>
      rcases List.mem_append.mp he with he | he
      · obtain ⟨s₁, newer, hmade⟩ := hs.exists_madeIn rfl he
        obtain ⟨i, -, -, -, -, -, -, hperform⟩ := hmade.event
        refine ⟨⟨l.current.history :: l.ended, restart l.current.shared, s₁⟩, newer,
          .again hl hmade.reaches, ?_, hmade.before, i, hperform⟩
        simp [Lifetimes.history, hmade.history]
      · obtain ⟨l', newer, hl', hhistory, hrest⟩ := ih he
        refine ⟨l', s.history ++ newer, hl', ?_, hrest⟩
        rw [List.append_assoc, ← hhistory]
        rfl

/-- **Every call was permitted after calls its task had made**, in whatever lifetime. -/
theorem Outlives.protocol_of_mem (h : M.Outlives restart ok w₀ l)
    {P : J → List (CallProgram.Done C R) → C → Prop}
    {Q : J → List (CallProgram.Done C R) → α → Prop}
    (hstart : ∀ j, (M.start j).Obeys M.Answers (P j) (Q j) []) {e : Entry C R J S}
    (he : e ∈ l.history) :
    ∃ past, P e.job past e.call ∧
      ∀ d ∈ past, ∃ e' ∈ l.history, e'.task = e.task ∧ e'.job = e.job ∧ e'.done = d := by
  induction h with
  | first hs =>
      simp only [Lifetimes.history, List.flatten_nil, List.append_nil] at he ⊢
      exact hs.protocol_of_mem rfl rfl hstart he
  | @again l s hl hs ih =>
      have hsplit : ∀ e', e' ∈ s.history ∨ e' ∈ l.history →
          e' ∈ Lifetimes.history ⟨l.current.history :: l.ended, restart l.current.shared, s⟩ :=
        fun e' he' => List.mem_append.mpr he'
      rcases List.mem_append.mp he with he | he
      · obtain ⟨past, hpermitted, hpast⟩ := hs.protocol_of_mem rfl rfl hstart he
        refine ⟨past, hpermitted, fun d hd => ?_⟩
        obtain ⟨e', he', hrest⟩ := hpast d hd
        exact ⟨e', hsplit e' (Or.inl he'), hrest⟩
      · obtain ⟨past, hpermitted, hpast⟩ := ih he
        refine ⟨past, hpermitted, fun d hd => ?_⟩
        obtain ⟨e', he', hrest⟩ := hpast d hd
        exact ⟨e', hsplit e' (Or.inr he'), hrest⟩

/-- **Counting across restarts.**  Where every lifetime counts at most one more in `f` than in `g`,
all of them together count at most one more for each start. -/
theorem Outlives.total_le (h : M.Outlives restart ok w₀ l) {f g : List (Entry C R J S) → ℕ}
    (hrun : ∀ w s, M.Reaches ok (.fresh w) s → f s.history ≤ g s.history + 1) :
    l.total f ≤ l.total g + (l.restarts + 1) := by
  induction h with
  | first hs =>
      have hlast := hrun _ _ hs
      simpa [Lifetimes.total, Lifetimes.restarts] using hlast
  | @again l s hl hs ih =>
      have hlast := hrun _ _ hs
      simp only [Lifetimes.total, Lifetimes.restarts, List.foldr_cons,
        List.length_cons] at ih ⊢
      omega

end TaskMachine
