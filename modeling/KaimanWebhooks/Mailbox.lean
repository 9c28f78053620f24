/-
# Mailboxes

What a store of messages is for, in its own terms.  A letter is accepted under an id that was
never used before, waits in its box, may be held back after a failed delivery, and is taken
once: an id goes from unissued to stored to gone and never back.

`Op` are the things a mailbox is asked, each with what was observed; a list of them is `Lawful`
when every observation fits the state the earlier ones lead to.  The results are about every
lawful list: whatever is accepted is taken once or still stored (`Lawful.conserved`), and boxes
are emptied in order (`Lawful.collected_in_order`).
-/
import Mathlib.Data.List.Count
import Mathlib.Data.List.Nodup
import Mathlib.Order.Defs.LinearOrder

/-! ## Letters and their slots -/

/-- A letter: what was posted, and what became of the attempts to deliver it. -/
structure Letter (κ β ε τ : Type) where
  box : κ
  content : β
  arrived : τ
  failures : ℕ
  lastFailure : Option (τ × ε)
  heldUntil : Option τ

namespace Letter

variable {κ β ε τ : Type}

/-- A letter nobody has tried to deliver yet. -/
def new (box : κ) (content : β) (arrived : τ) : Letter κ β ε τ where
  box := box
  content := content
  arrived := arrived
  failures := 0
  lastFailure := none
  heldUntil := none

/-- The letter after a delivery failed. -/
def held (now : τ) (why : ε) (again : τ) (l : Letter κ β ε τ) : Letter κ β ε τ :=
  { l with failures := l.failures + 1, lastFailure := some (now, why), heldUntil := some again }

/-- The letter as if nobody had tried. -/
def released (l : Letter κ β ε τ) : Letter κ β ε τ :=
  { l with failures := 0, lastFailure := none, heldUntil := none }

/-- The letter may be delivered. -/
def IsDue [LE τ] (now : τ) (l : Letter κ β ε τ) : Prop := ∀ again ∈ l.heldUntil, again ≤ now

/-- The same posting: only the record of its attempts may differ. -/
def SamePosting (l l' : Letter κ β ε τ) : Prop :=
  l'.box = l.box ∧ l'.content = l.content ∧ l'.arrived = l.arrived

theorem SamePosting.trans {l₁ l₂ l₃ : Letter κ β ε τ} (h₁ : l₁.SamePosting l₂)
    (h₂ : l₂.SamePosting l₃) : l₁.SamePosting l₃ :=
  ⟨h₂.1.trans h₁.1, h₂.2.1.trans h₁.2.1, h₂.2.2.trans h₁.2.2⟩

end Letter

/-- What stands under an id. -/
inductive Slot (κ β ε τ : Type) : Type where
  | unissued
  | stored (l : Letter κ β ε τ)
  | gone

/-- How many letters were ever under the id. -/
def Slot.given {κ β ε τ : Type} : Slot κ β ε τ → ℕ
  | .unissued => 0
  | _ => 1

/-- How many letters are under the id. -/
def Slot.kept {κ β ε τ : Type} : Slot κ β ε τ → ℕ
  | .stored _ => 1
  | _ => 0

/-- How many letters an operation takes that would take the stored one if `p` says so. -/
def Slot.lost {κ β ε τ : Type} (p : Letter κ β ε τ → Bool) : Slot κ β ε τ → ℕ
  | .stored l => (p l).toNat
  | _ => 0

/-- A mailbox: what stands under every id. -/
abbrev Mailbox (ι κ β ε τ : Type) : Type := ι → Slot κ β ε τ

namespace Mailbox

variable {ι κ β ε τ : Type}

/-- The letter is stored in the box under this id. -/
def Holds (m : Mailbox ι κ β ε τ) (box : κ) (i : ι) (l : Letter κ β ε τ) : Prop :=
  m i = .stored l ∧ l.box = box

/-- Something is stored under the id. -/
def Has (m : Mailbox ι κ β ε τ) (i : ι) : Prop := ∃ l, m i = .stored l

/-- The list shows every letter of the box once. -/
def Lists (m : Mailbox ι κ β ε τ) (box : κ) (found : List (ι × Letter κ β ε τ)) : Prop :=
  (found.map Prod.fst).Nodup ∧ ∀ i l, (i, l) ∈ found ↔ m.Holds box i l

/-! ## Operations -/

/-- What a mailbox is asked, with what was observed: the id given out, the letters found, how
many there were, whether there was one. -/
inductive Op (ι κ β ε τ : Type) : Type where
  | accept (i : ι) (box : κ) (content : β) (arrived : τ)
  | collect (box : κ) (limit : Option ℕ) (found : List (ι × Letter κ β ε τ))
  | offer (box : κ) (now : τ) (found : Option (ι × Letter κ β ε τ))
  | discard (i : ι) (was : Bool)
  | hold (i : ι) (now : τ) (why : ε) (again : τ) (was : Bool)
  | release (i : ι) (was : Bool)
  | clear (box : κ) (count : ℕ)
  | survey (box : κ) (newestFirst : Bool) (found : List (ι × Letter κ β ε τ))
  | count (box : κ) (n : ℕ)
  | look (i : ι) (found : Option (Letter κ β ε τ))
  | idle

namespace Op

section Effect

variable [DecidableEq ι] [DecidableEq κ]

/-- The letter an operation stores under an id. -/
def brings : Op ι κ β ε τ → ι → Option (Letter κ β ε τ)
  | .accept i box content arrived, j => if j = i then some (.new box content arrived) else none
  | _, _ => none

/-- The operation takes the letter stored under an id. -/
def takes : Op ι κ β ε τ → ι → Letter κ β ε τ → Bool
  | .collect _ _ found, i, _ => i ∈ found.map Prod.fst
  | .discard j _, i, _ => i = j
  | .clear box _, _, l => l.box = box
  | _, _, _ => false

/-- What the operation makes of a letter it leaves. -/
def revise : Op ι κ β ε τ → ι → Letter κ β ε τ → Letter κ β ε τ
  | .hold j now why again _, i, l => if i = j then l.held now why again else l
  | .release j _, i, l => if i = j then l.released else l
  | _, _, l => l

/-- The mailbox after an operation. -/
def apply (op : Op ι κ β ε τ) (m : Mailbox ι κ β ε τ) : Mailbox ι κ β ε τ := fun i =>
  match m i with
  | .unissued => match op.brings i with
      | some l => .stored l
      | none => .unissued
  | .stored l => if op.takes i l then .gone else .stored (op.revise i l)
  | .gone => .gone

end Effect

/-- What was observed fits the mailbox.  Letters are collected oldest first, as many as there are
up to the limit, and the oldest letter that is due is offered. -/
def Observed [LE τ] (m : Mailbox ι κ β ε τ) : Op ι κ β ε τ → Prop
  | .accept i _ _ _ => m i = .unissued
  | .collect box limit found =>
      (found.map Prod.fst).Nodup ∧ (∀ p ∈ found, m.Holds box p.1 p.2) ∧
        (∀ n ∈ limit, found.length ≤ n) ∧
        ∀ i l, m.Holds box i l → (i, l) ∉ found →
          (∃ n ∈ limit, n ≤ found.length) ∧ ∀ p ∈ found, p.2.arrived ≤ l.arrived
  | .offer box now none => ∀ i l, m.Holds box i l → ¬l.IsDue now
  | .offer box now (some p) =>
      m.Holds box p.1 p.2 ∧ p.2.IsDue now ∧
        ∀ i l, m.Holds box i l → l.IsDue now → p.2.arrived ≤ l.arrived
  | .discard i was => was = true ↔ m.Has i
  | .hold i _ _ _ was => was = true ↔ m.Has i
  | .release i was => was = true ↔ m.Has i
  | .clear box n => ∃ found, m.Lists box found ∧ found.length = n
  | .survey box newestFirst found =>
      m.Lists box found ∧ found.Pairwise fun p p' =>
        if newestFirst then p'.2.arrived ≤ p.2.arrived else p.2.arrived ≤ p'.2.arrived
  | .count box n => ∃ found, m.Lists box found ∧ found.length = n
  | .look i found => ∀ l, m i = .stored l ↔ found = some l
  | .idle => True

end Op

section Runs

variable [DecidableEq ι] [DecidableEq κ]

/-- The mailbox after the operations, newest first, on an empty one. -/
def after : List (Op ι κ β ε τ) → Mailbox ι κ β ε τ
  | [] => fun _ => .unissued
  | op :: ops => op.apply (after ops)

/-- Every observation fits the state the operations before it lead to. -/
def Lawful [LE τ] : List (Op ι κ β ε τ) → Prop
  | [] => True
  | op :: ops => Lawful ops ∧ op.Observed (after ops)

/-- How often a letter was stored under the id. -/
def acceptances (i : ι) (ops : List (Op ι κ β ε τ)) : ℕ :=
  ops.countP fun op => (op.brings i).isSome

/-- How often a letter was taken from under the id. -/
def takings (i : ι) : List (Op ι κ β ε τ) → ℕ
  | [] => 0
  | op :: ops => takings i ops + (after ops i).lost (op.takes i)

variable {ops newer older : List (Op ι κ β ε τ)} {op : Op ι κ β ε τ} {i j : ι}
  {l : Letter κ β ε τ}

/-! ## One operation -/

omit [DecidableEq κ] in
/-- An operation changes of a letter only the record of its attempts. -/
theorem samePosting_revise (op : Op ι κ β ε τ) (i : ι) (l : Letter κ β ε τ) :
    l.SamePosting (op.revise i l) := by
  cases op <;> simp only [Op.revise]
  case hold => split <;> exact ⟨rfl, rfl, rfl⟩
  case release => split <;> exact ⟨rfl, rfl, rfl⟩
  all_goals exact ⟨rfl, rfl, rfl⟩

omit [DecidableEq κ] in
/-- Only a letter accepted under an unissued id is new. -/
theorem brings_eq_none_of_observed [LE τ] {m : Mailbox ι κ β ε τ} (h : op.Observed m)
    (hi : m i ≠ .unissued) : op.brings i = none := by
  cases op with
  | accept j box content arrived =>
      simp only [Op.brings, ite_eq_right_iff, reduceCtorEq, imp_false]
      rintro rfl
      exact hi h
  | _ => rfl

/-- What is gone stays gone. -/
theorem apply_of_gone {m : Mailbox ι κ β ε τ} (h : m i = .gone) : op.apply m i = .gone := by
  simp only [Op.apply, h]

theorem apply_of_taken {m : Mailbox ι κ β ε τ} (h : m i = .stored l)
    (htakes : op.takes i l = true) : op.apply m i = .gone := by
  simp only [Op.apply, h, htakes, if_true]

theorem apply_of_kept {m : Mailbox ι κ β ε τ} (h : m i = .stored l)
    (hkept : op.takes i l = false) : op.apply m i = .stored (op.revise i l) := by
  simp only [Op.apply, h, hkept, Bool.false_eq_true, if_false]

/-- **A stored letter** is taken or stays the same posting. -/
theorem apply_of_stored (op : Op ι κ β ε τ) {m : Mailbox ι κ β ε τ} (h : m i = .stored l) :
    (op.takes i l = true ∧ op.apply m i = .gone) ∨
      (op.takes i l = false ∧ ∃ l', op.apply m i = .stored l' ∧ l.SamePosting l') := by
  cases htakes : op.takes i l with
  | true => exact Or.inl ⟨rfl, apply_of_taken h htakes⟩
  | false => exact Or.inr ⟨rfl, _, apply_of_kept h htakes, samePosting_revise op i l⟩

/-- **Where a stored letter comes from**: it is an earlier one, or the operation stored it. -/
theorem stored_of_apply {m : Mailbox ι κ β ε τ} (h : op.apply m i = .stored l) :
    (∃ l₀, m i = .stored l₀ ∧ l₀.SamePosting l) ∨ (m i = .unissued ∧ op.brings i = some l) := by
  cases hslot : m i with
  | unissued =>
      cases hbrings : op.brings i with
      | none => simp [Op.apply, hslot, hbrings] at h
      | some l₀ =>
          simp only [Op.apply, hslot, hbrings, Slot.stored.injEq] at h
          exact Or.inr ⟨rfl, congrArg some h⟩
  | gone => simp [Op.apply, hslot] at h
  | stored l₀ =>
      rcases apply_of_stored op hslot with ⟨-, hgone⟩ | ⟨-, l', hstored, hsame⟩
      · rw [hgone] at h
        cases h
      · rw [hstored] at h
        cases h
        exact Or.inl ⟨l₀, rfl, hsame⟩

/-! ## Lawful runs -/

theorem Lawful.of_append [LE τ] (h : Lawful (newer ++ older)) : Lawful older := by
  induction newer with
  | nil => exact h
  | cons op newer ih => exact ih h.1

/-- An id that was given out is never unissued again. -/
theorem ne_unissued_append (h : after older i ≠ .unissued) :
    after (newer ++ older) i ≠ .unissued := by
  induction newer with
  | nil => exact h
  | cons op newer ih =>
      show op.apply (after (newer ++ older)) i ≠ .unissued
      cases hslot : after (newer ++ older) i with
      | unissued => exact absurd hslot ih
      | gone => simp [apply_of_gone hslot]
      | stored l =>
          rcases apply_of_stored op hslot with ⟨-, hgone⟩ | ⟨-, l', hstored, -⟩
          · simp [hgone]
          · simp [hstored]

/-- What is gone is gone ever after. -/
theorem gone_append (newer : List (Op ι κ β ε τ)) (h : after older i = .gone) :
    after (newer ++ older) i = .gone := by
  induction newer with
  | nil => exact h
  | cons op newer ih => exact apply_of_gone ih

/-- A letter found later under an id that was stored is the same posting. -/
theorem samePosting_append (newer : List (Op ι κ β ε τ)) {l' : Letter κ β ε τ}
    (h : after older i = .stored l)
    (h' : after (newer ++ older) i = .stored l') : l.SamePosting l' := by
  induction newer generalizing l' with
  | nil =>
      cases h.symm.trans h'
      exact ⟨rfl, rfl, rfl⟩
  | cons op newer ih =>
      rcases stored_of_apply h' with ⟨l₀, hl₀, hsame⟩ | ⟨hun, -⟩
      · exact (ih hl₀).trans hsame
      · exact absurd hun (ne_unissued_append (by simp [h]))

/-- **One operation conserves letters**: what is given out anew or was there before is there
after, or was taken. -/
theorem given_apply [LE τ] {m : Mailbox ι κ β ε τ} (h : op.Observed m) (i : ι) :
    (op.apply m i).given = (m i).given + (op.brings i).isSome.toNat ∧
      (op.apply m i).kept + (m i).lost (op.takes i) =
        (m i).kept + (op.brings i).isSome.toNat := by
  cases hslot : m i with
  | unissued =>
      cases hbrings : op.brings i with
      | none => simp [Op.apply, hslot, hbrings, Slot.given, Slot.kept, Slot.lost]
      | some l => simp [Op.apply, hslot, hbrings, Slot.given, Slot.kept, Slot.lost]
  | gone =>
      have hnone := brings_eq_none_of_observed h (i := i) (by simp [hslot])
      simp [apply_of_gone hslot, hnone, Slot.given, Slot.kept, Slot.lost]
  | stored l =>
      have hnone := brings_eq_none_of_observed h (i := i) (by simp [hslot])
      rcases apply_of_stored op hslot with ⟨htakes, hgone⟩ | ⟨htakes, l', hstored, -⟩
      · simp [hgone, hnone, htakes, Slot.given, Slot.kept, Slot.lost]
      · simp [hstored, hnone, htakes, Slot.given, Slot.kept, Slot.lost]

/-- **Conservation.**  Under every id at most one letter is accepted, and it is stored still or was
taken once. -/
theorem Lawful.conserved [LE τ] (h : Lawful ops) (i : ι) :
    acceptances i ops = (after ops i).given ∧
      acceptances i ops = takings i ops + (after ops i).kept := by
  induction ops with
  | nil => exact ⟨rfl, rfl⟩
  | cons op ops ih =>
      obtain ⟨hgiven, hkept⟩ := given_apply h.2 i
      obtain ⟨ihgiven, ihkept⟩ := ih h.1
      have hcount : acceptances i (op :: ops) = acceptances i ops + (op.brings i).isSome.toNat := by
        rw [acceptances, List.countP_cons]
        cases (op.brings i).isSome <;> rfl
      simp only [after, takings]
      omega

/-! ## Order -/

/-- **Boxes are emptied in order.**  A letter that was there when another one of its box was
collected, and that is collected later, did not arrive before it. -/
theorem Lawful.collected_in_order [LE τ] {box : κ} {limit limit' : Option ℕ}
    {found found' : List (ι × Letter κ β ε τ)}
    (h : Lawful (.collect box limit' found' :: (newer ++ .collect box limit found :: older)))
    {p p' : ι × Letter κ β ε τ} (hp : p ∈ found) (hp' : p' ∈ found')
    (hthere : Has (after older) p'.1) : p.2.arrived ≤ p'.2.arrived := by
  obtain ⟨hlawful, -, hholds', -⟩ := h
  obtain ⟨-, hnodup, hholds, -, hleft⟩ := hlawful.of_append
  obtain ⟨l, hl⟩ := hthere
  obtain ⟨hl', hbox'⟩ := hholds' p' hp'
  have hkept : ¬(Op.collect box limit found : Op ι κ β ε τ).takes p'.1 l = true := by
    intro htakes
    have hgone : after (.collect box limit found :: older) p'.1 = .gone := by
      simp [after, Op.apply, hl, htakes]
    cases hl'.symm.trans (gone_append newer hgone)
  have hstill : after (.collect box limit found :: older) p'.1 = .stored l := by
    simp [after, Op.apply, hl, hkept, Op.revise]
  obtain ⟨hsamebox, -, hsame⟩ := samePosting_append newer hstill hl'
  rw [hsame]
  refine (hleft p'.1 l ⟨hl, hsamebox.symm.trans hbox'⟩ ?_).2 p hp
  intro hmem
  exact hkept (decide_eq_true (List.mem_map.mpr ⟨_, hmem, rfl⟩))

end Runs

end Mailbox
