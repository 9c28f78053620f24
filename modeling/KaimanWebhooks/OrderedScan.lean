/-
# Ordered scans whose ties are open

A query with an `ORDER BY` fixes the order of its result only up to ties, and a
query without one does not fix it at all.  What is left open is a `Shuffle`: any
function that permutes the rows it is given.  Sorting the shuffled rows with a
stable sort reaches only orders the query allows (`orderBy_perm`, `orderBy_pairwise`), and
rows that tie stay in the order the shuffle put them in (`orderBy_ties`).
-/
import Mathlib.Data.List.Sort

/-- A choice of order: a function that permutes every list it is given. -/
structure Shuffle (α : Type) where
  order : List α → List α
  perm : ∀ l, (order l).Perm l

namespace Shuffle

variable {α : Type}

/-- The choice that changes nothing. -/
def unchanged : Shuffle α := ⟨id, fun l => List.Perm.refl l⟩

@[simp] theorem mem_order (σ : Shuffle α) {l : List α} {a : α} : a ∈ σ.order l ↔ a ∈ l :=
  (σ.perm l).mem_iff

@[simp] theorem length_order (σ : Shuffle α) (l : List α) :
    (σ.order l).length = l.length := (σ.perm l).length_eq

end Shuffle

section OrderBy

variable {α : Type} (r : α → α → Prop) [DecidableRel r] (σ : Shuffle α)

/-- The rows `l` sorted by `r`, ties in the order `σ` puts them. -/
def orderBy (l : List α) : List α := (σ.order l).insertionSort r

theorem orderBy_perm (l : List α) : (orderBy r σ l).Perm l :=
  (List.perm_insertionSort r _).trans (σ.perm l)

@[simp] theorem mem_orderBy {l : List α} {a : α} : a ∈ orderBy r σ l ↔ a ∈ l :=
  (orderBy_perm r σ l).mem_iff

@[simp] theorem length_orderBy (l : List α) : (orderBy r σ l).length = l.length :=
  (orderBy_perm r σ l).length_eq

variable [Std.Total r] [IsTrans α r]

theorem orderBy_pairwise (l : List α) : (orderBy r σ l).Pairwise r :=
  List.pairwise_insertionSort r _

/-- Every row a `LIMIT` keeps comes before every row it leaves out. -/
theorem rel_of_mem_take_of_mem_drop {l : List α} {n : ℕ} {a b : α}
    (ha : a ∈ (orderBy r σ l).take n) (hb : b ∈ (orderBy r σ l).drop n) : r a b := by
  have hpair := orderBy_pairwise r σ l
  rw [← List.take_append_drop n (orderBy r σ l), List.pairwise_append] at hpair
  exact hpair.2.2 a ha b hb

/-- The first row of an ordered scan is below every row scanned. -/
theorem rel_of_head?_orderBy {l : List α} {a b : α} (ha : (orderBy r σ l).head? = some a)
    (hb : b ∈ l) : r a b := by
  have hpair := orderBy_pairwise r σ l
  have hb' : b ∈ orderBy r σ l := (mem_orderBy r σ).mpr hb
  cases hscan : orderBy r σ l with
  | nil => simp [hscan] at ha
  | cons x xs =>
      rw [hscan] at hpair hb' ha
      simp only [List.head?_cons, Option.some.injEq] at ha
      subst ha
      rcases List.mem_cons.mp hb' with rfl | hb'
      · exact (Std.Total.total b b).elim id id
      · exact List.rel_of_pairwise_cons hpair hb'

omit [Std.Total r] [IsTrans α r] in
/-- Inserting a row in front of the rows it ties with keeps the order of ties. -/
theorem orderedInsert_ties {R : α → α → Prop} {a : α} {l : List α}
    (ha : ∀ b ∈ l, r a b → r b a → R a b) (hl : l.Pairwise fun b c => r b c → r c b → R b c) :
    (l.orderedInsert r a).Pairwise fun b c => r b c → r c b → R b c := by
  induction l with
  | nil => exact List.pairwise_singleton _ a
  | cons b l ih =>
      rw [List.orderedInsert_cons]
      split
      · exact List.Pairwise.cons ha hl
      · rename_i hab
        obtain ⟨hb, hl⟩ := List.pairwise_cons.mp hl
        refine List.Pairwise.cons ?_ (ih (fun c hc => ha c (List.mem_cons_of_mem _ hc)) hl)
        intro c hc
        rcases (List.mem_orderedInsert r).mp hc with rfl | hc
        · exact fun _ hcb => absurd hcb hab
        · exact hb c hc

omit [Std.Total r] [IsTrans α r] in
/-- **Rows that tie stand as the shuffle puts them.** -/
theorem orderBy_ties {R : α → α → Prop} {l : List α}
    (h : (σ.order l).Pairwise fun a b => r a b → r b a → R a b) :
    (orderBy r σ l).Pairwise fun a b => r a b → r b a → R a b := by
  unfold orderBy
  generalize σ.order l = rows at h
  induction rows with
  | nil => exact List.Pairwise.nil
  | cons a l ih =>
      obtain ⟨ha, hl⟩ := List.pairwise_cons.mp h
      rw [List.insertionSort_cons]
      exact orderedInsert_ties r (fun b hb => ha b ((List.mem_insertionSort r).mp hb)) (ih hl)

end OrderBy
