/-
# JSON documents and the values they denote

A document is what a JSON text spells out: its numerals as they are written, its objects with
their members in order, a name possibly more than once.  A value is what it means: numbers are
rationals, and an object is a function of the names, the last member of a name deciding.

`denote f` gives every numeral the meaning `f`.  Two meanings of the numerals give a document
the same value exactly when they agree on the numerals that count (`denote_eq_iff`), those
that no later member of the same name hides.
-/
import Mathlib.Data.Rat.Defs
import Mathlib.Data.List.Basic
import Mathlib.Logic.Basic

/-! ## Numerals -/

/-- The exponent of a numeral: its letter, its sign if one is written (`true` for minus), and its
digits. -/
structure Numeral.Exponent where
  capital : Bool
  sign : Option Bool
  digits : List (Fin 10)
  deriving DecidableEq

/-- A numeral as it is written: what stands before the point has no leading zeros, what stands
behind it may have zeros at the end, and without a point there are no digits of a fraction. -/
structure Numeral where
  negative : Bool
  whole : ℕ
  fraction : List (Fin 10)
  exponent : Option Numeral.Exponent
  deriving DecidableEq

namespace Numeral

/-- The number that digits spell behind a number. -/
def appendDigits (start : ℕ) (digits : List (Fin 10)) : ℕ :=
  digits.foldl (fun n d => 10 * n + d.val) start

/-- A power of ten. -/
def powerOfTen (e : ℤ) : ℚ := if 0 ≤ e then (10 : ℚ) ^ e.toNat else 1 / (10 : ℚ) ^ (-e).toNat

def Exponent.value (e : Exponent) : ℤ :=
  if e.sign = some true then -(appendDigits 0 e.digits : ℤ) else appendDigits 0 e.digits

/-- The digits before and behind the point, with the sign. -/
def mantissa (n : Numeral) : ℤ :=
  if n.negative then -(appendDigits n.whole n.fraction : ℤ) else appendDigits n.whole n.fraction

/-- Where the point belongs. -/
def scale (n : Numeral) : ℤ := (n.exponent.map Exponent.value).getD 0 - n.fraction.length

/-- The number a numeral spells. -/
def toRat (n : Numeral) : ℚ := n.mantissa * powerOfTen n.scale

/-- The integer that is written without point and exponent; the negative zero is none. -/
def integer? (n : Numeral) : Option ℤ :=
  if n.fraction = [] ∧ n.exponent = none ∧ ¬(n.negative ∧ n.whole = 0) then
    some (if n.negative then -(n.whole : ℤ) else n.whole)
  else none

/-- The digits of an integer. -/
def ofInt (k : ℤ) : Numeral := ⟨decide (k < 0), k.natAbs, [], none⟩

/-- What is written without point and exponent is the integer. -/
theorem toRat_eq_of_integer? {n : Numeral} {k : ℤ} (h : n.integer? = some k) : n.toRat = k := by
  obtain ⟨negative, whole, fraction, exponent⟩ := n
  unfold integer? at h
  split at h
  · next hplain =>
    obtain ⟨rfl, rfl, -⟩ := hplain
    cases h
    simp [toRat, mantissa, scale, appendDigits, powerOfTen]
  · cases h

theorem toRat_ofInt (k : ℤ) : (ofInt k).toRat = k := by
  have hmantissa : (ofInt k).mantissa = k := by
    simp only [mantissa, ofInt, appendDigits, List.foldl_nil, decide_eq_true_eq]
    split <;> omega
  rw [toRat, hmantissa]
  simp [scale, ofInt, powerOfTen]

end Numeral

/-! ## Documents -/

inductive Document : Type where
  | null
  | bool (b : Bool)
  | number (n : Numeral)
  | string (s : String)
  | array (items : List Document)
  | object (members : List (String × Document))

/-- A JSON value; an object gives a value to some of the names. -/
inductive DocumentValue : Type where
  | null
  | bool (b : Bool)
  | number (q : ℚ)
  | string (s : String)
  | array (items : List DocumentValue)
  | object (members : String → Option DocumentValue)

namespace Document

/-! ## Denotation -/

section Denote

variable (f : Numeral → DocumentValue)

mutual

/-- The value of a document in which a numeral `n` means `f n`. -/
def denote : Document → DocumentValue
  | .null => .null
  | .bool b => .bool b
  | .number n => f n
  | .string s => .string s
  | .array items => .array (denoteItems items)
  | .object members => .object (denoteMembers members)

def denoteItems : List Document → List DocumentValue
  | [] => []
  | item :: items => denote item :: denoteItems items

/-- The value under a name: that of its last member. -/
def denoteMembers : List (String × Document) → String → Option DocumentValue
  | [], _ => none
  | (name, item) :: members, key =>
      match denoteMembers members key with
      | some value => some value
      | none => if name = key then some (denote item) else none

end

end Denote

/-- The JSON value of a document. -/
def value (doc : Document) : DocumentValue := doc.denote fun n => .number n.toRat

section Members

variable {f : Numeral → DocumentValue}

/-- A name has a value when there is a member of this name. -/
theorem denoteMembers_eq_none_iff {members : List (String × Document)} {key : String} :
    denoteMembers f members key = none ↔ key ∉ members.map Prod.fst := by
  induction members with
  | nil => simp [denoteMembers]
  | cons member members ih =>
      obtain ⟨name, item⟩ := member
      rw [denoteMembers, List.map_cons, List.mem_cons, not_or, ← ih]
      cases denoteMembers f members key with
      | some value => simp
      | none =>
          by_cases hname : name = key
          · simp [hname]
          · simp [hname, Ne.symm hname]

/-- A member that no later one hides decides its name. -/
theorem denoteMembers_cons_self {name : String} {item : Document}
    {members : List (String × Document)} (h : name ∉ members.map Prod.fst) :
    denoteMembers f ((name, item) :: members) name = some (denote f item) := by
  rw [denoteMembers, denoteMembers_eq_none_iff.mpr h]
  exact if_pos rfl

/-- A later member decides its name. -/
theorem denoteMembers_cons_of_mem {name key : String} {item : Document}
    {members : List (String × Document)} (h : key ∈ members.map Prod.fst) :
    denoteMembers f ((name, item) :: members) key = denoteMembers f members key := by
  rw [denoteMembers]
  cases hvalue : denoteMembers f members key with
  | some value => rfl
  | none => exact absurd h (denoteMembers_eq_none_iff.mp hvalue)

theorem denoteMembers_cons_of_ne {name key : String} (h : name ≠ key) {item : Document}
    {members : List (String × Document)} :
    denoteMembers f ((name, item) :: members) key = denoteMembers f members key := by
  rw [denoteMembers]
  cases denoteMembers f members key with
  | some value => rfl
  | none => exact if_neg h

/-- Where names are not repeated, every member decides its name. -/
theorem denoteMembers_of_mem {members : List (String × Document)}
    (hnodup : (members.map Prod.fst).Nodup) {name : String} {item : Document}
    (h : (name, item) ∈ members) : denoteMembers f members name = some (denote f item) := by
  induction members with
  | nil => cases h
  | cons member members ih =>
      rw [List.map_cons, List.nodup_cons] at hnodup
      rcases List.mem_cons.mp h with rfl | h
      · exact denoteMembers_cons_self hnodup.1
      · have hname : name ∈ members.map Prod.fst := List.mem_map_of_mem h
        rw [denoteMembers_cons_of_mem hname]
        exact ih hnodup.2 h

end Members

/-! ## The numerals that count -/

section Effective

variable (P : Numeral → Prop)

mutual

/-- Every numeral satisfies `P`, but for those in members that a later one hides. -/
def ForEffective : Document → Prop
  | .number n => P n
  | .array items => ForEffectiveItems items
  | .object members => ForEffectiveMembers members
  | .null => True
  | .bool _ => True
  | .string _ => True

def ForEffectiveItems : List Document → Prop
  | [] => True
  | item :: items => ForEffective item ∧ ForEffectiveItems items

def ForEffectiveMembers : List (String × Document) → Prop
  | [] => True
  | (name, item) :: members =>
      (name ∈ members.map Prod.fst ∨ ForEffective item) ∧ ForEffectiveMembers members

end

end Effective

mutual

/-- Conditions that agree on every numeral hold alike. -/
theorem forEffective_congr {P Q : Numeral → Prop} (h : ∀ n, P n ↔ Q n) :
    ∀ doc : Document, ForEffective P doc ↔ ForEffective Q doc
  | .null => Iff.rfl
  | .bool _ => Iff.rfl
  | .number n => h n
  | .string _ => Iff.rfl
  | .array items => forEffectiveItems_congr h items
  | .object members => forEffectiveMembers_congr h members

theorem forEffectiveItems_congr {P Q : Numeral → Prop} (h : ∀ n, P n ↔ Q n) :
    ∀ items : List Document, ForEffectiveItems P items ↔ ForEffectiveItems Q items
  | [] => Iff.rfl
  | item :: items => and_congr (forEffective_congr h item) (forEffectiveItems_congr h items)

theorem forEffectiveMembers_congr {P Q : Numeral → Prop} (h : ∀ n, P n ↔ Q n) :
    ∀ members : List (String × Document), ForEffectiveMembers P members ↔
      ForEffectiveMembers Q members
  | [] => Iff.rfl
  | (_, item) :: members =>
      and_congr (or_congr_right (forEffective_congr h item)) (forEffectiveMembers_congr h members)

end

section Agree

variable {f g : Numeral → DocumentValue}

/-- The values of the members agree under every name when those behind the first do and the
first one is hidden or agrees. -/
theorem denoteMembers_cons_eq_iff {name : String} {item : Document}
    {members : List (String × Document)} :
    denoteMembers f ((name, item) :: members) = denoteMembers g ((name, item) :: members) ↔
      (name ∈ members.map Prod.fst ∨ denote f item = denote g item) ∧
        denoteMembers f members = denoteMembers g members := by
  by_cases hname : name ∈ members.map Prod.fst
  · have hhidden : ∀ h : Numeral → DocumentValue,
        denoteMembers h ((name, item) :: members) = denoteMembers h members := by
      intro h
      funext key
      by_cases hkey : name = key
      · exact denoteMembers_cons_of_mem (hkey ▸ hname)
      · exact denoteMembers_cons_of_ne hkey
    rw [hhidden f, hhidden g]
    exact (and_iff_right (Or.inl hname)).symm
  · rw [or_iff_right hname]
    constructor
    · intro h
      have hitem := congrFun h name
      rw [denoteMembers_cons_self hname, denoteMembers_cons_self hname] at hitem
      refine ⟨Option.some.inj hitem, funext fun key => ?_⟩
      by_cases hkey : name = key
      · subst hkey
        rw [denoteMembers_eq_none_iff.mpr hname, denoteMembers_eq_none_iff.mpr hname]
      · have hrest := congrFun h key
        rwa [denoteMembers_cons_of_ne hkey, denoteMembers_cons_of_ne hkey] at hrest
    · rintro ⟨hitem, hrest⟩
      funext key
      by_cases hkey : name = key
      · subst hkey
        rw [denoteMembers_cons_self hname, denoteMembers_cons_self hname, hitem]
      · rw [denoteMembers_cons_of_ne hkey, denoteMembers_cons_of_ne hkey, hrest]

mutual

/-- **Two meanings of the numerals give a document one value** exactly when they agree on the
numerals that count. -/
theorem denote_eq_iff :
    ∀ doc : Document, denote f doc = denote g doc ↔ ForEffective (fun n => f n = g n) doc
  | .null => by simp [denote, ForEffective]
  | .bool b => by simp [denote, ForEffective]
  | .number n => Iff.rfl
  | .string s => by simp [denote, ForEffective]
  | .array items => by
      rw [denote, denote, ForEffective, ← denoteItems_eq_iff items, DocumentValue.array.injEq]
  | .object members => by
      rw [denote, denote, ForEffective, ← denoteMembers_eq_iff members, DocumentValue.object.injEq]

theorem denoteItems_eq_iff :
    ∀ items : List Document, denoteItems f items = denoteItems g items ↔
      ForEffectiveItems (fun n => f n = g n) items
  | [] => by simp [denoteItems, ForEffectiveItems]
  | item :: items => by
      rw [denoteItems, denoteItems, ForEffectiveItems, List.cons.injEq, denote_eq_iff item,
        denoteItems_eq_iff items]

theorem denoteMembers_eq_iff :
    ∀ members : List (String × Document), denoteMembers f members = denoteMembers g members ↔
      ForEffectiveMembers (fun n => f n = g n) members
  | [] => by simp [denoteMembers, ForEffectiveMembers]
  | (name, item) :: members => by
      rw [ForEffectiveMembers, denoteMembers_cons_eq_iff, denote_eq_iff item,
        denoteMembers_eq_iff members]

end

end Agree

end Document
