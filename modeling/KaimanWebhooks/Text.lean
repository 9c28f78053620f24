/-
# Text as the standard library of the source reads it

A text is a sequence of Unicode scalar values that is stored as UTF-8 bytes.  Its
length is counted in bytes, and a slice at a byte offset exists only when the offset
falls on a character boundary.
-/
import Mathlib.Data.List.Basic
import Mathlib.Data.List.TakeWhile
import Mathlib.Data.Nat.Digits.Defs

namespace Text

/-! ## UTF-8 lengths and slices -/

/-- The number of bytes of a text. -/
def byteLength : List Char → ℕ
  | [] => 0
  | c :: cs => c.utf8Size + byteLength cs

@[simp] theorem byteLength_nil : byteLength [] = 0 := rfl

@[simp] theorem byteLength_cons (c : Char) (cs : List Char) :
    byteLength (c :: cs) = c.utf8Size + byteLength cs := rfl

@[simp] theorem byteLength_append (a b : List Char) :
    byteLength (a ++ b) = byteLength a + byteLength b := by
  induction a with
  | nil => simp
  | cons c a ih =>
      simp only [List.cons_append, byteLength_cons, ih]
      omega

/-- `IsCharBoundary cs n`: the first `n` bytes of the text are whole characters. -/
def IsCharBoundary (cs : List Char) (n : ℕ) : Prop :=
  ∃ front back, cs = front ++ back ∧ byteLength front = n

/-- The slice `[..n]`; `none` stands for the panic when `n` is past the end or inside a
character. -/
def sliceTo : List Char → ℕ → Option (List Char)
  | _, 0 => some []
  | [], _ + 1 => none
  | c :: cs, n + 1 =>
      if c.utf8Size ≤ n + 1 then (sliceTo cs (n + 1 - c.utf8Size)).map (c :: ·) else none

/-- Every character takes at least one byte. -/
theorem byteLength_eq_zero_iff {cs : List Char} : byteLength cs = 0 ↔ cs = [] := by
  cases cs with
  | nil => simp
  | cons c cs =>
      have hc : 0 < c.utf8Size := Char.utf8Size_pos c
      simp only [byteLength_cons, reduceCtorEq, iff_false]
      omega

/-- The empty slice is at the front of every text. -/
theorem sliceTo_zero_eq_some_iff {cs front : List Char} :
    sliceTo cs 0 = some front ↔ byteLength front = 0 ∧ ∃ back, cs = front ++ back := by
  rw [show sliceTo cs 0 = some [] by cases cs <;> rfl, Option.some.injEq, byteLength_eq_zero_iff]
  constructor
  · rintro rfl
    exact ⟨rfl, cs, rfl⟩
  · rintro ⟨rfl, -⟩
    rfl

/-- A slice is the part of the text before its offset. -/
theorem sliceTo_eq_some_iff {cs front : List Char} {n : ℕ} :
    sliceTo cs n = some front ↔ byteLength front = n ∧ ∃ back, cs = front ++ back := by
  induction cs generalizing n front with
  | nil =>
      cases n with
      | zero => exact sliceTo_zero_eq_some_iff
      | succ n =>
          simp only [sliceTo, reduceCtorEq, false_iff]
          rintro ⟨hlen, back, hback⟩
          rw [(List.append_eq_nil_iff.mp hback.symm).1] at hlen
          simp at hlen
  | cons c cs ih =>
      have hc : 0 < c.utf8Size := Char.utf8Size_pos c
      cases n with
      | zero => exact sliceTo_zero_eq_some_iff
      | succ n =>
          simp only [sliceTo]
          constructor
          · intro h
            split at h
            · rename_i hle
              obtain ⟨rest, hrest, rfl⟩ := Option.map_eq_some_iff.mp h
              obtain ⟨hlen, back, rfl⟩ := ih.mp hrest
              refine ⟨?_, back, rfl⟩
              rw [byteLength_cons]
              omega
            · cases h
          · rintro ⟨hlen, back, hback⟩
            cases front with
            | nil => simp at hlen
            | cons d front =>
                simp only [List.cons_append, List.cons.injEq] at hback
                obtain ⟨rfl, rfl⟩ := hback
                rw [byteLength_cons] at hlen
                rw [if_pos (by omega), ih.mpr ⟨by omega, back, rfl⟩]
                rfl

/-- **A slice exists exactly at a character boundary.** -/
theorem isSome_sliceTo_iff (cs : List Char) (n : ℕ) :
    (sliceTo cs n).isSome ↔ IsCharBoundary cs n := by
  rw [Option.isSome_iff_exists]
  constructor
  · rintro ⟨front, h⟩
    obtain ⟨hlen, back, hback⟩ := sliceTo_eq_some_iff.mp h
    exact ⟨front, back, hback, hlen⟩
  · rintro ⟨front, back, hback, hlen⟩
    exact ⟨front, sliceTo_eq_some_iff.mpr ⟨hlen, back, hback⟩⟩

instance (cs : List Char) (n : ℕ) : Decidable (IsCharBoundary cs n) :=
  decidable_of_iff _ (isSome_sliceTo_iff cs n)

/-! ## Trimming -/

/-- The characters with the Unicode property `White_Space`. -/
def isWhitespace (c : Char) : Bool :=
  (9 ≤ c.toNat && c.toNat ≤ 13) || c.toNat == 0x20 || c.toNat == 0x85 || c.toNat == 0xA0 ||
  c.toNat == 0x1680 || (0x2000 ≤ c.toNat && c.toNat ≤ 0x200A) || c.toNat == 0x2028 ||
  c.toNat == 0x2029 || c.toNat == 0x202F || c.toNat == 0x205F || c.toNat == 0x3000

/-- The text without leading and trailing whitespace. -/
def trim (cs : List Char) : List Char :=
  ((cs.dropWhile isWhitespace).reverse.dropWhile isWhitespace).reverse

/-- Trimming a text that neither starts nor ends with whitespace changes nothing. -/
theorem trim_eq_self {cs : List Char} (hhead : ∀ c, cs.head? = some c → isWhitespace c = false)
    (hlast : ∀ c, cs.getLast? = some c → isWhitespace c = false) : trim cs = cs := by
  have hfront : cs.dropWhile isWhitespace = cs := by
    cases cs with
    | nil => rfl
    | cons c cs => simp [hhead c rfl]
  have hback : cs.reverse.dropWhile isWhitespace = cs.reverse := by
    cases hrev : cs.reverse with
    | nil => rfl
    | cons c rev =>
        have hc : cs.getLast? = some c := by
          rw [← List.head?_reverse, hrev]
          rfl
        simp [hlast c hc]
  rw [trim, hfront, hback, List.reverse_reverse]

/-! ## Splitting -/

/-- The parts of a text between the occurrences of a separator; there is always one. -/
def split (sep : Char) : List Char → List (List Char)
  | [] => [[]]
  | c :: cs =>
      if c = sep then [] :: split sep cs
      else
        match split sep cs with
        | [] => [[c]]
        | part :: parts => (c :: part) :: parts

/-- The first part: what stands before the first separator. -/
theorem head?_split (sep : Char) (cs : List Char) :
    (split sep cs).head? = some (cs.takeWhile (· ≠ sep)) := by
  induction cs with
  | nil => rfl
  | cons c cs ih =>
      by_cases hc : c = sep
      · simp [split, hc]
      · simp only [split, if_neg hc]
        cases hsplit : split sep cs with
        | nil => simp [hsplit] at ih
        | cons part parts =>
            rw [hsplit] at ih
            simp only [List.head?_cons, Option.some.injEq] at ih
            simp [hc, ih]

/-! ## Numbers -/

/-- The value of a decimal digit. -/
def digit (c : Char) : Option ℕ :=
  if '0' ≤ c ∧ c ≤ '9' then some (c.toNat - 48) else none

/-- The number a sequence of decimal digits denotes, read after `acc`. -/
def decimal : ℕ → List Char → Option ℕ
  | acc, [] => some acc
  | acc, c :: cs =>
      match digit c with
      | none => none
      | some d => decimal (10 * acc + d) cs

/-- The unsigned integers below `2 ^ 64`: an optional plus sign and at least one digit. -/
def parseU64 (cs : List Char) : Option ℕ :=
  let digits := match cs with
    | '+' :: rest => rest
    | _ => cs
  if digits.isEmpty then none
  else
    match decimal 0 digits with
    | none => none
    | some n => if n < 2 ^ 64 then some n else none

/-- One or more decimal digits and nothing else. -/
def IsNumeral (cs : List Char) : Prop := cs ≠ [] ∧ ∀ c ∈ cs, '0' ≤ c ∧ c ≤ '9'

/-- The number a numeral spells in base ten, its first digit being the highest. -/
def numeralValue (cs : List Char) : ℕ := Nat.ofDigits 10 (cs.reverse.map fun c => c.toNat - 48)

instance (cs : List Char) : Decidable (IsNumeral cs) :=
  @instDecidableAnd (cs ≠ []) (∀ c ∈ cs, '0' ≤ c ∧ c ≤ '9') inferInstance
    (List.decidableBAll _ cs)

theorem numeralValue_cons (c : Char) (cs : List Char) :
    numeralValue (c :: cs) = (c.toNat - 48) * 10 ^ cs.length + numeralValue cs := by
  simp [numeralValue, Nat.ofDigits_append, Nat.add_comm, Nat.mul_comm]

/-- What the digits denote, read after a number: a numeral is shifted below it. -/
theorem decimal_eq_some_iff {acc n : ℕ} {cs : List Char} :
    decimal acc cs = some n ↔
      (∀ c ∈ cs, '0' ≤ c ∧ c ≤ '9') ∧ n = acc * 10 ^ cs.length + numeralValue cs := by
  induction cs generalizing acc with
  | nil => simp [decimal, numeralValue, eq_comm]
  | cons c cs ih =>
      by_cases hc : '0' ≤ c ∧ c ≤ '9'
      · have hshift : (10 * acc + (c.toNat - 48)) * 10 ^ cs.length + numeralValue cs =
            acc * 10 ^ (cs.length + 1) + numeralValue (c :: cs) := by
          rw [numeralValue_cons]
          ring
        have hread : decimal acc (c :: cs) = decimal (10 * acc + (c.toNat - 48)) cs := by
          simp only [decimal, digit, if_pos hc]
        rw [hread, ih, hshift, List.forall_mem_cons, List.length_cons]
        exact and_congr_left' (and_iff_right hc).symm
      · simp [decimal, digit, hc]

/-- A plus sign does not start a numeral. -/
theorem IsNumeral.head_ne_plus {digits : List Char} : ¬IsNumeral ('+' :: digits) :=
  fun h => absurd (h.2 '+' List.mem_cons_self) (by decide)

/-- What is read after the sign is a numeral below `2 ^ 64`. -/
theorem readDigits_eq_some_iff (digits : List Char) {n : ℕ} :
    ((if digits.isEmpty then none
      else match decimal 0 digits with
        | none => none
        | some n => if n < 2 ^ 64 then some n else none) = some n) ↔
      IsNumeral digits ∧ n = numeralValue digits ∧ n < 2 ^ 64 := by
  cases hdigits : decimal 0 digits with
  | none =>
      have hnone : ∀ m, ¬decimal 0 digits = some m := by simp [hdigits]
      simp only [decimal_eq_some_iff] at hnone
      simp only [ite_self, reduceCtorEq, false_iff]
      rintro ⟨⟨-, hall⟩, -⟩
      exact hnone _ ⟨hall, rfl⟩
  | some m =>
      obtain ⟨hall, hm⟩ := decimal_eq_some_iff.mp hdigits
      rw [zero_mul, zero_add] at hm
      subst hm
      cases digits with
      | nil => simp [IsNumeral]
      | cons c cs =>
          simp only [List.isEmpty_cons, Bool.false_eq_true, if_false, IsNumeral, ne_eq,
            reduceCtorEq, not_false_eq_true, true_and]
          constructor
          · intro h
            split at h
            · obtain rfl := Option.some.inj h
              exact ⟨hall, rfl, by assumption⟩
            · cases h
          · rintro ⟨-, rfl, hlt⟩
            rw [if_pos hlt]

/-- **What is read as an unsigned integer**: a numeral below `2 ^ 64`, or one after a plus
sign. -/
theorem parseU64_eq_some_iff {cs : List Char} {n : ℕ} :
    parseU64 cs = some n ↔
      ∃ digits, (cs = digits ∨ cs = '+' :: digits) ∧ IsNumeral digits ∧
        n = numeralValue digits ∧ n < 2 ^ 64 := by
  unfold parseU64
  split
  · rename_i rest
    rw [readDigits_eq_some_iff rest]
    constructor
    · exact fun h => ⟨rest, Or.inr rfl, h⟩
    · rintro ⟨digits, rfl | heq, h⟩
      · exact absurd h.1 IsNumeral.head_ne_plus
      · obtain rfl := (List.cons.inj heq).2
        exact h
  · rename_i hnot
    rw [readDigits_eq_some_iff cs]
    constructor
    · exact fun h => ⟨cs, Or.inl rfl, h⟩
    · rintro ⟨digits, rfl | rfl, h⟩
      · exact h
      · exact absurd rfl (hnot digits)

end Text
