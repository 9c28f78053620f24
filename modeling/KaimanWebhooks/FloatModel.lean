/-
# Floating-point numbers seen through their rounding

`F64` is a rational number, an infinity or not a number.  A `FloatModel` says how
the machine rounds: `round` is the rounding of an exact result, `powf` the library's
power function, and `nanos` the rounding of a number of seconds to the granularity
of a duration.  The arithmetic below is IEEE arithmetic for that rounding, and its
laws are the few facts every such rounding has: it is monotone and idempotent, and a
number of at most 53 binary digits whose exponent is in range is not rounded.

`FloatModel.exact` rounds nothing: under it the arithmetic is exact rational
arithmetic.  What is proved for every model holds of it, and of every machine whose
rounding, power function and durations have these laws, as those of binary64 do.
-/
import Mathlib.Data.Rat.Floor
import Mathlib.Data.Int.Log
import Mathlib.Order.Monotone.Basic
import Mathlib.Tactic.Positivity
import Mathlib.Tactic.Linarith

/-- A floating-point number; `inf true` is negative infinity. -/
inductive F64 : Type where
  | finite (q : ℚ)
  | inf (negative : Bool)
  | nan
  deriving DecidableEq

namespace F64

/-- Neither infinite nor not a number. -/
def isFinite : F64 → Bool
  | .finite _ => true
  | _ => false

/-- The comparison `≤`; false when an argument is not a number. -/
def le : F64 → F64 → Bool
  | .nan, _ => false
  | _, .nan => false
  | .inf true, _ => true
  | _, .inf false => true
  | .finite a, .finite b => decide (a ≤ b)
  | .inf false, _ => false
  | .finite _, .inf true => false

/-- The comparison `<`; false when an argument is not a number. -/
def lt (a b : F64) : Bool := a.le b && !b.le a

/-- The negation, which is exact. -/
def neg : F64 → F64
  | .finite q => .finite (-q)
  | .inf b => .inf !b
  | .nan => .nan

/-- The larger argument; the other one when an argument is not a number. -/
def max : F64 → F64 → F64
  | .nan, b => b
  | a, .nan => a
  | a, b => if a.le b then b else a

/-- The value forced into `[lo, hi]`; not a number stays so. -/
def clamp (x lo hi : F64) : F64 :=
  let y := if x.lt lo then lo else x
  if hi.lt y then hi else y

@[simp] theorem le_finite (a b : ℚ) : (finite a).le (finite b) = decide (a ≤ b) := rfl

@[simp] theorem lt_finite (a b : ℚ) : (finite a).lt (finite b) = decide (a < b) := by
  by_cases h : b ≤ a
  · simp [lt, h, not_lt.mpr h]
  · simp [lt, h, not_le.mp h, (not_le.mp h).le]

@[simp] theorem isFinite_finite (q : ℚ) : (finite q).isFinite = true := rfl

theorem clamp_finite (q : ℚ) :
    (finite q).clamp (finite 0) (finite 1) = finite (Max.max 0 (min q 1)) := by
  unfold clamp
  by_cases h0 : q < 0
  · have hmin : min q 1 = q := min_eq_left (by linarith)
    simp [h0, hmin, h0.le]
  · by_cases h1 : 1 < q
    · simp [h0, h1, h1.le]
    · simp [h0, h1, not_lt.mp h1, not_lt.mp h0]

/-- A value forced into the unit interval lies there, unless it is not a number. -/
theorem clamp_unit (x : F64) :
    x.clamp (finite 0) (finite 1) = nan ∨
      ∃ u, x.clamp (finite 0) (finite 1) = finite u ∧ 0 ≤ u ∧ u ≤ 1 := by
  cases x with
  | finite q =>
      right
      by_cases h0 : q < 0
      · exact ⟨0, by simp [clamp, h0], le_rfl, zero_le_one⟩
      · by_cases h1 : 1 < q
        · exact ⟨1, by simp [clamp, h0, h1], zero_le_one, le_rfl⟩
        · exact ⟨q, by simp [clamp, h0, h1], not_lt.mp h0, not_lt.mp h1⟩
  | inf negative =>
      right
      cases negative with
      | true => exact ⟨0, by decide +kernel, le_rfl, zero_le_one⟩
      | false => exact ⟨1, by decide +kernel, zero_le_one, le_rfl⟩
  | nan => exact Or.inl rfl

/-- Between two finite numbers there are only finite numbers. -/
theorem exists_finite_of_le {x : F64} {a b : ℚ} (ha : (finite a).le x = true)
    (hb : x.le (finite b) = true) : ∃ q, x = finite q ∧ a ≤ q ∧ q ≤ b := by
  cases x with
  | finite q => exact ⟨q, rfl, by simpa using ha, by simpa using hb⟩
  | inf n => cases n <;> simp [le] at ha hb
  | nan => simp [le] at hb

/-- What is not below a finite number is finite or positive infinity, when it is at least
some number at all. -/
theorem nonneg_cases {x : F64} (h : (finite 0).le x = true) :
    (∃ q, x = finite q ∧ 0 ≤ q) ∨ x = inf false := by
  cases x with
  | finite q => exact Or.inl ⟨q, rfl, by simpa using h⟩
  | inf n =>
      cases n with
      | true => simp [le] at h
      | false => exact Or.inr rfl
  | nan => simp [le] at h

end F64

/-- A duration, in seconds. -/
abbrev Duration : Type := ℚ

namespace Duration

/-- The largest duration: `u64::MAX` seconds and 999 999 999 nanoseconds. -/
def maxValue : Duration := 2 ^ 64 - 1 / 10 ^ 9

def fromSecs (secs : ℕ) : Duration := secs

def fromMillis (millis : ℕ) : Duration := millis / 1000

/-- The whole seconds of a duration. -/
def asSecs (d : Duration) : ℕ := ⌊d⌋.toNat

@[simp] theorem asSecs_fromSecs (n : ℕ) : asSecs (fromSecs n) = n := by
  have h : ⌊((n : ℕ) : ℚ)⌋ = (n : ℤ) := Int.floor_natCast n
  simp [asSecs, fromSecs, h]

theorem asSecs_mono {a b : Duration} (h : a ≤ b) : asSecs a ≤ asSecs b :=
  Int.toNat_le_toNat (Int.floor_le_floor h)

end Duration

/-- A machine's floating-point arithmetic, by what it does to an exact result. -/
structure FloatModel where
  round : ℚ → F64
  powf : F64 → F64 → F64
  nanos : ℚ → ℚ
  round_mono : ∀ {a b : ℚ}, a ≤ b → (round a).le (round b) = true
  round_exact : ∀ m e : ℤ, |m| ≤ 2 ^ 53 → -1022 ≤ e → e ≤ 970 →
    round (m * 2 ^ e) = .finite (m * 2 ^ e)
  round_round : ∀ {q r : ℚ}, round q = .finite r → round r = .finite r
  powf_nonneg : ∀ {m : ℚ} (n : ℕ), 0 ≤ m →
    (F64.finite 0).le (powf (.finite m) (.finite n)) = true
  nanos_mono : Monotone nanos
  nanos_exact : ∀ k : ℕ, nanos (k / 10 ^ 9) = k / 10 ^ 9

namespace FloatModel

/-! ## Arithmetic -/

section Arithmetic

variable (fm : FloatModel)

def add : F64 → F64 → F64
  | .nan, _ => .nan
  | _, .nan => .nan
  | .inf a, .inf b => if a = b then .inf a else .nan
  | .inf a, .finite _ => .inf a
  | .finite _, .inf b => .inf b
  | .finite a, .finite b => fm.round (a + b)

def sub (x y : F64) : F64 := fm.add x y.neg

def mul : F64 → F64 → F64
  | .nan, _ => .nan
  | _, .nan => .nan
  | .inf a, .inf b => .inf (a != b)
  | .inf a, .finite q => if q = 0 then .nan else .inf (a != decide (q < 0))
  | .finite q, .inf a => if q = 0 then .nan else .inf (a != decide (q < 0))
  | .finite a, .finite b => fm.round (a * b)

/-- Division by a finite number that is not zero. -/
def divBy (x : F64) (q : ℚ) : F64 :=
  match x with
  | .nan => .nan
  | .inf a => .inf (a != decide (q < 0))
  | .finite p => fm.round (p / q)

/-! ## Conversions between durations and numbers -/

/-- `Duration::as_secs_f64`: the seconds plus the nanoseconds divided by a billion. -/
def asSecsF64 (d : Duration) : F64 :=
  fm.add (fm.round ⌊d⌋) (fm.divBy (fm.round ((d - ⌊d⌋) * 10 ^ 9)) (10 ^ 9))

/-- `Duration::from_secs_f64`; `none` stands for its panic on a number that is negative,
not finite or at least `2 ^ 64`. -/
def fromSecsF64 : F64 → Option Duration
  | .finite q => if q < 0 ∨ 2 ^ 64 ≤ q then none else some (fm.nanos q)
  | _ => none

end Arithmetic

variable {fm : FloatModel}

/-- A whole number up to `2 ^ 53` times a power of two is not rounded. -/
theorem round_mul_two_pow (n k : ℕ) (hn : n ≤ 2 ^ 53) (hk : k ≤ 64) :
    fm.round (n * 2 ^ k) = .finite (n * 2 ^ k) := by
  have hexact := fm.round_exact n k (by rw [abs_of_nonneg (by positivity)]; exact_mod_cast hn)
    (by omega) (by omega)
  simpa using hexact

/-- Whole numbers up to `2 ^ 53` are not rounded. -/
theorem round_nat (n : ℕ) (h : n ≤ 2 ^ 53) : fm.round n = .finite n := by
  have hexact := fm.round_mul_two_pow n 0 h (by norm_num)
  simpa using hexact

/-- Powers of two are not rounded. -/
theorem round_two_pow (k : ℕ) (h : k ≤ 64) : fm.round (2 ^ k) = .finite (2 ^ k) := by
  have hexact := fm.round_mul_two_pow 1 k (by norm_num) h
  simpa using hexact

@[simp] theorem round_zero : fm.round 0 = .finite 0 := by
  have h := fm.round_nat 0 (by norm_num)
  simpa using h

/-- Whole seconds are not rounded. -/
theorem nanos_nat (n : ℕ) : fm.nanos n = n := by
  have h := fm.nanos_exact (n * 10 ^ 9)
  rwa [Nat.cast_mul, Nat.cast_pow, Nat.cast_ofNat, mul_div_cancel_right₀ _ (by norm_num)] at h

@[simp] theorem nanos_zero : fm.nanos 0 = 0 := by
  have h := fm.nanos_nat 0
  simpa using h

/-- The conversion of whole seconds rounds them once. -/
theorem asSecsF64_fromSecs (n : ℕ) :
    fm.asSecsF64 (Duration.fromSecs n) = fm.add (fm.round n) (.finite 0) := by
  have h : ⌊((n : ℕ) : ℚ)⌋ = (n : ℤ) := Int.floor_natCast n
  simp [asSecsF64, Duration.fromSecs, h, divBy]

theorem fromSecsF64_eq_none_iff (x : F64) :
    fm.fromSecsF64 x = none ↔ x.lt (.finite 0) = true ∨ x.lt (.finite (2 ^ 64)) = false := by
  cases x with
  | finite q =>
      simp only [fromSecsF64, ite_eq_left_iff, reduceCtorEq, imp_false, not_not, F64.lt_finite,
        decide_eq_true_eq, decide_eq_false_iff_not, not_lt]
  | inf n => cases n <;> simp [fromSecsF64, F64.lt, F64.le]
  | nan => simp [fromSecsF64, F64.lt, F64.le]

/-- A number of seconds in `[0, 2 ^ 64)` is a duration. -/
theorem fromSecsF64_finite {q : ℚ} (h0 : 0 ≤ q) (h1 : q < 2 ^ 64) :
    fm.fromSecsF64 (.finite q) = some (fm.nanos q) := by
  rw [fromSecsF64, if_neg (by simp [not_lt.mpr h0, h1])]

theorem nanos_nonneg {q : ℚ} (h : 0 ≤ q) : 0 ≤ fm.nanos q := by
  have hmono := fm.nanos_mono h
  simpa using hmono

/-- Rounding stays between two numbers that are not rounded. -/
theorem exists_round_between {a q b : ℚ} (ha : a ≤ q) (hb : q ≤ b)
    (hexactA : fm.round a = .finite a) (hexactB : fm.round b = .finite b) :
    ∃ r, fm.round q = .finite r ∧ a ≤ r ∧ r ≤ b := by
  have hlow := fm.round_mono ha
  have hhigh := fm.round_mono hb
  rw [hexactA] at hlow
  rw [hexactB] at hhigh
  exact F64.exists_finite_of_le hlow hhigh

/-- Rounding stays between zero and a number that is not rounded. -/
theorem exists_round_eq {q b : ℚ} (h0 : 0 ≤ q) (hb : q ≤ b) (hexact : fm.round b = .finite b) :
    ∃ r, fm.round q = .finite r ∧ 0 ≤ r ∧ r ≤ b :=
  exists_round_between h0 hb round_zero hexact

/-! ## The relative error of a rounding -/

theorem round_half_pow (j : ℕ) (hj : j ≤ 100) : fm.round ((1 / 2) ^ j) = .finite ((1 / 2) ^ j) := by
  have hexact := fm.round_exact 1 (-j) (by norm_num) (by omega) (by omega)
  simpa using hexact

section Apart

variable {x y e f : ℚ}

/-- A number that is zero or above a bound is not negative. -/
theorem nonneg_of_apart (he : 0 ≤ e) (hx : x = 0 ∨ e ≤ x) : 0 ≤ x := by
  rcases hx with rfl | hx
  · exact le_rfl
  · exact he.trans hx

theorem natCast_apart (m : ℕ) : (m : ℚ) = 0 ∨ (1 : ℚ) ≤ m := by
  rcases Nat.eq_zero_or_pos m with rfl | hm
  · exact Or.inl Nat.cast_zero
  · exact Or.inr (by exact_mod_cast hm)

theorem natCast_div_apart (m : ℕ) (hx : 0 < x) (he : e * x ≤ 1) :
    (m : ℚ) / x = 0 ∨ e ≤ m / x := by
  rcases natCast_apart m with hzero | hone
  · exact Or.inl (by rw [hzero, zero_div])
  · right
    rw [le_div_iff₀ hx]
    exact he.trans hone

theorem add_apart (he : 0 ≤ e) (hx : x = 0 ∨ e ≤ x) (hy : y = 0 ∨ e ≤ y) :
    x + y = 0 ∨ e ≤ x + y := by
  rcases hx with rfl | hx
  · rwa [zero_add]
  · exact Or.inr (le_add_of_le_of_nonneg hx (nonneg_of_apart he hy))

theorem mul_apart (he : 0 ≤ e) (hf : 0 ≤ f) (hx : x = 0 ∨ e ≤ x) (hy : y = 0 ∨ f ≤ y) :
    x * y = 0 ∨ e * f ≤ x * y := by
  rcases hx with rfl | hx
  · exact Or.inl (zero_mul y)
  · rcases hy with rfl | hy
    · exact Or.inl (mul_zero x)
    · exact Or.inr (mul_le_mul hx hy hf (he.trans hx))

end Apart

/-- **One rounding adds at most one part in `2 ^ 52`** to a number that is zero or not too
close to it. -/
theorem exists_round_le_mul {q : ℚ} {j : ℕ} (hj : j ≤ 100) (hq : q = 0 ∨ (1 / 2) ^ j ≤ q)
    (hq1 : q ≤ 2 ^ 100) :
    ∃ r, fm.round q = .finite r ∧ (r = 0 ∨ (1 / 2) ^ j ≤ r) ∧ r ≤ q * (1 + 1 / 2 ^ 52) := by
  rcases hq with rfl | hlow
  · exact ⟨0, round_zero, Or.inl rfl, by simp⟩
  · have hpos : 0 < q := lt_of_lt_of_le (by positivity) hlow
    -- the number lies between two neighbours `m * 2 ^ e` and `(m + 1) * 2 ^ e`
    generalize hlog : Int.log 2 q = l
    have hbelow : (2 : ℚ) ^ l ≤ q := by
      rw [← hlog]
      exact_mod_cast Int.zpow_log_le_self (b := 2) (by norm_num) hpos
    have habove : q < (2 : ℚ) ^ (l + 1) := by
      rw [← hlog]
      exact_mod_cast Int.lt_zpow_succ_log_self (b := 2) (by norm_num) q
    have hl0 : -100 ≤ l := by
      rw [← hlog, ← Int.zpow_le_iff_le_log (by norm_num) hpos]
      have hpow : ((1 : ℚ) / 2) ^ 100 ≤ (1 / 2) ^ j :=
        pow_le_pow_of_le_one (by norm_num) (by norm_num) hj
      have hzpow : ((2 : ℕ) : ℚ) ^ (-100 : ℤ) = (1 / 2) ^ 100 := by norm_num
      rw [hzpow]
      exact hpow.trans hlow
    have hl1 : l ≤ 100 := by
      have hlt : (2 : ℚ) ^ l ≤ 2 ^ (100 : ℤ) := hbelow.trans (by exact_mod_cast hq1)
      exact (zpow_le_zpow_iff_right₀ (by norm_num)).mp hlt
    have hunit : (0 : ℚ) < 2 ^ (l - 52) := zpow_pos (by norm_num) _
    have hscale : (2 : ℚ) ^ l = 2 ^ 52 * 2 ^ (l - 52) := by
      rw [← zpow_natCast, ← zpow_add₀ (by norm_num)]
      congr 1
      omega
    have hscale' : (2 : ℚ) ^ (l + 1) = 2 ^ 53 * 2 ^ (l - 52) := by
      rw [← zpow_natCast, ← zpow_add₀ (by norm_num)]
      congr 1
      omega
    have hceil : q ≤ ⌈q / 2 ^ (l - 52)⌉ * 2 ^ (l - 52) := by
      rw [← div_le_iff₀ hunit]
      exact Int.le_ceil _
    have hceil1 : (⌈q / 2 ^ (l - 52)⌉ : ℚ) * 2 ^ (l - 52) ≤ q + 2 ^ (l - 52) := by
      have hlt := (Int.ceil_lt_add_one (q / 2 ^ (l - 52))).le
      calc (⌈q / 2 ^ (l - 52)⌉ : ℚ) * 2 ^ (l - 52)
          ≤ (q / 2 ^ (l - 52) + 1) * 2 ^ (l - 52) := mul_le_mul_of_nonneg_right hlt hunit.le
        _ = q + 2 ^ (l - 52) := by rw [add_mul, div_mul_cancel₀ _ hunit.ne', one_mul]
    have hmantissa : |⌈q / 2 ^ (l - 52)⌉| ≤ 2 ^ 53 := by
      rw [abs_of_nonneg (Int.ceil_nonneg (div_pos hpos hunit).le), Int.ceil_le, div_le_iff₀ hunit]
      push_cast
      linarith
    obtain ⟨r, hr, hr0, hr1⟩ := exists_round_between hlow hceil (fm.round_half_pow j hj)
      (fm.round_exact _ (l - 52) hmantissa (by omega) (by omega))
    refine ⟨r, hr, Or.inr hr0, ?_⟩
    have hulp : (2 : ℚ) ^ (l - 52) ≤ q * (1 / 2 ^ 52) := by
      rw [hscale] at hbelow
      linarith
    linarith

/-! ## Conversions of durations -/

theorem round_neg_one : fm.round (-1) = .finite (-1) := by
  have h := fm.round_exact (-1) 0 (by norm_num) (by norm_num) (by norm_num)
  simpa using h

theorem round_one : fm.round 1 = .finite 1 := by
  have h := fm.round_nat 1 (by norm_num)
  simpa using h

/-- The part of a duration below one second stays between zero and one. -/
theorem exists_fraction {f : ℚ} (h0 : 0 ≤ f) (h1 : f ≤ 1) :
    ∃ r, fm.divBy (fm.round (f * 10 ^ 9)) (10 ^ 9) = .finite r ∧ 0 ≤ r ∧ r ≤ 1 := by
  have hbillion : fm.round (10 ^ 9) = .finite (10 ^ 9) := by
    have h := fm.round_nat (10 ^ 9) (by norm_num)
    exact_mod_cast h
  obtain ⟨a, ha, ha0, ha1⟩ : ∃ r, fm.round (f * 10 ^ 9) = .finite r ∧ 0 ≤ r ∧ r ≤ 10 ^ 9 :=
    exists_round_eq (by positivity) (by linarith) hbillion
  have hquot : a / 10 ^ 9 ≤ 1 := by
    rw [div_le_one (by positivity)]
    exact ha1
  rw [ha]
  exact exists_round_eq (by positivity) hquot fm.round_one

/-- The conversion of a duration whose whole seconds are at most `b` is at most `c`, when neither
is rounded and `c` leaves room for the fraction of a second. -/
theorem exists_asSecsF64_le_of_floor {d : Duration} {b c : ℚ} (h0 : 0 ≤ d) (h1 : (⌊d⌋ : ℚ) ≤ b)
    (hb : fm.round b = .finite b) (hc : fm.round c = .finite c) (hbc : b + 1 ≤ c) :
    ∃ r, fm.asSecsF64 d = .finite r ∧ 0 ≤ r ∧ r ≤ c := by
  have hfloor0 : (0 : ℚ) ≤ (⌊d⌋ : ℤ) := by exact_mod_cast Int.floor_nonneg.mpr h0
  have hfloor : ((⌊d⌋ : ℤ) : ℚ) ≤ d := Int.floor_le d
  have hfract : d - ⌊d⌋ ≤ 1 := (Int.fract_lt_one d).le
  obtain ⟨x, hx, hx0, hx1⟩ := exists_round_eq hfloor0 h1 hb
  obtain ⟨z, hz, hz0, hz1⟩ := fm.exists_fraction (by linarith) hfract
  obtain ⟨r, hr, hr0, hr1⟩ : ∃ r, fm.round (x + z) = .finite r ∧ 0 ≤ r ∧ r ≤ c :=
    exists_round_eq (by linarith) (by linarith) hc
  refine ⟨r, ?_, hr0, hr1⟩
  rw [asSecsF64, hx, hz, add, hr]

/-- The conversion of a duration below one second. -/
theorem exists_asSecsF64_eq {d : Duration} (h0 : 0 ≤ d) (h1 : d < 1) :
    ∃ r, fm.asSecsF64 d = .finite r ∧ 0 ≤ r ∧ r ≤ 1 := by
  have hfloor : ⌊d⌋ = 0 := Int.floor_eq_zero_iff.mpr ⟨h0, h1⟩
  refine exists_asSecsF64_le_of_floor h0 (b := 0) ?_ round_zero round_one (zero_add 1).le
  rw [hfloor, Int.cast_zero]

/-- A conversion of whole seconds is a number that is not rounded any more. -/
theorem exists_asSecsF64_fromSecs_eq {n : ℕ} (h : n < 2 ^ 64) :
    ∃ r, fm.round n = .finite r ∧ fm.asSecsF64 (Duration.fromSecs n) = .finite r ∧ 0 ≤ r ∧
      r ≤ 2 ^ 64 := by
  have hn : (n : ℚ) ≤ 2 ^ 64 := by exact_mod_cast h.le
  obtain ⟨r, hr, hr0, hr1⟩ := exists_round_eq (by positivity) hn (fm.round_two_pow 64 le_rfl)
  refine ⟨r, hr, ?_, hr0, hr1⟩
  rw [asSecsF64_fromSecs, hr, add, add_zero, fm.round_round hr]

/-- The conversion of whole seconds below `2 ^ 64`. -/
theorem exists_asSecsF64_fromSecs {n : ℕ} (h : n < 2 ^ 64) :
    ∃ r, fm.asSecsF64 (Duration.fromSecs n) = .finite r ∧ 0 ≤ r ∧ r ≤ 2 ^ 64 :=
  (exists_asSecsF64_fromSecs_eq h).imp fun _ => And.right

/-- The conversion of a duration is at most a number that is not rounded and leaves room for
the fraction of a second. -/
theorem exists_asSecsF64_le {d : Duration} {b c : ℚ} (h0 : 0 ≤ d) (h1 : d ≤ b)
    (hb : fm.round b = .finite b) (hc : fm.round c = .finite c) (hbc : b + 1 ≤ c) :
    ∃ r, fm.asSecsF64 d = .finite r ∧ 0 ≤ r ∧ r ≤ c :=
  exists_asSecsF64_le_of_floor h0 ((Int.floor_le d).trans h1) hb hc hbc

/-- The conversion of whole seconds and nanoseconds rounds the two and adds them. -/
theorem asSecsF64_natCast_div {s k : ℕ} (hk : k < 10 ^ 9) :
    fm.asSecsF64 (((s * 10 ^ 9 + k : ℕ) : ℚ) / 10 ^ 9) =
      fm.add (fm.round s) (fm.divBy (fm.round k) (10 ^ 9)) := by
  have hsum : ((s * 10 ^ 9 + k : ℕ) : ℚ) / 10 ^ 9 = s + k / 10 ^ 9 := by
    push_cast
    ring
  have hfraction : (k : ℚ) / 10 ^ 9 < 1 := by
    rw [div_lt_one (by positivity)]
    exact_mod_cast hk
  have hfloor : ⌊(s : ℚ) + k / 10 ^ 9⌋ = (s : ℤ) := by
    rw [Int.floor_eq_iff]
    push_cast
    exact ⟨by linarith [show (0 : ℚ) ≤ k / 10 ^ 9 by positivity], by linarith⟩
  have hnanos : ((s : ℚ) + k / 10 ^ 9 - (s : ℤ)) * 10 ^ 9 = k := by
    push_cast
    ring
  rw [hsum, asSecsF64, hfloor, hnanos, Int.cast_natCast]

/-- **The conversion of a whole number of nanoseconds** adds at most two relative roundings. -/
theorem exists_asSecsF64_le_mul {n : ℕ} (h : n ≤ 2 ^ 64 * 10 ^ 9) :
    ∃ r, fm.asSecsF64 ((n : ℚ) / 10 ^ 9) = .finite r ∧ (r = 0 ∨ (1 / 2) ^ 30 ≤ r) ∧
      r ≤ n / 10 ^ 9 * (1 + 1 / 2 ^ 52) ^ 2 := by
  obtain ⟨s, k, hk, rfl⟩ : ∃ s k : ℕ, k < 10 ^ 9 ∧ n = s * 10 ^ 9 + k :=
    ⟨n / 10 ^ 9, n % 10 ^ 9, Nat.mod_lt _ (by norm_num), by omega⟩
  have hs : (s : ℚ) ≤ 2 ^ 64 := by
    have hle : s ≤ 2 ^ 64 := by omega
    exact_mod_cast hle
  have hfraction : (k : ℚ) / 10 ^ 9 ≤ 1 := by
    rw [div_le_one (by positivity)]
    exact_mod_cast hk.le
  -- each part is zero or at least a nanosecond
  obtain ⟨a, ha, ha0, ha1⟩ := fm.exists_round_le_mul (j := 0) (q := s) (by norm_num)
    (by simpa using natCast_apart s) (hs.trans (by norm_num))
  obtain ⟨b, hb, hb0, hb1⟩ := fm.exists_round_le_mul (j := 30) (q := k / 10 ^ 9) (by norm_num)
    (natCast_div_apart k (by positivity) (by norm_num)) (hfraction.trans (by norm_num))
  have hbound : a + b ≤ (s + k / 10 ^ 9) * (1 + 1 / 2 ^ 52) := by
    rw [add_mul]
    exact add_le_add ha1 hb1
  have hsmall : a + b ≤ 2 ^ 100 := by
    have hle : (s : ℚ) + k / 10 ^ 9 ≤ 2 ^ 64 + 1 := by linarith
    calc a + b ≤ (s + k / 10 ^ 9) * (1 + 1 / 2 ^ 52) := hbound
      _ ≤ (2 ^ 64 + 1) * (1 + 1 / 2 ^ 52) := mul_le_mul_of_nonneg_right hle (by positivity)
      _ ≤ 2 ^ 100 := by norm_num
  have hnanosecond : a + b = 0 ∨ (1 / 2) ^ 30 ≤ a + b :=
    add_apart (by positivity) (ha0.imp_right (le_trans (by norm_num))) hb0
  obtain ⟨r, hr, hr0, hr1⟩ := fm.exists_round_le_mul (j := 30) (by norm_num) hnanosecond hsmall
  refine ⟨r, ?_, hr0, hr1.trans ?_⟩
  · have hwhole : fm.round k = .finite k := fm.round_nat k (by omega)
    rw [asSecsF64_natCast_div hk, ha, hwhole, divBy, hb]
    exact hr
  · calc (a + b) * (1 + 1 / 2 ^ 52)
        ≤ (s + k / 10 ^ 9) * (1 + 1 / 2 ^ 52) * (1 + 1 / 2 ^ 52) :=
          mul_le_mul_of_nonneg_right hbound (by positivity)
      _ = ((s * 10 ^ 9 + k : ℕ) : ℚ) / 10 ^ 9 * (1 + 1 / 2 ^ 52) ^ 2 := by
          push_cast
          ring

/-- A product that is a number is not rounded any more. -/
theorem round_eq_of_mul_eq {x y : F64} {q : ℚ} (h : fm.mul x y = .finite q) :
    fm.round q = .finite q := by
  unfold mul at h
  split at h
  · cases h
  · cases h
  · cases h
  · split at h <;> cases h
  · split at h <;> cases h
  · exact fm.round_round h

/-- The product of two numbers that are not negative is not negative, when it is a number. -/
theorem nonneg_of_mul_eq {x y : F64} (hx : (F64.finite 0).le x = true)
    (hy : (F64.finite 0).le y = true) {q : ℚ} (h : fm.mul x y = .finite q) : 0 ≤ q := by
  rcases F64.nonneg_cases hx with ⟨a, rfl, ha⟩ | rfl
  · rcases F64.nonneg_cases hy with ⟨b, rfl, hb⟩ | rfl
    · have hround := fm.round_mono (mul_nonneg ha hb)
      rw [round_zero] at hround
      simp only [mul] at h
      simpa [h] using hround
    · simp only [mul] at h
      split at h <;> cases h
  · rcases F64.nonneg_cases hy with ⟨b, rfl, hb⟩ | rfl
    · simp only [mul] at h
      split at h <;> cases h
    · simp [mul] at h

/-! ## Exact arithmetic -/

/-- Exact rational arithmetic: nothing is rounded, and `powf` at a whole exponent is the
power. -/
def exact : FloatModel where
  round := .finite
  powf
    | .finite m, .finite e => .finite (m ^ e.num.toNat)
    | _, _ => .nan
  nanos := id
  round_mono := fun h => by simpa using h
  round_exact := fun _ _ _ _ _ => rfl
  round_round := fun _ => rfl
  powf_nonneg := fun n hm => by
    simp only [F64.le_finite, decide_eq_true_eq]
    positivity
  nanos_mono := monotone_id
  nanos_exact := fun _ => rfl

/-- Seconds become the nearest whole number of nanoseconds, as `Duration::from_secs_f64`
documents. -/
def RoundsToNearestNano (fm : FloatModel) : Prop :=
  ∀ q : ℚ, 0 ≤ q → ∃ n : ℕ, fm.nanos q = n / 10 ^ 9 ∧ |fm.nanos q - q| ≤ 1 / (2 * 10 ^ 9)

/-- Exact arithmetic on a machine whose durations are whole nanoseconds. -/
def nearestNano : FloatModel :=
  { FloatModel.exact with
    nanos := fun q => (⌊q * 10 ^ 9 + 1 / 2⌋ : ℚ) / 10 ^ 9
    nanos_mono := fun a b hab => by
      have hfloor : ⌊a * 10 ^ 9 + 1 / 2⌋ ≤ ⌊b * 10 ^ 9 + 1 / 2⌋ := by
        gcongr
      have hcast : (⌊a * 10 ^ 9 + 1 / 2⌋ : ℚ) ≤ ⌊b * 10 ^ 9 + 1 / 2⌋ := by exact_mod_cast hfloor
      dsimp only
      gcongr
    nanos_exact := fun k => by
      have hhalf : ⌊(k : ℚ) + 1 / 2⌋ = (k : ℤ) := by
        rw [Int.floor_eq_iff]
        push_cast
        constructor <;> linarith
      rw [div_mul_cancel₀ _ (by positivity), hhalf, Int.cast_natCast] }

theorem roundsToNearestNano_nearestNano : nearestNano.RoundsToNearestNano := by
  intro q hq
  have hnonneg : 0 ≤ ⌊q * 10 ^ 9 + 1 / 2⌋ := Int.floor_nonneg.mpr (by positivity)
  refine ⟨⌊q * 10 ^ 9 + 1 / 2⌋.toNat, ?_, ?_⟩
  · show (⌊q * 10 ^ 9 + 1 / 2⌋ : ℚ) / 10 ^ 9 = (⌊q * 10 ^ 9 + 1 / 2⌋.toNat : ℚ) / 10 ^ 9
    rw [← Int.cast_natCast, Int.toNat_of_nonneg hnonneg]
  · show |(⌊q * 10 ^ 9 + 1 / 2⌋ : ℚ) / 10 ^ 9 - q| ≤ 1 / (2 * 10 ^ 9)
    have hlow := Int.floor_le (q * 10 ^ 9 + 1 / 2)
    have hhigh := Int.lt_floor_add_one (q * 10 ^ 9 + 1 / 2)
    rw [abs_le, le_sub_iff_add_le, sub_le_iff_le_add, le_div_iff₀ (by positivity),
      div_le_iff₀ (by positivity)]
    constructor <;> linarith

end FloatModel
