/-
# Exponential backoff for webhook forwarding

A failed webhook waits: the first delay is the channel's interval, every further
failure multiplies it by a factor up to a ceiling, and jitter spreads it.  A target may
ask for a delay of its own, and a rejected payload waits for the ceiling at once.

The arithmetic is that of a `FloatModel`.  `none` stands for the panic of the
conversion of a number of seconds that is no duration.
-/
import KaimanWebhooks.FloatModel
import KaimanWebhooks.Text

/-- The retry schedule of one channel. -/
structure ForwardBackoff where
  base : Duration
  multiplier : F64
  max : Duration
  jitter : F64
  deriving DecidableEq

/-- Whether the same payload may be accepted later, or the target rejected it. -/
inductive FailureKind : Type where
  | transient
  | rejected
  deriving DecidableEq

/-- Classify an unexpected response status. -/
def classifyStatus (status : ℕ) : FailureKind :=
  -- 408 and 429 are client errors by number only: both invite a later retry
  if status = 408 ∨ status = 429 then .transient
  else if 400 ≤ status ∧ status < 500 then .rejected
  else .transient

/-- The delta-seconds form of a `Retry-After` value. -/
def parseRetryAfter (value : List Char) : Option Duration :=
  (Text.parseU64 (Text.trim value)).map Duration.fromSecs

/-- `i64::saturating_sub(1)`. -/
def saturatingPred (n : ℤ) : ℤ := if n = -2 ^ 63 then n else n - 1

/-- The exponent of the delay: the failures before this one, at most 64. -/
def backoffExponent (attempts : ℤ) : ℕ := (min (max (saturatingPred attempts) 0) 64).toNat

section Delay

variable (fm : FloatModel)

/-- The delay after `attempts` consecutive failures, before jitter. -/
def delayForAttempt (backoff : ForwardBackoff) (attempts : ℤ) : Option Duration :=
  let exponent := F64.finite (backoffExponent attempts)
  let seconds := fm.mul (fm.asSecsF64 backoff.base) (fm.powf backoff.multiplier exponent)
  if !seconds.isFinite || (fm.asSecsF64 backoff.max).le seconds then some backoff.max
  else fm.fromSecsF64 seconds

/-- The seconds of a delay after jitter; `unit` is a random value in `[0, 1)`. -/
def jitteredSeconds (backoff : ForwardBackoff) (delay : Duration) (unit : F64) : F64 :=
  let offset := fm.mul backoff.jitter
    (fm.sub (fm.mul (.finite 2) (unit.clamp (.finite 0) (.finite 1))) (.finite 1))
  fm.mul (fm.asSecsF64 delay) (fm.add (.finite 1) offset)

/-- Spread a delay by the jitter fraction. -/
def applyJitter (backoff : ForwardBackoff) (delay : Duration) (unit : F64) : Option Duration :=
  if backoff.jitter.le (.finite 0) then some delay
  else
    let seconds := jitteredSeconds fm backoff delay unit
    if !seconds.isFinite then some delay
    else (fm.fromSecsF64 (seconds.max (.finite 0))).map fun d => min d backoff.max

/-- The jitter input read off the sub-second part of the system clock. -/
def clockJitterUnit (subsecNanos : ℕ) : F64 := fm.divBy (.finite subsecNanos) (10 ^ 9)

/-- How long a failed webhook waits before the next delivery attempt. -/
def nextDelay (backoff : ForwardBackoff) (kind : FailureKind) (attempts : ℤ)
    (retryAfter : Option Duration) (jitterUnit : F64) : Option Duration :=
  match retryAfter with
  -- the target named a time: honour it, up to the ceiling
  | some requested => some (min requested backoff.max)
  | none =>
      if kind = .rejected then some backoff.max
      else (delayForAttempt fm backoff attempts).bind fun delay =>
        applyJitter fm backoff delay jitterUnit

end Delay

/-! ## When a delay exists -/

/-- A schedule with a finite factor of at least one, a jitter fraction in `[0, 1]` and a
base and a ceiling in whole seconds below `2 ^ 64`, the ceiling not below the base. -/
structure ForwardBackoff.Sound (backoff : ForwardBackoff) : Prop where
  base : ∃ n : ℕ, 0 < n ∧ n < 2 ^ 64 ∧ backoff.base = Duration.fromSecs n
  max : ∃ n : ℕ, n < 2 ^ 64 ∧ backoff.max = Duration.fromSecs n
  base_le_max : backoff.base ≤ backoff.max
  multiplier : ∃ q : ℚ, backoff.multiplier = .finite q ∧ 1 ≤ q
  jitter : ∃ q : ℚ, backoff.jitter = .finite q ∧ 0 ≤ q ∧ q ≤ 1

section Sound

variable {fm : FloatModel} {backoff : ForwardBackoff} {attempts : ℤ} {unit : F64}

theorem ForwardBackoff.Sound.base_pos (h : backoff.Sound) : 0 < backoff.base := by
  obtain ⟨n, hn, -, hbase⟩ := h.base
  rw [hbase]
  exact Nat.cast_pos.mpr hn

theorem ForwardBackoff.Sound.max_lt (h : backoff.Sound) : backoff.max < 2 ^ 64 := by
  obtain ⟨m, hm, hmax⟩ := h.max
  rw [hmax, Duration.fromSecs]
  exact_mod_cast hm

theorem ForwardBackoff.Sound.one_le_multiplier (h : backoff.Sound) {factor : ℚ}
    (hfactor : backoff.multiplier = .finite factor) : 1 ≤ factor := by
  obtain ⟨q, hq, hone⟩ := h.multiplier
  obtain rfl : q = factor := F64.finite.inj (hq.symm.trans hfactor)
  exact hone

theorem ForwardBackoff.Sound.jitter_bounds (h : backoff.Sound) {jitter : ℚ}
    (hjitter : backoff.jitter = .finite jitter) : 0 ≤ jitter ∧ jitter ≤ 1 := by
  obtain ⟨j, hj, hj0, hj1⟩ := h.jitter
  obtain rfl : j = jitter := F64.finite.inj (hj.symm.trans hjitter)
  exact ⟨hj0, hj1⟩

/-- **The delay before jitter always exists**: it is below the ceiling or is the ceiling. -/
theorem ForwardBackoff.Sound.exists_delay (h : backoff.Sound) (fm : FloatModel) (attempts : ℤ) :
    ∃ delay, delayForAttempt fm backoff attempts = some delay := by
  obtain ⟨n, -, hn, hbase⟩ := h.base
  obtain ⟨m, hm, hmax⟩ := h.max
  obtain ⟨factor, hfactor, hone⟩ := h.multiplier
  obtain ⟨b, hb, hb0, -⟩ := fm.exists_asSecsF64_fromSecs hn
  obtain ⟨c, hc, -, hc1⟩ := fm.exists_asSecsF64_fromSecs hm
  have hpower : (F64.finite 0).le (fm.powf (.finite factor) (.finite (backoffExponent attempts))) =
      true := fm.powf_nonneg _ (by linarith)
  unfold delayForAttempt
  rw [hbase, hmax, hfactor, hb, hc]
  dsimp only
  cases hseconds : fm.mul (.finite b) (fm.powf (.finite factor)
      (.finite (backoffExponent attempts))) with
  | finite q =>
      have hq : 0 ≤ q := FloatModel.nonneg_of_mul_eq (by simpa using hb0) hpower hseconds
      by_cases hle : c ≤ q
      · exact ⟨Duration.fromSecs m, by simp [hle]⟩
      · refine ⟨fm.nanos q, ?_⟩
        rw [if_neg (by simp [hle])]
        exact FloatModel.fromSecsF64_finite hq (by linarith)
  | inf negative => exact ⟨Duration.fromSecs m, by simp [F64.isFinite]⟩
  | nan => exact ⟨Duration.fromSecs m, by simp [F64.isFinite]⟩

/-- The jitter does not lead past the largest duration: the seconds it leads to, when they
are a number, stay below `2 ^ 64`. -/
def JitterFits (fm : FloatModel) (backoff : ForwardBackoff) (attempts : ℤ) (unit : F64) : Prop :=
  backoff.jitter.le (.finite 0) = true ∨
    ∀ delay, delayForAttempt fm backoff attempts = some delay →
      (jitteredSeconds fm backoff delay unit).isFinite = false ∨
        (jitteredSeconds fm backoff delay unit).lt (.finite (2 ^ 64)) = true

theorem applyJitter_eq_none_iff {delay : Duration} :
    applyJitter fm backoff delay unit = none ↔
      backoff.jitter.le (.finite 0) = false ∧
        (jitteredSeconds fm backoff delay unit).isFinite = true ∧
          (jitteredSeconds fm backoff delay unit).lt (.finite (2 ^ 64)) = false := by
  unfold applyJitter
  cases backoff.jitter.le (.finite 0) with
  | true => simp
  | false =>
      dsimp only
      cases jitteredSeconds fm backoff delay unit with
      | finite q =>
          rw [if_neg Bool.false_ne_true, if_neg (by simp), Option.map_eq_none_iff,
            FloatModel.fromSecsF64_eq_none_iff]
          by_cases hq : q ≤ 0
          · have hlt : q < 2 ^ 64 := by linarith
            simp [F64.max, hq, hlt]
          · simp [F64.max, hq, (not_le.mp hq).le]
      | inf negative => simp [F64.isFinite]
      | nan => simp [F64.isFinite]

/-- **The only panic of the delay arithmetic** under a sound schedule: the jitter of a
transient failure for which the target named no time. -/
theorem nextDelay_eq_none_iff (h : backoff.Sound) {kind : FailureKind}
    {retryAfter : Option Duration} :
    nextDelay fm backoff kind attempts retryAfter unit = none ↔
      retryAfter = none ∧ kind = .transient ∧ ¬JitterFits fm backoff attempts unit := by
  obtain ⟨delay, hdelay⟩ := h.exists_delay fm attempts
  have hfits : JitterFits fm backoff attempts unit ↔ applyJitter fm backoff delay unit ≠ none := by
    unfold JitterFits
    rw [ne_eq, applyJitter_eq_none_iff, hdelay]
    simp only [Option.some.injEq, forall_eq']
    cases backoff.jitter.le (.finite 0) <;>
      cases (jitteredSeconds fm backoff delay unit).isFinite <;> simp
  rw [hfits, not_not]
  unfold nextDelay
  cases retryAfter with
  | some requested => simp
  | none => cases kind <;> simp [hdelay]

/-- **No delay before jitter exceeds the ceiling.** -/
theorem ForwardBackoff.Sound.delay_le_max (h : backoff.Sound) {delay : Duration}
    (hdelay : delayForAttempt fm backoff attempts = some delay) :
    0 ≤ delay ∧ delay ≤ backoff.max := by
  obtain ⟨n, -, hn, hbase⟩ := h.base
  obtain ⟨m, hm, hceiling⟩ := h.max
  obtain ⟨factor, hfactor, hone⟩ := h.multiplier
  obtain ⟨b, hb, hb0, -⟩ := fm.exists_asSecsF64_fromSecs hn
  obtain ⟨c, hround, hc, -, hc1⟩ := fm.exists_asSecsF64_fromSecs_eq hm
  have hm0 : (0 : ℚ) ≤ Duration.fromSecs m := Nat.cast_nonneg m
  have hpower : (F64.finite 0).le (fm.powf (.finite factor) (.finite (backoffExponent attempts))) =
      true := fm.powf_nonneg _ (by linarith)
  unfold delayForAttempt at hdelay
  rw [hbase, hfactor, hb] at hdelay
  rw [hceiling] at hdelay ⊢
  rw [hc] at hdelay
  dsimp only at hdelay
  cases hseconds : fm.mul (.finite b) (fm.powf (.finite factor)
      (.finite (backoffExponent attempts))) with
  | finite q =>
      rw [hseconds] at hdelay
      have hq : 0 ≤ q := FloatModel.nonneg_of_mul_eq (by simpa using hb0) hpower hseconds
      by_cases hle : c ≤ q
      · rw [if_pos (by simp [hle])] at hdelay
        cases hdelay
        exact ⟨hm0, le_rfl⟩
      · -- the seconds are below the rounded ceiling, hence not above the ceiling itself
        have hqm : q ≤ m := by
          by_contra hlt
          have hmono := fm.round_mono (not_le.mp hlt).le
          rw [hround, FloatModel.round_eq_of_mul_eq hseconds] at hmono
          exact hle (by simpa using hmono)
        rw [if_neg (by simp [hle]), FloatModel.fromSecsF64_finite hq (by linarith)] at hdelay
        cases hdelay
        have hnanos := fm.nanos_mono hqm
        rw [fm.nanos_nat] at hnanos
        exact ⟨FloatModel.nanos_nonneg hq, hnanos⟩
  | inf negative =>
      rw [hseconds] at hdelay
      cases hdelay
      exact ⟨hm0, le_rfl⟩
  | nan =>
      rw [hseconds] at hdelay
      cases hdelay
      exact ⟨hm0, le_rfl⟩

/-- **No delay exceeds the ceiling**, whatever the failure, the target's wish and the
jitter. -/
theorem ForwardBackoff.Sound.nextDelay_le_max (h : backoff.Sound) {kind : FailureKind}
    {retryAfter : Option Duration} {delay : Duration}
    (hdelay : nextDelay fm backoff kind attempts retryAfter unit = some delay) :
    delay ≤ backoff.max := by
  unfold nextDelay at hdelay
  cases retryAfter with
  | some requested =>
      cases hdelay
      exact min_le_right _ _
  | none =>
      cases kind with
      | rejected =>
          cases hdelay
          exact le_rfl
      | transient =>
          simp only [reduceCtorEq, if_false] at hdelay
          obtain ⟨before, hbefore, hjitter⟩ := Option.bind_eq_some_iff.mp hdelay
          obtain ⟨-, hle⟩ := h.delay_le_max hbefore
          unfold applyJitter at hjitter
          split at hjitter
          · cases hjitter
            exact hle
          · dsimp only at hjitter
            split at hjitter
            · cases hjitter
              exact hle
            · obtain ⟨after, -, rfl⟩ := Option.map_eq_some_iff.mp hjitter
              exact min_le_right _ _

/-- The largest ceiling, in seconds, under which every due time is a 64-bit integer while
the clock is below `2 ^ 40`. -/
def largestSafeCeiling : ℕ := 2 ^ 63 - 2 ^ 40

/-- What jitter multiplies the seconds of a delay by is at most two, rounding included. -/
theorem exists_jitterScale (fm : FloatModel) {j u : ℚ} (hj : 0 ≤ j ∧ j ≤ 1) (hu : 0 ≤ u ∧ u ≤ 1) :
    ∃ s, fm.add (.finite 1) (fm.mul (.finite j)
        (fm.sub (fm.mul (.finite 2) (.finite u)) (.finite 1))) = .finite s ∧ 0 ≤ s ∧ s ≤ 2 := by
  obtain ⟨hj0, hj1⟩ := hj
  obtain ⟨hu0, hu1⟩ := hu
  have htwo : fm.round 2 = .finite 2 := by
    have h := fm.round_nat 2 (by norm_num)
    exact_mod_cast h
  obtain ⟨x, hx, hx0, hx1⟩ := FloatModel.exists_round_eq (by linarith)
    (show 2 * u ≤ 2 by linarith) htwo
  obtain ⟨y, hy, hy0, hy1⟩ := FloatModel.exists_round_between (show -1 ≤ x + -1 by linarith)
    (show x + -1 ≤ 1 by linarith) fm.round_neg_one fm.round_one
  obtain ⟨z, hz, hz0, hz1⟩ := FloatModel.exists_round_between (show -1 ≤ j * y by nlinarith)
    (show j * y ≤ 1 by nlinarith) fm.round_neg_one fm.round_one
  obtain ⟨s, hs, hs0, hs1⟩ := FloatModel.exists_round_eq (show 0 ≤ 1 + z by linarith)
    (show 1 + z ≤ 2 by linarith) htwo
  refine ⟨s, ?_, hs0, hs1⟩
  simp only [FloatModel.mul, hx, FloatModel.sub, F64.neg, FloatModel.add, hy, hz, hs]

/-- **No jitter overflows under a safe ceiling.** -/
theorem ForwardBackoff.Sound.jitterFits (h : backoff.Sound)
    (hmax : backoff.max ≤ largestSafeCeiling) : JitterFits fm backoff attempts unit := by
  obtain ⟨j, hj, hjbounds⟩ := h.jitter
  have hceiling : ((largestSafeCeiling : ℕ) : ℚ) = 2 ^ 63 - 2 ^ 40 := by
    norm_num [largestSafeCeiling]
  rw [hceiling] at hmax
  -- the numbers the arithmetic stays between are multiples of a power of two
  have hlow : fm.round (2 ^ 63 - 2 ^ 40) = .finite (2 ^ 63 - 2 ^ 40) := by
    have hround := fm.round_mul_two_pow (2 ^ 23 - 1) 40 (by norm_num) (by norm_num)
    norm_num at hround ⊢
    exact hround
  have hroom : fm.round (2 ^ 63 - 2 ^ 39) = .finite (2 ^ 63 - 2 ^ 39) := by
    have hround := fm.round_mul_two_pow (2 ^ 24 - 1) 39 (by norm_num) (by norm_num)
    norm_num at hround ⊢
    exact hround
  have htop : fm.round (2 ^ 64 - 2 ^ 40) = .finite (2 ^ 64 - 2 ^ 40) := by
    have hround := fm.round_mul_two_pow (2 ^ 24 - 1) 40 (by norm_num) (by norm_num)
    norm_num at hround ⊢
    exact hround
  refine Or.inr fun delay hdelay => ?_
  obtain ⟨hdelay0, hdelay1⟩ := h.delay_le_max hdelay
  obtain ⟨a, ha, ha0, ha1⟩ := fm.exists_asSecsF64_le hdelay0 (hdelay1.trans hmax) hlow hroom
    (by norm_num)
  unfold jitteredSeconds
  rw [hj, ha]
  rcases unit.clamp_unit with hnan | ⟨u, hu, hubounds⟩
  · left
    rw [hnan]
    rfl
  · right
    obtain ⟨s, hs, hs0, hs1⟩ := exists_jitterScale fm hjbounds hubounds
    obtain ⟨r, hr, -, hr1⟩ := FloatModel.exists_round_eq (mul_nonneg ha0 hs0)
      (show a * s ≤ 2 ^ 64 - 2 ^ 40 by nlinarith) htop
    have hlt : r < 2 ^ 64 := by linarith
    rw [hu]
    dsimp only
    rw [hs]
    simp only [FloatModel.mul, hr, F64.lt_finite, hlt, decide_true]

/-- **Under a safe ceiling every failure has a delay.** -/
theorem ForwardBackoff.Sound.exists_nextDelay (h : backoff.Sound)
    (hmax : backoff.max ≤ largestSafeCeiling) (fm : FloatModel) (kind : FailureKind)
    (attempts : ℤ) (retryAfter : Option Duration) (unit : F64) :
    ∃ delay, nextDelay fm backoff kind attempts retryAfter unit = some delay := by
  cases hdelay : nextDelay fm backoff kind attempts retryAfter unit with
  | none => exact absurd (h.jitterFits hmax) ((nextDelay_eq_none_iff h).mp hdelay).2.2
  | some delay => exact ⟨delay, rfl⟩

end Sound
