/-
# The envelope of the retry delay

Read in exact arithmetic, the wait after a failure stays in an envelope: at most the ceiling,
the ceiling itself after a rejection, and within the jitter fraction of the delay before
jitter otherwise; and it grows with the count of attempts and with the jitter input.

The number of seconds is turned into a duration before it is cut down to the ceiling, and no
duration reaches `2 ^ 64` seconds.  Under a ceiling that leaves the jitter no room below that
there is no wait at all: the conversion panics.  The envelope holds exactly where it does not.
-/
import KaimanWebhooks.BackoffFormula
import Mathlib.Data.Int.ConditionallyCompleteOrder
import Mathlib.Data.UInt

/-! ## The delay after jitter, in exact arithmetic -/

/-- The delay before jitter in exact arithmetic. -/
def exactDelay (backoff : ForwardBackoff) (factor : ℚ) (attempts : ℤ) : ℚ :=
  min backoff.max (backoff.base * factor ^ backoffExponent attempts)

/-- What jitter multiplies a delay by: between `1 - jitter` and `1 + jitter`. -/
def jitterFactor (jitter unit : ℚ) : ℚ := 1 + jitter * (2 * max 0 (min unit 1) - 1)

/-- Exact arithmetic converts every duration to itself. -/
theorem FloatModel.asSecsF64_exact_eq (d : Duration) :
    FloatModel.exact.asSecsF64 d = .finite d := by
  have hsum : ((⌊d⌋ : ℤ) : ℚ) + (d - ⌊d⌋) * 10 ^ 9 / 10 ^ 9 = d := by
    rw [mul_div_cancel_right₀ _ (by norm_num)]
    ring
  show F64.finite (((⌊d⌋ : ℤ) : ℚ) + (d - ⌊d⌋) * 10 ^ 9 / 10 ^ 9) = .finite d
  rw [hsum]

section JitterFactor

variable {jitter unit : ℚ}

theorem jitterFactor_zero (unit : ℚ) : jitterFactor 0 unit = 1 := by simp [jitterFactor]

theorem le_jitterFactor (h : 0 ≤ jitter) (unit : ℚ) : 1 - jitter ≤ jitterFactor jitter unit := by
  have hunit : 0 ≤ max 0 (min unit 1) := le_max_left _ _
  unfold jitterFactor
  nlinarith

theorem jitterFactor_le (h : 0 ≤ jitter) (unit : ℚ) : jitterFactor jitter unit ≤ 1 + jitter := by
  have hunit : max 0 (min unit 1) ≤ 1 := max_le zero_le_one (min_le_right _ _)
  unfold jitterFactor
  nlinarith

/-- The factor grows with the jitter input. -/
theorem jitterFactor_mono (h : 0 ≤ jitter) : Monotone (jitterFactor jitter) := by
  intro u v huv
  have hclamp : max 0 (min u 1) ≤ max 0 (min v 1) := max_le_max_left 0 (min_le_min_right 1 huv)
  unfold jitterFactor
  gcongr

end JitterFactor

/-- The exponent grows with the count of attempts. -/
theorem backoffExponent_mono : Monotone backoffExponent := by
  intro m n hmn
  unfold backoffExponent saturatingPred
  split <;> split <;> omega

section Exact

variable {backoff : ForwardBackoff} {factor jitter : ℚ}

/-- The delay before jitter grows with the count of attempts. -/
theorem exactDelay_mono (hbase : 0 ≤ backoff.base) (hfactor : 1 ≤ factor) :
    Monotone (exactDelay backoff factor) := by
  intro m n hmn
  have hpow := pow_le_pow_right₀ hfactor (backoffExponent_mono hmn)
  exact min_le_min_left _ (mul_le_mul_of_nonneg_left hpow hbase)

/-- The delay before jitter is at least the interval. -/
theorem base_le_exactDelay (hbase : 0 ≤ backoff.base) (hle : backoff.base ≤ backoff.max)
    (hfactor : 1 ≤ factor) (attempts : ℤ) : backoff.base ≤ exactDelay backoff factor attempts :=
  le_min hle (le_mul_of_one_le_right hbase (one_le_pow₀ hfactor))

/-- **The wait after a transient failure in exact arithmetic**: the delay times the jitter
factor, cut down to the ceiling, unless it is no duration. -/
theorem ForwardBackoff.Sound.nextDelay_exact (h : backoff.Sound)
    (hfactor : backoff.multiplier = .finite factor) (hjitter : backoff.jitter = .finite jitter)
    (attempts : ℤ) (unit : ℚ) :
    nextDelay .exact backoff .transient attempts none (.finite unit) =
      if exactDelay backoff factor attempts * jitterFactor jitter unit < 2 ^ 64 then
        some (min (exactDelay backoff factor attempts * jitterFactor jitter unit) backoff.max)
      else none := by
  obtain ⟨hj0, hj1⟩ := h.jitter_bounds hjitter
  have hdelay := h.delayForAttempt_exact_eq hfactor attempts
  have hpositive : 0 ≤ exactDelay backoff factor attempts := (h.delay_le_max hdelay).1
  have hle : exactDelay backoff factor attempts ≤ backoff.max := (h.delay_le_max hdelay).2
  have hscale : 0 ≤ jitterFactor jitter unit := by linarith [le_jitterFactor hj0 unit]
  -- in exact arithmetic the code computes the product
  have hseconds : jitteredSeconds .exact backoff (exactDelay backoff factor attempts)
      (.finite unit) = .finite (exactDelay backoff factor attempts * jitterFactor jitter unit) := by
    unfold jitteredSeconds
    rw [FloatModel.asSecsF64_exact_eq, F64.clamp_finite, hjitter, jitterFactor, sub_eq_add_neg]
    rfl
  have hstart : nextDelay .exact backoff .transient attempts none (.finite unit) =
      applyJitter .exact backoff (exactDelay backoff factor attempts) (.finite unit) := by
    simp only [nextDelay, reduceCtorEq, if_false]
    rw [hdelay]
    rfl
  rw [hstart]
  unfold applyJitter
  rw [hseconds, hjitter]
  by_cases hzero : jitter ≤ 0
  · -- without jitter the delay is returned as it is
    obtain rfl : jitter = 0 := le_antisymm hzero hj0
    rw [if_pos (by simp), jitterFactor_zero, mul_one, if_pos (hle.trans_lt h.max_lt),
      min_eq_left hle]
  · -- the product is not negative, so the floor at zero changes nothing
    have hfloor : (F64.finite (exactDelay backoff factor attempts * jitterFactor jitter unit)).max
        (.finite 0) = .finite (exactDelay backoff factor attempts * jitterFactor jitter unit) := by
      have hnonneg := mul_nonneg hpositive hscale
      rcases hnonneg.eq_or_lt with heq | hlt
      · rw [← heq]
        rfl
      · simp [F64.max, not_le.mpr hlt]
    rw [if_neg (by simpa using hzero)]
    dsimp only
    rw [if_neg (by simp), hfloor]
    by_cases hfits : exactDelay backoff factor attempts * jitterFactor jitter unit < 2 ^ 64
    · rw [if_pos hfits, FloatModel.fromSecsF64_finite (mul_nonneg hpositive hscale) hfits]
      rfl
    · rw [if_neg hfits, Option.map_eq_none_iff, FloatModel.fromSecsF64_eq_none_iff]
      right
      simpa using hfits

end Exact

/-! ## The envelope -/

/-- The envelope of a wait: the ceiling bounds it, a rejection waits exactly for the ceiling
and thus never shorter than a transient failure, a transient failure waits within the jitter
fraction, and neither fewer attempts nor a smaller jitter input make the wait longer. -/
structure InEnvelope (backoff : ForwardBackoff) (jitter : ℚ) (kind : FailureKind) (attempts : ℤ)
    (retryAfter : Option Duration) (unit : ℚ) (wait : Duration) : Prop where
  le_max : wait ≤ backoff.max
  rejected : kind = .rejected → retryAfter = none → wait = backoff.max ∧
    ∀ (n : ℤ) (u : ℚ) (d : Duration),
      nextDelay .exact backoff .transient n none (.finite u) = some d → d ≤ wait
  transient : kind = .transient → retryAfter = none → (1 - jitter) * backoff.base ≤ wait ∧
    ∃ delay, delayForAttempt .exact backoff attempts = some delay ∧ wait ≤ (1 + jitter) * delay
  attempts_mono : ∀ n ≤ attempts, ∃ d,
    nextDelay .exact backoff kind n retryAfter (.finite unit) = some d ∧ d ≤ wait
  unit_mono : ∀ u ≤ unit, ∃ d,
    nextDelay .exact backoff kind attempts retryAfter (.finite u) = some d ∧ d ≤ wait

section Envelope

variable {backoff : ForwardBackoff} {factor jitter : ℚ}

/-- A wait that neither the count of attempts nor the jitter input decides is in the
envelope. -/
theorem ForwardBackoff.Sound.inEnvelope_of_const (h : backoff.Sound) {kind : FailureKind}
    {retryAfter : Option Duration} {wait : Duration} (attempts : ℤ) (unit : ℚ)
    (hkind : retryAfter = none → kind = .rejected ∧ wait = backoff.max)
    (hconst : ∀ (n : ℤ) (u : ℚ),
      nextDelay .exact backoff kind n retryAfter (.finite u) = some wait) :
    InEnvelope backoff jitter kind attempts retryAfter unit wait where
  le_max := h.nextDelay_le_max (hconst attempts unit)
  rejected := fun _ hnone => by
    refine ⟨(hkind hnone).2, fun n u d hd => ?_⟩
    rw [(hkind hnone).2]
    exact h.nextDelay_le_max hd
  transient := fun htransient hnone => by
    rw [(hkind hnone).1] at htransient
    cases htransient
  attempts_mono := fun n _ => ⟨wait, hconst n unit, le_rfl⟩
  unit_mono := fun u _ => ⟨wait, hconst attempts u, le_rfl⟩

/-- A transient failure whose wait is a duration waits in the envelope. -/
theorem ForwardBackoff.Sound.inEnvelope_transient (h : backoff.Sound)
    (hfactor : backoff.multiplier = .finite factor) (hjitter : backoff.jitter = .finite jitter)
    {attempts : ℤ} {unit : ℚ}
    (hfits : exactDelay backoff factor attempts * jitterFactor jitter unit < 2 ^ 64) :
    InEnvelope backoff jitter .transient attempts none unit
      (min (exactDelay backoff factor attempts * jitterFactor jitter unit) backoff.max) := by
  have hbase0 := h.base_pos.le
  have hone := h.one_le_multiplier hfactor
  obtain ⟨hj0, hj1⟩ := h.jitter_bounds hjitter
  have hdelay : ∀ n, 0 ≤ exactDelay backoff factor n := fun n =>
    hbase0.trans (base_le_exactDelay hbase0 h.base_le_max hone n)
  have hscale : ∀ u, 0 ≤ jitterFactor jitter u := fun u => by linarith [le_jitterFactor hj0 u]
  -- a smaller product is a duration too, and the ceiling cuts it down no less
  have hsmaller : ∀ n u, exactDelay backoff factor n * jitterFactor jitter u ≤
      exactDelay backoff factor attempts * jitterFactor jitter unit →
      ∃ d, nextDelay .exact backoff .transient n none (.finite u) = some d ∧
        d ≤ min (exactDelay backoff factor attempts * jitterFactor jitter unit) backoff.max := by
    intro n u hle
    refine ⟨_, ?_, min_le_min_right _ hle⟩
    rw [h.nextDelay_exact hfactor hjitter, if_pos (hle.trans_lt hfits)]
  exact
    { le_max := min_le_right _ _
      rejected := fun hkind => by cases hkind
      transient := fun _ _ => by
        refine ⟨le_min ?_ ?_, exactDelay backoff factor attempts,
          h.delayForAttempt_exact_eq hfactor attempts, (min_le_left _ _).trans ?_⟩
        · rw [mul_comm]
          exact mul_le_mul (base_le_exactDelay hbase0 h.base_le_max hone attempts)
            (le_jitterFactor hj0 unit) (by linarith) (hdelay attempts)
        · have hshrink : (1 - jitter) * backoff.base ≤ backoff.base := by nlinarith
          exact hshrink.trans h.base_le_max
        · rw [mul_comm (1 + jitter)]
          exact mul_le_mul_of_nonneg_left (jitterFactor_le hj0 unit) (hdelay attempts)
      attempts_mono := fun n hn => hsmaller n unit
        (mul_le_mul_of_nonneg_right (exactDelay_mono hbase0 hone hn) (hscale unit))
      unit_mono := fun u hu => hsmaller attempts u
        (mul_le_mul_of_nonneg_left (jitterFactor_mono hj0 hu) (hdelay attempts)) }

end Envelope

/-- **When a failure waits in the envelope.**  For every accepted configuration, every
forwarding channel, every failure, every count of attempts and every jitter input: the wait
exists and lies in the envelope exactly when the target named a time, or it rejected the
payload, or the delay times the jitter factor stays below `2 ^ 64` seconds. -/
theorem AppConfig.inEnvelope_iff {ext : External} {config : AppConfig}
    (hconfig : config.validateForwardBackoff ext = .ok ()) {ch : WebhookChannelConfig}
    (hch : ch ∈ config.channels) {fwd : WebhookForwardConfig} (hfwd : ch.forward = some fwd)
    (kind : FailureKind) (attempts : ℤ) (retryAfter : Option Duration) (unit : ℚ) :
    ∃ factor jitter : ℚ,
      (fwd.resolveBackoff config.forwardBackoff).multiplier = .finite factor ∧
      (fwd.resolveBackoff config.forwardBackoff).jitter = .finite jitter ∧
      ((∃ wait, nextDelay .exact (fwd.resolveBackoff config.forwardBackoff) kind attempts
            retryAfter (.finite unit) = some wait ∧
          InEnvelope (fwd.resolveBackoff config.forwardBackoff) jitter kind attempts retryAfter
            unit wait) ↔
        retryAfter ≠ none ∨ kind = .rejected ∨
          min (fwd.resolveBackoff config.forwardBackoff).max
              ((fwd.resolveBackoff config.forwardBackoff).base *
                factor ^ backoffExponent attempts) *
            (1 + jitter * (2 * max 0 (min unit 1) - 1)) < 2 ^ 64) := by
  have h := sound_of_validateForwardBackoff hconfig hch hfwd
  obtain ⟨factor, hfactor, -⟩ := h.multiplier
  obtain ⟨jitter, hjitter, -, -⟩ := h.jitter
  refine ⟨factor, jitter, hfactor, hjitter, ?_⟩
  -- a wait that was asked for and a rejection leave nothing to compute
  cases retryAfter with
  | some requested =>
      refine iff_of_true ⟨_, rfl, h.inEnvelope_of_const attempts unit ?_ fun _ _ => rfl⟩
        (Or.inl (by simp))
      intro hnone
      cases hnone
  | none =>
      cases kind with
      | rejected =>
          exact iff_of_true
            ⟨_, rfl, h.inEnvelope_of_const attempts unit (fun _ => ⟨rfl, rfl⟩) fun _ _ => rfl⟩
            (Or.inr (Or.inl rfl))
      | transient =>
          constructor
          · rintro ⟨wait, hwait, -⟩
            rw [h.nextDelay_exact hfactor hjitter] at hwait
            by_cases hfits : exactDelay (fwd.resolveBackoff config.forwardBackoff) factor attempts *
                jitterFactor jitter unit < 2 ^ 64
            · exact Or.inr (Or.inr hfits)
            · rw [if_neg hfits] at hwait
              cases hwait
          · rintro (hsome | hkind | hfits)
            · exact absurd rfl hsome
            · cases hkind
            · refine ⟨_, ?_, h.inEnvelope_transient hfactor hjitter hfits⟩
              rw [h.nextDelay_exact hfactor hjitter]
              exact if_pos hfits

/-- The envelope at the third failure of the small configuration, with half of the jitter. -/
theorem AppConfig.inEnvelope_iff_small :
    ∃ fwd : WebhookForwardConfig, ∃ factor jitter : ℚ,
      (fwd.resolveBackoff small.forwardBackoff).multiplier = .finite factor ∧
      (fwd.resolveBackoff small.forwardBackoff).jitter = .finite jitter ∧
      ((∃ wait, nextDelay .exact (fwd.resolveBackoff small.forwardBackoff) .transient 3 none
            (.finite (1 / 2)) = some wait ∧
          InEnvelope (fwd.resolveBackoff small.forwardBackoff) jitter .transient 3 none
            (1 / 2) wait) ↔
        (none : Option Duration) ≠ none ∨ FailureKind.transient = .rejected ∨
          min (fwd.resolveBackoff small.forwardBackoff).max
              ((fwd.resolveBackoff small.forwardBackoff).base * factor ^ backoffExponent 3) *
            (1 + jitter * (2 * max 0 (min (1 / 2) 1) - 1)) < 2 ^ 64) := by
  have hconfig : small.validateForwardBackoff External.plain = .ok () :=
    Except.eq_ok_of_toBool (by decide +kernel)
  exact ⟨_, inEnvelope_iff hconfig List.mem_cons_self rfl .transient 3 none (1 / 2)⟩

/-- The small configuration with the largest ceiling and all of the jitter. -/
def AppConfig.boundless : AppConfig :=
  { small with forwardBackoff := ⟨.finite 2, 2 ^ 64 - 1, .finite 1⟩ }

/-- **A ceiling without room for the jitter is accepted**: the hundredth failure in a row, in
the last nanosecond of a second, has no wait. -/
theorem AppConfig.boundless_has_no_wait :
    boundless.validateForwardBackoff External.plain = .ok () ∧
      ∃ ch ∈ boundless.channels, ∃ fwd, ch.forward = some fwd ∧
        nextDelay .exact (fwd.resolveBackoff boundless.forwardBackoff) .transient 100 none
          (clockJitterUnit .exact 999999999) = none := by
  refine ⟨Except.eq_ok_of_toBool (by decide +kernel), _, List.mem_cons_self, _, rfl, ?_⟩
  decide +kernel
