/-
# The documented backoff formula

The documentation says that every further failure multiplies the wait by the factor until
the ceiling is reached.  The code counts at most sixty-four multiplications.  Read in exact
arithmetic the two agree up to the sixty-fifth failure, and after it exactly when further
multiplications cannot change the wait: the factor is one, or sixty-four of them already
reach the ceiling.
-/
import KaimanWebhooks.Config
import Mathlib.Algebra.Order.Field.Basic

/-! ## Capped growth -/

section CappedGrowth

variable {K : Type} [Field K] [LinearOrder K] [IsStrictOrderedRing K] {top base factor : K}

/-- **Cutting off the exponent of a capped growth** is harmless when the exponent is not cut
off, when nothing grows, or when the cap is reached by then. -/
theorem min_mul_pow_min_eq_iff (hbase : 0 < base) (hfactor : 1 ≤ factor) (k n : ℕ) :
    min top (base * factor ^ min n k) = min top (base * factor ^ n) ↔
      n ≤ k ∨ factor = 1 ∨ top ≤ base * factor ^ k := by
  by_cases hn : n ≤ k
  · simp [hn]
  · have hk : min n k = k := min_eq_right (not_le.mp hn).le
    have hgrow : base * factor ^ k ≤ base * factor ^ n :=
      mul_le_mul_of_nonneg_left (pow_le_pow_right₀ hfactor (not_le.mp hn).le) hbase.le
    rw [hk]
    constructor
    · intro heq
      refine Or.inr ?_
      by_cases hone : factor = 1
      · exact Or.inl hone
      · refine Or.inr (not_lt.mp fun hbelow => ?_)
        -- below the cap the growth is strict, so the two waits differ
        have hlt : base * factor ^ k < base * factor ^ n :=
          mul_lt_mul_of_pos_left
            (pow_lt_pow_right₀ (lt_of_le_of_ne hfactor (Ne.symm hone)) (not_le.mp hn)) hbase
        have hmin : base * factor ^ k < min top (base * factor ^ n) := lt_min hbelow hlt
        rw [← heq, min_eq_right hbelow.le] at hmin
        exact lt_irrefl _ hmin
    · rintro (hle | rfl | hcap)
      · exact absurd hle hn
      · simp
      · rw [min_eq_left hcap, min_eq_left (hcap.trans hgrow)]

end CappedGrowth

/-! ## The delay in exact arithmetic -/

/-- The documented delay after the `n`-th failure in a row: the interval times the factor for
every failure before it, up to the ceiling. -/
def documentedDelay (backoff : ForwardBackoff) (factor : ℚ) (n : ℕ) : Duration :=
  min backoff.max (backoff.base * factor ^ (n - 1))

/-- Exact arithmetic converts whole seconds to themselves. -/
theorem FloatModel.asSecsF64_exact (n : ℕ) :
    FloatModel.exact.asSecsF64 (Duration.fromSecs n) = .finite n := by
  rw [asSecsF64_fromSecs]
  simp [FloatModel.exact, add]

/-- Exact powers are powers. -/
theorem FloatModel.powf_exact (q : ℚ) (k : ℕ) :
    FloatModel.exact.powf (.finite q) (.finite k) = .finite (q ^ k) := by
  show F64.finite (q ^ ((k : ℚ).num.toNat)) = .finite (q ^ k)
  rw [Rat.num_natCast, Int.toNat_natCast]

/-- The exponent of the `n`-th failure. -/
theorem backoffExponent_natCast (n : ℕ) : backoffExponent n = min (n - 1) 64 := by
  unfold backoffExponent saturatingPred
  omega

/-- **The delay of the code in exact arithmetic**, for every count of attempts. -/
theorem ForwardBackoff.Sound.delayForAttempt_exact_eq {backoff : ForwardBackoff}
    (h : backoff.Sound) {factor : ℚ} (hfactor : backoff.multiplier = .finite factor)
    (attempts : ℤ) :
    delayForAttempt .exact backoff attempts =
      some (min backoff.max (backoff.base * factor ^ backoffExponent attempts)) := by
  obtain ⟨b, -, -, hbase⟩ := h.base
  obtain ⟨m, hm, hmax⟩ := h.max
  have hone := h.one_le_multiplier hfactor
  generalize hexponent : backoffExponent attempts = e
  have hseconds : (0 : ℚ) ≤ (b : ℚ) * factor ^ e := by positivity
  have hproduct : FloatModel.exact.mul (.finite b) (.finite (factor ^ e)) =
      .finite (b * factor ^ e) := rfl
  unfold delayForAttempt
  rw [hexponent, hfactor, hbase, hmax, FloatModel.asSecsF64_exact, FloatModel.asSecsF64_exact]
  dsimp only
  rw [FloatModel.powf_exact, hproduct]
  by_cases hcap : (m : ℚ) ≤ b * factor ^ e
  · simp [hcap, Duration.fromSecs]
  · have hm64 : (m : ℚ) < 2 ^ 64 := by exact_mod_cast hm
    rw [if_neg (by simp [hcap]),
      FloatModel.fromSecsF64_finite hseconds ((not_le.mp hcap).trans hm64)]
    exact congrArg some (min_eq_right (not_le.mp hcap).le).symm

/-- The delay of the code after the `n`-th failure in a row. -/
theorem ForwardBackoff.Sound.delayForAttempt_exact {backoff : ForwardBackoff} (h : backoff.Sound)
    {factor : ℚ} (hfactor : backoff.multiplier = .finite factor) (n : ℕ) :
    delayForAttempt .exact backoff n =
      some (min backoff.max (backoff.base * factor ^ min (n - 1) 64)) := by
  rw [h.delayForAttempt_exact_eq hfactor, backoffExponent_natCast]

/-! ## The formula -/

/-- **When the documented formula holds.**  For every accepted configuration, every forwarding
channel and every failure, the delay before jitter is the documented one exactly when it is
at most the sixty-fifth failure in a row, or the factor is one, or sixty-four multiplications
reach the ceiling. -/
theorem AppConfig.documentedDelay_iff {ext : External} {config : AppConfig}
    (hconfig : config.validateForwardBackoff ext = .ok ()) {ch : WebhookChannelConfig}
    (hch : ch ∈ config.channels) {fwd : WebhookForwardConfig} (hfwd : ch.forward = some fwd)
    {n : ℕ} (hn : 1 ≤ n) :
    ∃ factor : ℚ,
      (fwd.resolveBackoff config.forwardBackoff).multiplier = .finite factor ∧
      (delayForAttempt .exact (fwd.resolveBackoff config.forwardBackoff) n =
          some (documentedDelay (fwd.resolveBackoff config.forwardBackoff) factor n) ↔
        n ≤ 65 ∨ factor = 1 ∨
          (fwd.resolveBackoff config.forwardBackoff).max ≤
            (fwd.resolveBackoff config.forwardBackoff).base * factor ^ 64) := by
  have hsound := sound_of_validateForwardBackoff hconfig hch hfwd
  obtain ⟨factor, hfactor, hone⟩ := hsound.multiplier
  refine ⟨factor, hfactor, ?_⟩
  rw [hsound.delayForAttempt_exact hfactor, Option.some.injEq, documentedDelay,
    min_mul_pow_min_eq_iff hsound.base_pos hone]
  refine or_congr_left ?_
  omega

/-- The formula at the third failure of the small configuration. -/
theorem AppConfig.documentedDelay_iff_small :
    ∃ fwd : WebhookForwardConfig, ∃ factor : ℚ,
      (fwd.resolveBackoff small.forwardBackoff).multiplier = .finite factor ∧
      (delayForAttempt .exact (fwd.resolveBackoff small.forwardBackoff) 3 =
          some (documentedDelay (fwd.resolveBackoff small.forwardBackoff) factor 3) ↔
        3 ≤ 65 ∨ factor = 1 ∨
          (fwd.resolveBackoff small.forwardBackoff).max ≤
            (fwd.resolveBackoff small.forwardBackoff).base * factor ^ 64) := by
  have hconfig : small.validateForwardBackoff External.plain = .ok () :=
    Except.eq_ok_of_toBool (by decide +kernel)
  exact ⟨_, documentedDelay_iff hconfig List.mem_cons_self rfl (by decide)⟩

/-- The small configuration with a factor slightly above one. -/
def AppConfig.gentle : AppConfig :=
  { small with forwardBackoff := ⟨.finite (65 / 64), 3600, .finite 0⟩ }

/-- **The wait stops growing below the ceiling**: after sixty-six failures with a factor of
65/64 the delay is not the documented one. -/
theorem AppConfig.gentle_stops_growing :
    gentle.validateForwardBackoff External.plain = .ok () ∧
      ∃ ch ∈ gentle.channels, ∃ fwd, ch.forward = some fwd ∧
        (fwd.resolveBackoff gentle.forwardBackoff).multiplier = .finite (65 / 64) ∧
        delayForAttempt .exact (fwd.resolveBackoff gentle.forwardBackoff) 66 ≠
          some (documentedDelay (fwd.resolveBackoff gentle.forwardBackoff) (65 / 64) 66) := by
  refine ⟨Except.eq_ok_of_toBool (by decide +kernel), _, List.mem_cons_self, _, rfl, rfl, ?_⟩
  decide +kernel
