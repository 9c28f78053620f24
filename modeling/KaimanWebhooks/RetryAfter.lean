/-
# Which `Retry-After` values are honoured

A target that is not ready may say for how many seconds to wait: one or more decimal digits.
The code reads the value as an unsigned 64-bit integer.  That accepts a plus sign in front of
the digits, which is no such value, and it refuses a number that does not fit, whose wait would
be the ceiling; both are treated the other way round from what they are.
-/
import KaimanWebhooks.BackoffEnvelope
import KaimanWebhooks.Forwarder

/-! ## Without any wait -/

/-- A sound schedule with all of the jitter, at the smallest jitter input, does not wait. -/
theorem ForwardBackoff.Sound.nextDelay_eq_zero {backoff : ForwardBackoff} (h : backoff.Sound)
    (fm : FloatModel) (hmax : backoff.max ≤ 3600) (hjitter : backoff.jitter = .finite 1)
    (attempts : ℤ) : nextDelay fm backoff .transient attempts none (.finite 0) = some 0 := by
  obtain ⟨delay, hdelay⟩ := h.exists_delay fm attempts
  obtain ⟨hdelay0, hdelay1⟩ := h.delay_le_max hdelay
  have hnat : ∀ n : ℕ, n ≤ 2 ^ 53 → fm.round (n : ℚ) = .finite n := fun n hn => fm.round_nat n hn
  obtain ⟨a, ha, -, -⟩ := fm.exists_asSecsF64_le (b := 3600) (c := 3601) hdelay0
    (hdelay1.trans hmax) (by exact_mod_cast hnat 3600 (by norm_num))
    (by exact_mod_cast hnat 3601 (by norm_num)) (by norm_num)
  have hceiling : 0 ≤ backoff.max := hdelay0.trans hdelay1
  -- all of the jitter at its lowest takes away the whole delay
  have hseconds : jitteredSeconds fm backoff delay (.finite 0) = .finite 0 := by
    have hminus : (0 : ℚ) + -1 = -1 := zero_add _
    have hplus : (1 : ℚ) + -1 = 0 := add_neg_cancel 1
    simp only [jitteredSeconds, F64.clamp_finite, hjitter, ha, FloatModel.mul, FloatModel.sub,
      F64.neg, FloatModel.add, min_eq_left zero_le_one, max_self, mul_zero,
      FloatModel.round_zero, hminus, FloatModel.round_neg_one, one_mul, hplus]
  have happly : applyJitter fm backoff delay (.finite 0) = some 0 := by
    have hfloor : (F64.finite 0).max (.finite 0) = .finite 0 := by decide +kernel
    unfold applyJitter
    rw [hseconds, hjitter, if_neg (by simp)]
    dsimp only
    rw [if_neg (by simp), hfloor, FloatModel.fromSecsF64_finite le_rfl (by norm_num),
      FloatModel.nanos_zero, Option.map_some, min_eq_left hceiling]
  simp only [nextDelay, reduceCtorEq, if_false]
  rw [hdelay, Option.bind_some, happly]

/-! ## Honouring a value -/

/-- A header value is honoured: whenever it comes with an unexpected status, the delay is the
number of seconds it spells, up to the ceiling, if it spells one, and otherwise the delay
without it. -/
def RetryAfterHonoured (ext : External) (value : List Char) : Prop :=
  ∀ (config : AppConfig) (ch : WebhookChannelConfig) (fwd : WebhookForwardConfig)
    (resp : WireResponse) (attempts : ℤ) (unit : F64),
    config.validateForwardBackoff ext = .ok () → ch ∈ config.channels → ch.forward = some fwd →
    resp.status ≠ fwd.expectedStatus → resp.headers.getStr "retry-after" = some value →
    nextDelay ext.float (fwd.resolveBackoff config.forwardBackoff) (classifyStatus resp.status)
        attempts resp.retryAfter unit =
      if Text.IsNumeral (Text.trim value) then
        some (min (Duration.fromSecs (Text.numeralValue (Text.trim value)))
          (fwd.resolveBackoff config.forwardBackoff).max)
      else
        nextDelay ext.float (fwd.resolveBackoff config.forwardBackoff)
          (classifyStatus resp.status) attempts none unit

/-- The small configuration with all of the jitter. -/
def AppConfig.jittery : AppConfig :=
  { small with forwardBackoff := ⟨.finite 2, 3600, .finite 1⟩ }

theorem AppConfig.validateForwardBackoff_jittery (ext : External) :
    jittery.validateForwardBackoff ext = .ok () := Except.eq_ok_of_toBool rfl

/-- What a value does in the configuration with all of the jitter, at the smallest jitter
input and with a response of any unexpected status. -/
theorem RetryAfterHonoured.jittery {ext : External} {value : List Char}
    (h : RetryAfterHonoured ext value) (hvalue : ∀ c ∈ value, HeaderValue.IsTextChar c)
    (status : ℕ) (hstatus : status ≠ 200) :
    ∃ backoff : ForwardBackoff, backoff.Sound ∧ backoff.max = 3600 ∧
      (∀ attempts, nextDelay ext.float backoff .transient attempts none (.finite 0) = some 0) ∧
      nextDelay ext.float backoff (classifyStatus status) 1 (parseRetryAfter value) (.finite 0) =
        if Text.IsNumeral (Text.trim value) then
          some (min (Duration.fromSecs (Text.numeralValue (Text.trim value))) backoff.max)
        else nextDelay ext.float backoff (classifyStatus status) 1 none (.finite 0) := by
  obtain ⟨ch, hch, fwd, hfwd, hexpected, hmax, hjitter⟩ :
      ∃ ch ∈ AppConfig.jittery.channels, ∃ fwd, ch.forward = some fwd ∧
        fwd.expectedStatus = 200 ∧
        (fwd.resolveBackoff AppConfig.jittery.forwardBackoff).max = 3600 ∧
        (fwd.resolveBackoff AppConfig.jittery.forwardBackoff).jitter = .finite 1 :=
    ⟨_, List.mem_cons_self, _, rfl, rfl, by decide +kernel, rfl⟩
  have haccepted := AppConfig.validateForwardBackoff_jittery ext
  have hsound := sound_of_validateForwardBackoff haccepted hch hfwd
  let resp : WireResponse := ⟨status, [("retry-after", HeaderValue.ofText value)], .ok ""⟩
  have hread : resp.headers.getStr "retry-after" = some value := by
    show ((some (HeaderValue.ofText value)).bind HeaderValue.toStr) = some value
    exact HeaderValue.toStr_ofText hvalue
  have hused := h AppConfig.jittery ch fwd resp 1 (.finite 0) haccepted hch hfwd
    (by rwa [hexpected]) hread
  rw [WireResponse.retryAfter, hread] at hused
  exact ⟨_, hsound, hmax,
    fun attempts => hsound.nextDelay_eq_zero ext.float hmax.le hjitter attempts, hused⟩

/-! ## The honoured values -/

section Values

variable {ext : External} {value : List Char}

/-- A numeral below `2 ^ 64` is read, with or without a plus sign. -/
theorem parseRetryAfter_eq_some {digits : List Char}
    (heq : Text.trim value = digits ∨ Text.trim value = '+' :: digits)
    (hdigits : Text.IsNumeral digits) (hlt : Text.numeralValue digits < 2 ^ 64) :
    parseRetryAfter value = some (Duration.fromSecs (Text.numeralValue digits)) := by
  rw [parseRetryAfter, Text.parseU64_eq_some_iff.mpr ⟨digits, heq, hdigits, rfl, hlt⟩]
  rfl

/-- Nothing else is read. -/
theorem parseRetryAfter_eq_none
    (h : ∀ digits, Text.trim value = digits ∨ Text.trim value = '+' :: digits →
      Text.IsNumeral digits → 2 ^ 64 ≤ Text.numeralValue digits) :
    parseRetryAfter value = none := by
  rw [parseRetryAfter, Option.map_eq_none_iff]
  by_contra hsome
  obtain ⟨n, hn⟩ := Option.ne_none_iff_exists'.mp hsome
  obtain ⟨digits, heq, hdigits, rfl, hlt⟩ := Text.parseU64_eq_some_iff.mp hn
  exact absurd (h digits heq hdigits) (not_le.mpr hlt)

/-- A numeral that is honoured fits into 64 bits: a larger one is not read, so that a transient
failure need not wait at all although the ceiling was asked for. -/
theorem RetryAfterHonoured.numeralValue_lt (h : RetryAfterHonoured ext value)
    (hvalue : ∀ c ∈ value, HeaderValue.IsTextChar c)
    (hnumeral : Text.IsNumeral (Text.trim value)) :
    Text.numeralValue (Text.trim value) < 2 ^ 64 := by
  by_contra hlarge
  obtain ⟨backoff, hsound, hmax, hzero, hused⟩ := h.jittery hvalue 503 (by decide)
  have hnone : parseRetryAfter value = none := by
    refine parseRetryAfter_eq_none ?_
    rintro digits (heq | heq) hdigits
    · rw [heq] at hlarge
      exact not_lt.mp hlarge
    · rw [heq] at hnumeral
      exact absurd hnumeral Text.IsNumeral.head_ne_plus
  -- a busy target asked for the ceiling and gets the webhook again at once
  rw [hnone, if_pos hnumeral, show classifyStatus 503 = .transient from rfl, hzero] at hused
  have hvalue64 : (2 ^ 64 : ℚ) ≤ Duration.fromSecs (Text.numeralValue (Text.trim value)) := by
    unfold Duration.fromSecs
    exact_mod_cast not_lt.mp hlarge
  have hceiling := Option.some.inj hused
  rw [hmax, min_eq_right (le_trans (by norm_num) hvalue64)] at hceiling
  norm_num at hceiling

/-- A plus sign and a numeral are honoured only when they are not read: the wait they spell
differs from that of a rejection when it is zero, and from no wait otherwise. -/
theorem RetryAfterHonoured.le_of_plus (h : RetryAfterHonoured ext value)
    (hvalue : ∀ c ∈ value, HeaderValue.IsTextChar c) {digits : List Char}
    (hplus : Text.trim value = '+' :: digits) (hdigits : Text.IsNumeral digits) :
    2 ^ 64 ≤ Text.numeralValue digits := by
  by_contra hsmall
  have hsome := parseRetryAfter_eq_some (Or.inr hplus) hdigits (not_le.mp hsmall)
  have hnot : ¬Text.IsNumeral (Text.trim value) := by
    rw [hplus]
    exact Text.IsNumeral.head_ne_plus
  -- a zero shows after a rejection, which waits for the ceiling, all else with a busy target
  rcases Nat.eq_zero_or_pos (Text.numeralValue digits) with hzero | hpos
  · obtain ⟨backoff, hsound, hmax, -, hused⟩ := h.jittery hvalue 400 (by decide)
    rw [hsome, if_neg hnot, show classifyStatus 400 = .rejected from rfl] at hused
    have hceiling := Option.some.inj hused
    rw [hzero, hmax] at hceiling
    norm_num [Duration.fromSecs] at hceiling
  · obtain ⟨backoff, hsound, hmax, hzero, hused⟩ := h.jittery hvalue 503 (by decide)
    rw [hsome, if_neg hnot, show classifyStatus 503 = .transient from rfl, hzero] at hused
    have hwait := Option.some.inj hused
    have hpositive : (0 : ℚ) < Duration.fromSecs (Text.numeralValue digits) :=
      Nat.cast_pos.mpr hpos
    have hlt : 0 < min (Duration.fromSecs (Text.numeralValue digits)) backoff.max :=
      lt_min hpositive (by rw [hmax]; norm_num)
    exact absurd hwait hlt.ne'

end Values

/-- **Which `Retry-After` values are honoured**, on every machine: the trimmed value, when it is
a numeral, is below `2 ^ 64`, and when it is a plus sign and a numeral, it is not. -/
theorem retryAfterHonoured_iff (ext : External) {value : List Char}
    (hvalue : ∀ c ∈ value, HeaderValue.IsTextChar c) :
    RetryAfterHonoured ext value ↔
      (Text.IsNumeral (Text.trim value) → Text.numeralValue (Text.trim value) < 2 ^ 64) ∧
      ∀ digits, Text.trim value = '+' :: digits → Text.IsNumeral digits →
        2 ^ 64 ≤ Text.numeralValue digits := by
  constructor
  · exact fun h => ⟨h.numeralValue_lt hvalue, fun _ => h.le_of_plus hvalue⟩
  · rintro ⟨hnumber, hplus⟩ config ch fwd resp attempts unit hconfig hch hfwd hstatus hread
    rw [WireResponse.retryAfter, hread, Option.bind_some]
    by_cases hnumeral : Text.IsNumeral (Text.trim value)
    · rw [parseRetryAfter_eq_some (Or.inl rfl) hnumeral (hnumber hnumeral), if_pos hnumeral]
      rfl
    · have hnone : parseRetryAfter value = none := by
        refine parseRetryAfter_eq_none ?_
        rintro digits (heq | heq) hdigits
        · rw [heq] at hnumeral
          exact absurd hdigits hnumeral
        · exact hplus digits heq hdigits
      rw [hnone, if_neg hnumeral]

/-- Two minutes, with blanks around them, are honoured. -/
theorem retryAfterHonoured_two_minutes :
    RetryAfterHonoured External.plain " 120\t".toList :=
  (retryAfterHonoured_iff External.plain (HeaderValue.isTextChar_of_all (by decide +kernel))).mpr
    ⟨fun _ => by decide +kernel, fun digits h => by
      rw [show Text.trim " 120\t".toList = ['1', '2', '0'] by decide +kernel] at h
      exact absurd (List.cons.inj h).1 (by decide)⟩

/-- **A plus sign is accepted and a large number is not**: five seconds after a plus sign, which
are no number of seconds, and `2 ^ 64` seconds are not honoured. -/
theorem retryAfter_not_honoured :
    ¬RetryAfterHonoured External.plain "+5".toList ∧
      ¬RetryAfterHonoured External.plain "18446744073709551616".toList := by
  constructor
  · intro h
    have hplus : Text.trim "+5".toList = '+' :: ['5'] := by decide +kernel
    have hlarge := h.le_of_plus (HeaderValue.isTextChar_of_all (by decide +kernel)) hplus
      (by decide)
    exact absurd hlarge (by decide +kernel)
  · intro h
    have hsmall := h.numeralValue_lt (HeaderValue.isTextChar_of_all (by decide +kernel))
      (by decide +kernel)
    exact absurd hsmall (by decide +kernel)
