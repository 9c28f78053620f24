/-
# When the schedule arithmetic is safe

The due time of a failed webhook is a 64-bit sum of the clock reading and of the whole seconds
of a delay, cast to 64 bits.  The startup checks bound the ceiling of a schedule only by what
an unsigned 64-bit number holds, so a ceiling may lead past both.  The arithmetic is safe, for
every failure and every clock below `2 ^ 40`, exactly under the ceilings of at most
`2 ^ 63 - 2 ^ 40` seconds.
-/
import KaimanWebhooks.ForwardSafety
import Mathlib.Data.UInt

/-! ## Safe arithmetic -/

/-- The arithmetic of one failure: the delay exists, and neither the cast of its seconds nor
the sum with the clock reading wraps. -/
def SafeAt (fm : FloatModel) (backoff : ForwardBackoff) (kind : FailureKind)
    (attemptsBefore : ℤ) (retryAfter : Option Duration) (unit : F64) (now : ℤ) : Prop :=
  ∃ delay, nextDelay fm backoff kind (Prog.addI64 attemptsBefore 1) retryAfter unit = some delay ∧
    Prog.addI64 attemptsBefore 1 = attemptsBefore + 1 ∧
    Prog.asI64 delay.asSecs = delay.asSecs ∧
    Prog.addI64 now (Prog.asI64 delay.asSecs) = now + delay.asSecs

/-- The arithmetic is safe for every failure kind, every count of attempts that can grow,
every wish of the target, every jitter in `[0, 1)` and every clock below `2 ^ 40`. -/
def ForwardBackoff.IsSafe (fm : FloatModel) (backoff : ForwardBackoff) : Prop :=
  ∀ (kind : FailureKind) (attemptsBefore : ℤ) (retryAfter : Option Duration) (unit : ℚ)
    (now : ℤ), 0 ≤ attemptsBefore → attemptsBefore < 2 ^ 63 - 1 → 0 ≤ unit → unit < 1 →
    0 ≤ now → now < 2 ^ 40 →
    SafeAt fm backoff kind attemptsBefore retryAfter (.finite unit) now

/-- The execution recorded a failure on time: it came to its end, it attempted to store the
failure, and every attempt named the clock reading plus the whole seconds of the delay. -/
structure RecordsOnTime {α : Type} (fm : FloatModel) (backoff : ForwardBackoff)
    (kind : FailureKind) (attemptsBefore : ℤ) (retryAfter : Option Duration) (ω : ℕ → Input)
    (ex : Executed α) : Prop where
  returns : ∃ a, ex.outcome = .done a
  attempts : ∃ now message next id r,
    (⟨.sql (.recordForwardFailure now message next id), r⟩ : DoneCall) ∈ ex.calls
  onTime : ∃ delay, nextDelay fm backoff kind (attemptsBefore + 1) retryAfter
      (clockJitterUnit fm (ω 0).nanos) = some delay ∧
    ∀ now message next id r,
      (⟨.sql (.recordForwardFailure now message next id), r⟩ : DoneCall) ∈ ex.calls →
        next = (ω 1).unixSeconds + delay.asSecs ∧ (ω 1).unixSeconds ≤ next

section SafeCeiling

variable {backoff : ForwardBackoff}

theorem ForwardBackoff.Sound.max_le_iff (h : backoff.Sound) (n : ℕ) :
    backoff.max ≤ n ↔ backoff.max.asSecs ≤ n := by
  obtain ⟨m, -, hm⟩ := h.max
  rw [hm, Duration.asSecs_fromSecs]
  exact Nat.cast_le

/-- Under a safe ceiling nothing overflows, whatever the jitter. -/
theorem ForwardBackoff.Sound.safeAt (h : backoff.Sound)
    (hmax : backoff.max.asSecs ≤ largestSafeCeiling) (fm : FloatModel) (kind : FailureKind)
    {attemptsBefore : ℤ} (hattempts0 : 0 ≤ attemptsBefore)
    (hattempts1 : attemptsBefore < 2 ^ 63 - 1) (retryAfter : Option Duration) (unit : F64)
    {now : ℤ} (hnow0 : 0 ≤ now) (hnow1 : now < 2 ^ 40) :
    SafeAt fm backoff kind attemptsBefore retryAfter unit now := by
  obtain ⟨delay, hdelay⟩ := h.exists_nextDelay ((h.max_le_iff _).mpr hmax) fm kind
    (Prog.addI64 attemptsBefore 1) retryAfter unit
  have hsecs : delay.asSecs ≤ 2 ^ 63 - 2 ^ 40 :=
    (Duration.asSecs_mono (h.nextDelay_le_max hdelay)).trans hmax
  have hcast : Prog.asI64 delay.asSecs = delay.asSecs := Prog.asI64_of_lt (by omega) (by omega)
  refine ⟨delay, hdelay, Prog.asI64_of_lt (by omega) (by omega), hcast, ?_⟩
  rw [hcast]
  exact Prog.asI64_of_lt (by omega) (by omega)

theorem asI64_lt (n : ℤ) : Prog.asI64 n < 2 ^ 63 := by
  have hlt := Int.bmod_lt (x := n) (show 0 < 2 ^ 64 by norm_num)
  have hhalf : ((2 ^ 64 : ℕ) + 1 : ℤ) / 2 = 2 ^ 63 := by norm_num
  rwa [hhalf] at hlt

/-- A ceiling that is not safe makes the due time of a rejected webhook wrap. -/
theorem ForwardBackoff.max_le_of_isSafe {fm : FloatModel} (h : backoff.IsSafe fm) :
    backoff.max.asSecs ≤ largestSafeCeiling := by
  obtain ⟨delay, hdelay, -, -, hsum⟩ := h .rejected 0 none 0 (2 ^ 40 - 1) le_rfl (by norm_num)
    le_rfl zero_lt_one (by norm_num) (by norm_num)
  obtain rfl : backoff.max = delay := Option.some.inj hdelay
  have hlt := asI64_lt ((2 ^ 40 - 1 : ℤ) + Prog.asI64 backoff.max.asSecs)
  rw [show Prog.asI64 (2 ^ 40 - 1 + Prog.asI64 backoff.max.asSecs) =
    2 ^ 40 - 1 + backoff.max.asSecs from hsum] at hlt
  unfold largestSafeCeiling
  omega

end SafeCeiling

/-- **Under a safe ceiling a failure is recorded on time**, by the forwarder and by the manual
retry alike. -/
theorem recordsOnTime_recordFailureThen {α : Type} {db : Sqlite}
    (hretry : db.retry = LockRetryPolicy.default) {backoff : ForwardBackoff} (h : backoff.Sound)
    (hmax : backoff.max.asSecs ≤ largestSafeCeiling) (kind : FailureKind) {attemptsBefore : ℤ}
    (hattempts0 : 0 ≤ attemptsBefore) (hattempts1 : attemptsBefore < 2 ^ 63 - 1)
    (retryAfter : Option Duration) (id : ℤ) (message : String)
    {next : Except WebhookRepositoryError Unit → AppAction α}
    (hnext : ∀ result, Passive db.ext (next result)) {ω : ℕ → Input}
    (hclock : (ω 1).unixSeconds < 2 ^ 40) (w : World) :
    RecordsOnTime db.ext.float backoff kind attemptsBefore retryAfter ω
      ((recordFailureThen db backoff kind attemptsBefore retryAfter id message next).run
        (perform db.ext) ω w) := by
  have hnow : Prog.asI64 (ω 1).unixSeconds = (ω 1).unixSeconds :=
    Prog.asI64_of_lt (by omega) (by omega)
  obtain ⟨delay, hdelay, hattempts, hcast, hsum⟩ :=
    h.safeAt hmax db.ext.float kind hattempts0 hattempts1 retryAfter
      (clockJitterUnit db.ext.float (ω 0).nanos) (by omega : 0 ≤ ((ω 1).unixSeconds : ℤ)) (by omega)
  rcases run_recordFailureThen hretry hnext ω w with ⟨hnone, -⟩ | ⟨delay', hdelay', hstored⟩
  · rw [hdelay] at hnone
    cases hnone
  · obtain rfl : delay = delay' := Option.some.inj (hdelay.symm.trans hdelay')
    refine ⟨hstored.endsWith.1, ?_, delay, hattempts ▸ hdelay, ?_⟩
    · obtain ⟨r, hr⟩ := hstored.stored
      exact ⟨_, _, _, _, r, hr⟩
    · intro now message' next' id' r hr
      obtain ⟨-, -, hnext', -⟩ := Query.recordForwardFailure.inj (hstored.only _ r hr)
      rw [hnext', hnow, hsum]
      omega

/-! ## The configurations under which it is safe -/

namespace AppState

/-- **When the retry schedule arithmetic is safe.**  For every accepted configuration and every
forwarding channel: no delay panics and no cast or sum wraps, in the arithmetic and in every
run of the two programs that record a failure, exactly when the ceiling of the channel is at
most `2 ^ 63 - 2 ^ 40` seconds. -/
theorem schedule_arithmetic_safe_iff (state : AppState)
    (hconfig : state.config.validateConfig state.db.ext = .ok ())
    (hretry : state.db.retry = LockRetryPolicy.default) {fw : Forwarder}
    (hfw : fw ∈ state.forwarders) :
    (fw.backoff.IsSafe state.db.ext.float ∧
      (∀ (id attemptsBefore : ℤ) (failure : Failure) (ω : ℕ → Input) (w : World),
        0 ≤ attemptsBefore → attemptsBefore < 2 ^ 63 - 1 → (ω 1).unixSeconds < 2 ^ 40 →
        RecordsOnTime state.db.ext.float fw.backoff failure.kind attemptsBefore
          failure.retryAfter ω
          ((fw.recordFailure id attemptsBefore failure).run (perform state.db.ext) ω w)) ∧
      ∀ ctx : RetryContext, ctx.state = state → ctx.forwardCfg = fw.cfg →
        ∀ (kind : FailureKind) (retryAfter : Option Duration) (message : String)
          (ω : ℕ → Input) (w : World), 0 ≤ ctx.webhook.forwardAttempts →
          ctx.webhook.forwardAttempts < 2 ^ 63 - 1 → (ω 1).unixSeconds < 2 ^ 40 →
          RecordsOnTime state.db.ext.float fw.backoff kind ctx.webhook.forwardAttempts
            retryAfter ω
            ((ctx.recordFailure kind retryAfter message).run (perform state.db.ext) ω w)) ↔
      fw.backoff.max.asSecs ≤ largestSafeCeiling := by
  obtain ⟨ch, hch, fwd, hfwd, rfl⟩ := exists_channel_of_mem_forwarders hfw
  have hsound := sound_of_validateConfig hconfig hch hfwd
  refine ⟨fun h => ForwardBackoff.max_le_of_isSafe h.1, fun hmax => ⟨?_, ?_, ?_⟩⟩
  · intro kind attemptsBefore retryAfter unit now h0 h1 _ _ hnow0 hnow1
    exact hsound.safeAt hmax state.db.ext.float kind h0 h1 retryAfter _ hnow0 hnow1
  · intro id attemptsBefore failure ω w h0 h1 hclock
    rw [Forwarder.recordFailure_eq]
    exact recordsOnTime_recordFailureThen hretry hsound hmax failure.kind h0 h1 _ id _
      (fun _ => Forwarder.passive_afterRecorded _ _ id attemptsBefore failure.message) hclock w
  · rintro ctx rfl hcfg kind retryAfter message ω w h0 h1 hclock
    rw [RetryContext.recordFailure_eq, hcfg]
    exact recordsOnTime_recordFailureThen hretry hsound hmax kind h0 h1 _ _ _
      (fun _ => RetryContext.passive_afterRecorded _ _ message) hclock w

/-- The ceiling of the small service, one hour, is safe. -/
theorem schedule_arithmetic_safe_small :
    Forwarder.small.backoff.IsSafe AppState.small.db.ext.float :=
  ((schedule_arithmetic_safe_iff AppState.small Forwarder.validateConfig_small rfl
    Forwarder.small_mem_forwarders).mpr (by decide +kernel)).1

/-- The small configuration with a ceiling of `2 ^ 63` seconds. -/
def patientConfig : AppConfig :=
  { AppConfig.small with forwardBackoff := ⟨.finite 2, 2 ^ 63, .finite (1 / 10)⟩ }

/-- **A ceiling that wraps is accepted**: a webhook rejected at time zero is due `2 ^ 63` seconds
before it. -/
theorem patient_due_time_wraps :
    patientConfig.validateConfig External.plain = .ok () ∧
      ∃ fw ∈ (AppState.mk patientConfig AppState.small.db).forwarders,
        Query.recordForwardFailure 0 "HTTP 400: " (-2 ^ 63) 1 ∈
          ((fw.recordFailure 1 0 ⟨.rejected, none, "HTTP 400: "⟩).run (perform External.plain)
            (fun _ => Input.calm 0 400) Forwarder.smallWorld).calls.filterMap fun d =>
              match d.1 with
              | .sql q => some q
              | _ => none := by
  refine ⟨Except.eq_ok_of_toBool (by decide +kernel), _, List.mem_of_getElem? (i := 0) rfl, ?_⟩
  decide +kernel

end AppState
