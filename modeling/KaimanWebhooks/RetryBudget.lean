/-
# The lock retry loop against the clock

The loop is run here against a clock: an attempt takes some time and ends as it likes, a pause
takes exactly the time asked for, and nothing else takes any.  The trace of a run tells when
each attempt started, how long it took and how it ended, and the pauses between them.

However the attempts end and however long they take, there is at least one and at most the
allowed number of them, the loop goes on only after a retryable lock error, it returns what the
last attempt returned, and no attempt but the first starts once the budget is spent.
-/
import KaimanWebhooks.LockRetry
import Mathlib.Algebra.Order.Ring.Star
import Mathlib.Data.Rat.Star

/-! ## The pause after an attempt -/

/-- A duration is a whole number of nanoseconds. -/
def Duration.IsWholeNanos (d : Duration) : Prop := ∃ n : ℕ, d = n / 10 ^ 9

/-- The durations of the policy are durations of the standard library. -/
structure LockRetryPolicy.IsRepresentable (policy : LockRetryPolicy) : Prop where
  initialBackoff : policy.initialBackoff.IsWholeNanos
  maxBackoff : policy.maxBackoff.IsWholeNanos
  budget_nonneg : 0 ≤ policy.budget

theorem Duration.IsWholeNanos.nonneg {d : Duration} (h : d.IsWholeNanos) : 0 ≤ d := by
  obtain ⟨n, rfl⟩ := h
  positivity

theorem Duration.IsWholeNanos.min {a b : Duration} (ha : a.IsWholeNanos) (hb : b.IsWholeNanos) :
    Duration.IsWholeNanos (Min.min a b) := by
  rcases min_choice a b with h | h <;> rw [h] <;> assumption

theorem Duration.isWholeNanos_maxValue : Duration.maxValue.IsWholeNanos :=
  ⟨2 ^ 64 * 10 ^ 9 - 1, by norm_num [Duration.maxValue]⟩

namespace LockRetryPolicy

variable {policy : LockRetryPolicy}

theorem IsRepresentable.baseBackoff (h : policy.IsRepresentable) (attempt : ℕ) :
    (policy.baseBackoff attempt).IsWholeNanos := by
  obtain ⟨n, hn⟩ := h.initialBackoff
  refine (Duration.IsWholeNanos.min ⟨n * 2 ^ min (attempt - 1) 16, ?_⟩
    Duration.isWholeNanos_maxValue).min h.maxBackoff
  rw [hn]
  push_cast
  ring

/-- Saturation plays no part when the bound of a pause is a duration itself. -/
theorem baseBackoff_eq (hmax : policy.maxBackoff ≤ Duration.maxValue) (attempt : ℕ) :
    policy.baseBackoff attempt =
      min (policy.initialBackoff * 2 ^ min (attempt - 1) 16) policy.maxBackoff := by
  rw [baseBackoff, min_assoc, min_eq_right hmax]

end LockRetryPolicy

/-- The seconds of the jitter before they become a duration: the share is below one half by
more than four roundings can add. -/
theorem exists_jitterSeconds (fm : FloatModel) {n m : ℕ} (hn : n ≤ 2 ^ 64 * 10 ^ 9)
    (hm : m ≤ 999) :
    ∃ x, fm.mul (fm.divBy (.finite (m : ℕ)) 2000) (fm.asSecsF64 (n / 10 ^ 9)) = .finite x ∧
      0 ≤ x ∧ x ≤ 9999 / 20000 * (n / 10 ^ 9) := by
  have hm1 : (m : ℚ) ≤ 999 := by exact_mod_cast hm
  -- the share is zero or a normal number, so that its rounding error is relative
  have hshare : (m : ℚ) / 2000 = 0 ∨ ((1 : ℚ) / 2) ^ 11 ≤ m / 2000 :=
    FloatModel.natCast_div_apart m (by norm_num) (by norm_num)
  have hshare1 : (m : ℚ) / 2000 ≤ 999 / 2000 := by gcongr
  obtain ⟨u, hu, hu0, hu1⟩ := fm.exists_round_le_mul (by norm_num) hshare
    (hshare1.trans (by norm_num))
  obtain ⟨a, ha, ha0, ha1⟩ := fm.exists_asSecsF64_le_mul hn
  have ha0' : 0 ≤ a := FloatModel.nonneg_of_apart (by positivity) ha0
  obtain ⟨d, hd⟩ : ∃ d : ℚ, (n : ℚ) / 10 ^ 9 = d := ⟨_, rfl⟩
  have hd0 : 0 ≤ d := by
    rw [← hd]
    positivity
  have hd64 : d ≤ 2 ^ 64 := by
    rw [← hd, div_le_iff₀ (by positivity)]
    exact_mod_cast hn
  rw [hd] at ha ha1 ⊢
  have hproduct : u * a ≤ 999 / 2000 * (1 + 1 / 2 ^ 52) ^ 3 * d := by
    calc u * a ≤ (999 / 2000 * (1 + 1 / 2 ^ 52)) * (d * (1 + 1 / 2 ^ 52) ^ 2) := by
          refine mul_le_mul (hu1.trans ?_) ha1 ha0' (by positivity)
          exact mul_le_mul_of_nonneg_right hshare1 (by positivity)
      _ = 999 / 2000 * (1 + 1 / 2 ^ 52) ^ 3 * d := by ring
  have hlarge : u * a ≤ 2 ^ 100 := by
    calc u * a ≤ 999 / 2000 * (1 + 1 / 2 ^ 52) ^ 3 * d := hproduct
      _ ≤ 999 / 2000 * (1 + 1 / 2 ^ 52) ^ 3 * 2 ^ 64 := by gcongr
      _ ≤ 2 ^ 100 := by norm_num
  -- and so is the product
  have hapart : u * a = 0 ∨ ((1 : ℚ) / 2) ^ 41 ≤ u * a := by
    have hmul := FloatModel.mul_apart (by positivity) (by positivity) hu0 ha0
    rwa [← pow_add] at hmul
  obtain ⟨x, hx, hx0, hx1⟩ := fm.exists_round_le_mul (by norm_num) hapart hlarge
  refine ⟨x, ?_, FloatModel.nonneg_of_apart (by positivity) hx0, ?_⟩
  · simp only [FloatModel.divBy, hu, ha, FloatModel.mul, hx]
  · calc x ≤ u * a * (1 + 1 / 2 ^ 52) := hx1
      _ ≤ 999 / 2000 * (1 + 1 / 2 ^ 52) ^ 3 * d * (1 + 1 / 2 ^ 52) :=
          mul_le_mul_of_nonneg_right hproduct (by positivity)
      _ = 999 / 2000 * (1 + 1 / 2 ^ 52) ^ 4 * d := by ring
      _ ≤ 9999 / 20000 * d := by
          refine mul_le_mul_of_nonneg_right ?_ hd0
          norm_num

/-- Rounding to the nearest nanosecond does not lead from below one half of a whole number of
nanoseconds to above it. -/
theorem FloatModel.RoundsToNearestNano.nanos_le_half {fm : FloatModel}
    (h : fm.RoundsToNearestNano) {x : ℚ} {n : ℕ} (hx0 : 0 ≤ x)
    (hx1 : x ≤ 9999 / 20000 * (n / 10 ^ 9)) : fm.nanos x ≤ n / 10 ^ 9 / 2 := by
  obtain ⟨k, hk, hclose⟩ := h x hx0
  have hbelow : x * 10 ^ 9 ≤ 9999 / 20000 * n := by
    calc x * 10 ^ 9 ≤ 9999 / 20000 * (n / 10 ^ 9) * 10 ^ 9 :=
          mul_le_mul_of_nonneg_right hx1 (by positivity)
      _ = 9999 / 20000 * n := by ring
  -- `2 * k` lies less than one above `n`, and both are whole
  have htwice : 2 * k ≤ n := by
    rcases Nat.eq_zero_or_pos n with rfl | hpos
    · have hzero : x = 0 := le_antisymm (by simpa using hx1) hx0
      rw [hzero, FloatModel.nanos_zero, eq_comm, div_eq_zero_iff] at hk
      have hk0 : k = 0 := by
        rcases hk with hk | hk
        · exact_mod_cast hk
        · norm_num at hk
      omega
    · have hn0 : (0 : ℚ) < n := by exact_mod_cast hpos
      rw [hk] at hclose
      have hle := (abs_le.mp hclose).2
      rw [sub_le_iff_le_add, div_le_iff₀ (by positivity)] at hle
      have hlt : (2 * k : ℚ) < n + 1 := by
        have hsum : (1 / (2 * 10 ^ 9) + x) * 10 ^ 9 = 1 / 2 + x * 10 ^ 9 := by ring
        rw [hsum] at hle
        linarith
      have hlt' : 2 * k < n + 1 := by exact_mod_cast hlt
      omega
  have htwice' : (2 * k : ℚ) ≤ n := by exact_mod_cast htwice
  rw [hk, div_div, div_le_div_iff₀ (by positivity) (by positivity)]
  linarith

/-- **The jitter is at most half of the delay**, rounding included, and a little less when the
delay is long. -/
theorem exists_lockJitter {fm : FloatModel} (hnanos : fm.RoundsToNearestNano) {base : Duration}
    (hbase : base.IsWholeNanos) (hmax : base ≤ Duration.maxValue) (nanos : ℕ) :
    ∃ jitter, lockJitter fm base nanos = some jitter ∧ 0 ≤ jitter ∧ jitter ≤ base / 2 ∧
      jitter ≤ 9999 / 20000 * base + 1 := by
  obtain ⟨n, rfl⟩ := hbase
  have hn : n ≤ 2 ^ 64 * 10 ^ 9 := by
    have hle : (n : ℚ) ≤ 2 ^ 64 * 10 ^ 9 := by
      rw [div_le_iff₀ (by positivity), Duration.maxValue] at hmax
      linarith
    exact_mod_cast hle
  have hshare : nanos % 1000 ≤ 999 := by omega
  obtain ⟨x, hx, hx0, hx1⟩ := exists_jitterSeconds fm hn hshare
  have hx64 : x < 2 ^ 64 := by
    rw [Duration.maxValue] at hmax
    linarith
  refine ⟨fm.nanos x, ?_, FloatModel.nanos_nonneg hx0, hnanos.nanos_le_half hx0 hx1, ?_⟩
  · rw [lockJitter, hx, FloatModel.fromSecsF64_finite hx0 hx64]
  · obtain ⟨-, -, hclose⟩ := hnanos x hx0
    have hle := (abs_le.mp hclose).2
    linarith

/-- **The pause after an attempt** lies between the delay and one and a half of it.  The time
the loop has run for and the pause add up to a duration for three million years. -/
theorem LockRetryPolicy.IsRepresentable.exists_backoffAfter {fm : FloatModel}
    {policy : LockRetryPolicy} (h : policy.IsRepresentable) (hnanos : fm.RoundsToNearestNano)
    (hmax : policy.maxBackoff * (3 / 2) ≤ Duration.maxValue) (attempt nanos : ℕ) :
    ∃ pause, policy.backoffAfter fm attempt nanos = some pause ∧
      policy.baseBackoff attempt ≤ pause ∧ pause ≤ 3 / 2 * policy.baseBackoff attempt ∧
      ∀ elapsed ≤ 10 ^ 14, elapsed + pause ≤ Duration.maxValue := by
  have hnonneg := h.maxBackoff.nonneg
  have hbase := (h.baseBackoff attempt).nonneg
  have hle : policy.baseBackoff attempt ≤ policy.maxBackoff := min_le_right _ _
  obtain ⟨jitter, hjitter, hjitter0, hhalf, hless⟩ := exists_lockJitter hnanos
    (h.baseBackoff attempt) (by linarith) nanos
  refine ⟨policy.baseBackoff attempt + jitter, ?_, by linarith, by linarith, ?_⟩
  · simp only [LockRetryPolicy.backoffAfter, hjitter, Option.bind_some]
    rw [if_pos (by linarith)]
  · intro elapsed helapsed
    rw [Duration.maxValue] at hmax ⊢
    linarith

/-! ## The clock -/

/-- One attempt as the clock sees it. -/
structure TimedAttempt (T : Type) where
  start : Duration
  duration : Duration
  outcome : Except SqlxError T

/-- What happened so far: the attempts, oldest first, and every pause with the number of
attempts made before it. -/
structure LockTrace (T : Type) where
  now : Duration
  attempts : List (TimedAttempt T)
  pauses : List (ℕ × Duration)

/-- What the environment decides: how an attempt ends, how long it takes, and the reading the
jitter is taken from. -/
structure LockInput (T : Type) where
  outcome : Except SqlxError T
  duration : Duration
  duration_nonneg : 0 ≤ duration
  nanos : Fin 1000000000

/-- Attempts and pauses take time; the other calls do not. -/
def LockInput.perform {T : Type} :
    (c : Call Unit) → LockInput T → LockTrace T → Call.Answer (fun _ => T) c × LockTrace T
  | .sql _, i, s =>
      (i.outcome,
        { s with
          now := s.now + i.duration
          attempts := s.attempts ++ [⟨s.now, i.duration, i.outcome⟩] })
  | .instantNow, _, s => (s.now, s)
  | .systemNow, _, s => (0, s)
  | .subsecNanos, i, s => (i.nanos, s)
  | .sleep d, _, s =>
      ((), { s with now := s.now + d, pauses := s.pauses ++ [(s.attempts.length, d)] })
  | .send _ _, _, s => (.error "", s)
  | .readStatus _, _, s => (none, s)
  | .updateStatus _ _, _, s => (false, s)
  | .logError _, _, s => ((), s)

/-- The attempt failed because another connection holds the lock. -/
def TimedAttempt.IsLocked {T : Type} (a : TimedAttempt T) : Prop :=
  ∃ e, a.outcome = .error e ∧ e.isRetryableLock = true

/-- The pause after attempt `k` lies between the delay and one and a half of it. -/
def LockRetryPolicy.PauseFits (policy : LockRetryPolicy) (k : ℕ) (pause : Duration) : Prop :=
  min (policy.initialBackoff * 2 ^ min (k - 1) 16) policy.maxBackoff ≤ pause ∧
    pause ≤ 3 / 2 * min (policy.initialBackoff * 2 ^ min (k - 1) 16) policy.maxBackoff

/-- A run of the loop that began at `started` kept the bounds of the policy and returned
`result`. -/
structure LockTrace.Bounded {T : Type} (policy : LockRetryPolicy) (started : Duration)
    (trace : LockTrace T) (result : Except SqlxError T) : Prop where
  /-- there is an attempt, and no more than allowed -/
  count : 1 ≤ trace.attempts.length ∧ trace.attempts.length ≤ max 1 policy.maxAttempts
  /-- only a lock error is followed by another attempt -/
  earlier : ∀ a ∈ trace.attempts.dropLast, a.IsLocked
  /-- the loop returns what the last attempt returned -/
  last : ∃ a, trace.attempts.getLast? = some a ∧ a.outcome = result
  /-- no attempt but the first starts once the budget is spent -/
  starts : ∀ a ∈ trace.attempts.tail, a.start < started + policy.budget
  lasts : ∀ longest, (∀ a ∈ trace.attempts, a.duration ≤ longest) →
    trace.now ≤ started + (policy.budget + longest)
  /-- there is one pause between two attempts -/
  pauses : trace.pauses.map Prod.fst = List.range' 1 (trace.attempts.length - 1)
  fits : ∀ p ∈ trace.pauses, policy.PauseFits p.1 p.2

/-! ## One turn of the loop -/

section Turn

variable {T : Type} {policy : LockRetryPolicy} {started : Duration}

/-- What holds whenever attempt `number` is about to start. -/
structure LockTrace.Before (policy : LockRetryPolicy) (started : Duration) (number : ℕ)
    (trace : LockTrace T) : Prop where
  count : trace.attempts.length + 1 = number
  locked : ∀ a ∈ trace.attempts, a.IsLocked
  starts : ∀ a ∈ trace.attempts.tail, a.start < started + policy.budget
  now : started ≤ trace.now ∧ (trace.now = started ∨ trace.now < started + policy.budget)
  first : trace.attempts ≠ [] → trace.now < started + policy.budget
  pauses : trace.pauses.map Prod.fst = List.range' 1 trace.attempts.length
  fits : ∀ p ∈ trace.pauses, policy.PauseFits p.1 p.2

/-- Nothing happened before the first attempt. -/
theorem LockTrace.before_first (policy : LockRetryPolicy) (started : Duration) :
    LockTrace.Before (T := T) policy started 1 ⟨started, [], []⟩ where
  count := rfl
  locked := by simp
  starts := by simp
  now := ⟨le_rfl, Or.inl rfl⟩
  first := fun h => absurd rfl h
  pauses := rfl
  fits := by simp

variable {number : ℕ} {trace : LockTrace T} (h : trace.Before policy started number)
  (i : LockInput T)
include h

/-- The later attempts, one more made, started within the budget. -/
theorem LockTrace.Before.starts_next :
    ∀ a ∈ (trace.attempts ++ [(⟨trace.now, i.duration, i.outcome⟩ : TimedAttempt T)]).tail,
      a.start < started + policy.budget := by
  cases hattempts : trace.attempts with
  | nil => simp
  | cons first later =>
      -- this attempt is a later one now
      have hlater := h.starts
      have hnow := h.first (by simp [hattempts])
      rw [hattempts, List.tail_cons] at hlater
      simp only [List.cons_append, List.tail_cons, List.mem_append, List.mem_singleton]
      rintro a (ha | rfl)
      · exact hlater a ha
      · exact hnow

/-- When the loop ends with this attempt, the bounds are kept. -/
theorem LockTrace.Before.bounded (hbudget : 0 ≤ policy.budget)
    (hnumber : number ≤ max 1 policy.maxAttempts) :
    LockTrace.Bounded policy started (LockInput.perform (.sql ()) i trace).2 i.outcome where
  count := by
    have hcount := h.count
    simp only [LockInput.perform, List.length_append, List.length_singleton]
    omega
  earlier := by
    simp only [LockInput.perform, List.dropLast_concat]
    exact h.locked
  last := ⟨⟨trace.now, i.duration, i.outcome⟩, by simp [LockInput.perform], rfl⟩
  starts := h.starts_next i
  lasts := by
    intro longest hlongest
    have hduration : i.duration ≤ longest :=
      hlongest ⟨trace.now, i.duration, i.outcome⟩ (by simp [LockInput.perform])
    simp only [LockInput.perform]
    rcases h.now.2 with hnow | hnow <;> linarith
  pauses := by
    simp only [LockInput.perform, List.length_append, List.length_singleton, Nat.add_sub_cancel]
    exact h.pauses
  fits := h.fits

/-- After a lock error and a pause within the budget the next attempt is about to start. -/
theorem LockTrace.Before.next {e : SqlxError} (hlocked : e.isRetryableLock = true)
    (houtcome : i.outcome = .error e) {pause : Duration} (hpause0 : 0 ≤ pause)
    (hpause : policy.PauseFits number pause)
    (hbudget : trace.now + i.duration - started + pause < policy.budget) (j : LockInput T) :
    (LockInput.perform (.sleep pause) j (LockInput.perform (.sql ()) i trace).2).2.Before policy
      started (number + 1) where
  count := by
    have hcount := h.count
    simp only [LockInput.perform, List.length_append, List.length_singleton]
    omega
  locked := by
    simp only [LockInput.perform, List.mem_append, List.mem_singleton]
    rintro a (ha | rfl)
    · exact h.locked a ha
    · exact ⟨e, houtcome, hlocked⟩
  starts := h.starts_next i
  now := by
    have hduration := i.duration_nonneg
    have hnow := h.now.1
    simp only [LockInput.perform]
    exact ⟨by linarith, Or.inr (by linarith)⟩
  first := fun _ => by
    simp only [LockInput.perform]
    linarith
  pauses := by
    have hpauses := h.pauses
    simp only [LockInput.perform, List.map_append, List.map_cons, List.map_nil,
      List.length_append, List.length_singleton, hpauses, List.range'_concat]
    simp [Nat.add_comm]
  fits := by
    simp only [LockInput.perform, List.mem_append, List.mem_singleton]
    rintro p (hp | rfl)
    · exact h.fits p hp
    · have hcount := h.count
      simp only [List.length_append, List.length_singleton]
      rw [hcount]
      exact hpause

end Turn

/-! ## The calls of the loop -/

section Calls

variable {T α : Type} {post : CallProgram.Outcome α → LockTrace T → Prop} {trace : LockTrace T}

theorem LockTrace.ensures_sql_bind {next : Except SqlxError T → Prog (fun _ : Unit => T) α} :
    ((Prog.sql ()).bind next).Ensures LockInput.perform post trace ↔
      ∀ i : LockInput T, (next i.outcome).Ensures LockInput.perform post
        (LockInput.perform (.sql ()) i trace).2 := Iff.rfl

theorem LockTrace.ensures_subsecNanos_bind {next : Fin 1000000000 → Prog (fun _ : Unit => T) α} :
    (Prog.subsecNanos.bind next).Ensures LockInput.perform post trace ↔
      ∀ i : LockInput T, (next i.nanos).Ensures LockInput.perform post trace := Iff.rfl

theorem LockTrace.ensures_instantNow_bind {next : Duration → Prog (fun _ : Unit => T) α} :
    (Prog.instantNow.bind next).Ensures LockInput.perform post trace ↔
      ∀ _ : LockInput T, (next trace.now).Ensures LockInput.perform post trace := Iff.rfl

theorem LockTrace.ensures_sleep_bind {pause : Duration}
    {next : Unit → Prog (fun _ : Unit => T) α} :
    ((Prog.sleep pause).bind next).Ensures LockInput.perform post trace ↔
      ∀ i : LockInput T, (next ()).Ensures LockInput.perform post
        (LockInput.perform (.sleep pause) i trace).2 := Iff.rfl

end Calls

/-- A pause is always found, and it fits the number of the attempt before it. -/
theorem LockRetryPolicy.IsRepresentable.exists_pause {fm : FloatModel}
    {policy : LockRetryPolicy} (h : policy.IsRepresentable) (hnanos : fm.RoundsToNearestNano)
    (hmax : policy.maxBackoff * (3 / 2) ≤ Duration.maxValue) (number nanos : ℕ) :
    ∃ pause, policy.backoffAfter fm number nanos = some pause ∧ 0 ≤ pause ∧
      policy.PauseFits number pause := by
  obtain ⟨pause, hpause, hlow, hhigh, -⟩ := h.exists_backoffAfter hnanos hmax number nanos
  have hceiling : policy.maxBackoff ≤ Duration.maxValue := by
    have hnonneg := h.maxBackoff.nonneg
    linarith
  have hpause0 : 0 ≤ pause := (h.baseBackoff number).nonneg.trans hlow
  rw [LockRetryPolicy.baseBackoff_eq hceiling] at hlow hhigh
  exact ⟨pause, hpause, hpause0, hlow, hhigh⟩

/-! ## The loop -/

/-- **The loop, whenever an attempt is about to start**, returns within the bounds of the policy:
by induction on the attempts that are left after it. -/
theorem LockTrace.Before.ensures_retryFrom {T : Type} {fm : FloatModel}
    (hnanos : fm.RoundsToNearestNano) {policy : LockRetryPolicy} (hpolicy : policy.IsRepresentable)
    (hmax : policy.maxBackoff * (3 / 2) ≤ Duration.maxValue) {started : Duration} (left : ℕ)
    {number : ℕ} {trace : LockTrace T} (hbefore : trace.Before policy started number)
    (hnumber : number + left ≤ max 1 policy.maxAttempts) :
    (retryFrom fm policy (Prog.sql ()) started left number).Ensures LockInput.perform
      (fun o trace => ∃ result, o = .done result ∧ LockTrace.Bounded policy started trace result)
      trace := by
  induction left generalizing number trace with
  | zero =>
      rw [retryFrom, LockTrace.ensures_sql_bind]
      intro i
      have hbounded := hbefore.bounded i hpolicy.budget_nonneg (by omega)
      cases houtcome : i.outcome with
      | ok value => exact ⟨_, rfl, houtcome ▸ hbounded⟩
      | error e =>
          -- whatever the error, no attempt is left
          dsimp only
          split <;> exact ⟨_, rfl, houtcome ▸ hbounded⟩
  | succ left ih =>
      rw [retryFrom, LockTrace.ensures_sql_bind]
      intro i
      have hbounded := hbefore.bounded i hpolicy.budget_nonneg (by omega)
      cases houtcome : i.outcome with
      | ok value => exact ⟨_, rfl, houtcome ▸ hbounded⟩
      | error e =>
          dsimp only
          split
          · rename_i hlocked
            rw [LockTrace.ensures_subsecNanos_bind]
            intro j
            obtain ⟨pause, hpause, hpause0, hfits⟩ :=
              hpolicy.exists_pause hnanos hmax number j.nanos
            rw [hpause]
            dsimp only
            rw [LockTrace.ensures_instantNow_bind]
            intro _
            split
            · exact ⟨_, rfl, houtcome ▸ hbounded⟩
            · rename_i hspent
              -- the clock is read when the attempt has failed, before the pause
              have hspent' : trace.now + i.duration - started + pause < policy.budget :=
                lt_of_le_of_lt (by gcongr; exact le_max_left _ _) (not_le.mp hspent)
              rw [LockTrace.ensures_sleep_bind]
              intro l
              exact ih (hbefore.next i hlocked houtcome hpause0 hfits hspent' l) (by omega)
          · exact ⟨_, rfl, houtcome ▸ hbounded⟩

/-- **The lock retry loop is bounded and transparent.**  Under every policy whose pauses are
durations, however the attempts end and however long they take, the loop returns, and its run
keeps the bounds of the policy. -/
theorem retryOnLocked_bounded {T : Type} {fm : FloatModel} (hnanos : fm.RoundsToNearestNano)
    {policy : LockRetryPolicy} (hpolicy : policy.IsRepresentable)
    (hmax : policy.maxBackoff * (3 / 2) ≤ Duration.maxValue) (ω : ℕ → LockInput T)
    (started : Duration) :
    ∃ result,
      ((retryOnLocked fm policy (Prog.sql ())).run LockInput.perform ω
        ⟨started, [], []⟩).outcome = .done result ∧
      LockTrace.Bounded policy started
        ((retryOnLocked fm policy (Prog.sql ())).run LockInput.perform ω
          ⟨started, [], []⟩).state result := by
  have hloop := (LockTrace.before_first (T := T) policy started).ensures_retryFrom hnanos hpolicy
    hmax (policy.maxAttempts - 1) (by omega)
  have hensures : (retryOnLocked fm policy (Prog.sql ())).Ensures LockInput.perform
      (fun o trace => ∃ result, o = .done result ∧ LockTrace.Bounded policy started trace result)
      ⟨started, [], []⟩ := fun _ => hloop
  exact hensures.of_run ω

/-- The policy of the service on a database that stays locked, each attempt taking a second. -/
theorem retryOnLocked_bounded_default :
    ∃ result : Except SqlxError ℕ,
      ((retryOnLocked .nearestNano .default (Prog.sql ())).run LockInput.perform
        (fun _ => ⟨.error (.database (some "5") "database is locked"), 1, by norm_num, 0⟩)
        ⟨0, [], []⟩).outcome = .done result ∧
      LockTrace.Bounded .default 0
        ((retryOnLocked .nearestNano .default (Prog.sql ())).run LockInput.perform
          (fun _ => ⟨.error (.database (some "5") "database is locked"), 1, by norm_num, 0⟩)
          ⟨0, [], []⟩).state result :=
  retryOnLocked_bounded FloatModel.roundsToNearestNano_nearestNano
    ⟨⟨25000000, by norm_num [LockRetryPolicy.default, Duration.fromMillis]⟩,
      ⟨400000000, by norm_num [LockRetryPolicy.default, Duration.fromMillis]⟩,
      by norm_num [LockRetryPolicy.default, Duration.fromSecs]⟩
    (by norm_num [LockRetryPolicy.default, Duration.fromMillis, Duration.maxValue]) _ 0
