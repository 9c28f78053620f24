/-
# Retrying a locked database

An attempt that fails with a lock error is repeated after a growing pause, until it
succeeds, fails otherwise, or the attempts or the time budget run out.  An attempt is any
program that ends with a value or a driver error.

The retry loop adds nothing of its own to what its attempts do: between them it only
reads clocks and sleeps (`obeys_retryOnLocked`, `run_retryOnLocked`).
-/
import KaimanWebhooks.Calls

/-! ## Classifying errors -/

/-- `str::parse::<i32>`. -/
def parseI32 (cs : List Char) : Option ℤ :=
  let (negative, digits) := match cs with
    | '-' :: rest => (true, rest)
    | '+' :: rest => (false, rest)
    | _ => (false, cs)
  if digits.isEmpty then none
  else
    (Text.decimal 0 digits).bind fun n =>
      let value : ℤ := if negative then -n else n
      if -2 ^ 31 ≤ value ∧ value < 2 ^ 31 then some value else none

/-- Lock contention by the extended result code: its low byte is `SQLITE_BUSY` or
`SQLITE_LOCKED`. -/
def isLockCode (extendedCode : ℤ) : Bool := extendedCode % 256 = 5 || extendedCode % 256 = 6

namespace SqlxError

/-- The extended result code of a database error, if it has one. -/
def extendedCode : SqlxError → Option ℤ
  | .database code _ => code.bind fun c => parseI32 c.toList
  | _ => none

/-- Some other connection holds the lock right now. -/
def isRetryableLock (error : SqlxError) : Bool :=
  match error.extendedCode with
  | some code => isLockCode code
  | none => false

/-- The database, or the pool in front of it, was too contended. -/
def isLockContention (error : SqlxError) : Bool :=
  error.isRetryableLock || error = .poolTimedOut

end SqlxError

/-! ## The policy -/

/-- How aggressively a locked attempt is repeated. -/
structure LockRetryPolicy where
  maxAttempts : ℕ
  initialBackoff : Duration
  maxBackoff : Duration
  budget : Duration

/-- The policy the service runs with. -/
def LockRetryPolicy.default : LockRetryPolicy where
  maxAttempts := 5
  initialBackoff := Duration.fromMillis 25
  maxBackoff := Duration.fromMillis 400
  budget := Duration.fromSecs 4

/-- A share of the delay, below one half, from the sub-second clock; `none` stands for the
panic of a product that is no duration. -/
def lockJitter (fm : FloatModel) (base : Duration) (nanos : ℕ) : Option Duration :=
  fm.fromSecsF64 (fm.mul (fm.divBy (.finite (nanos % 1000 : ℕ)) 2000) (fm.asSecsF64 base))

/-- The pause before jitter after an attempt, counted from one. -/
def LockRetryPolicy.baseBackoff (policy : LockRetryPolicy) (attempt : ℕ) : Duration :=
  min (min (policy.initialBackoff * 2 ^ min (attempt - 1) 16) Duration.maxValue) policy.maxBackoff

/-- The pause after an attempt; `none` stands for an arithmetic panic. -/
def LockRetryPolicy.backoffAfter (fm : FloatModel) (policy : LockRetryPolicy) (attempt nanos : ℕ) :
    Option Duration :=
  let delay := policy.baseBackoff attempt
  (lockJitter fm delay nanos).bind fun jitter =>
    if delay + jitter ≤ Duration.maxValue then some (delay + jitter) else none

/-- **The default policy never panics**: its pauses are below half a second. -/
theorem backoffAfter_default_isSome (fm : FloatModel) (attempt nanos : ℕ) :
    (LockRetryPolicy.default.backoffAfter fm attempt nanos).isSome := by
  let base := LockRetryPolicy.default.baseBackoff attempt
  have hbase0 : 0 ≤ base := by
    unfold base LockRetryPolicy.baseBackoff
    refine le_min (le_min ?_ ?_) ?_
    · simp only [LockRetryPolicy.default, Duration.fromMillis]
      positivity
    · norm_num [Duration.maxValue]
    · norm_num [LockRetryPolicy.default, Duration.fromMillis]
  have hbase1 : base ≤ 2 / 5 := by
    refine (min_le_right _ _).trans ?_
    norm_num [LockRetryPolicy.default, Duration.fromMillis]
  have hunit : ((nanos % 1000 : ℕ) : ℚ) / 2000 ≤ 1 := by
    have hmod : ((nanos % 1000 : ℕ) : ℚ) < 1000 := by
      exact_mod_cast Nat.mod_lt nanos (by norm_num)
    rw [div_le_one (by norm_num)]
    linarith
  obtain ⟨a, ha, ha0, ha1⟩ := FloatModel.exists_round_eq (by positivity) hunit fm.round_one
  obtain ⟨b, hb, hb0, hb1⟩ := fm.exists_asSecsF64_eq hbase0 (by linarith)
  obtain ⟨c, hc, hc0, hc1⟩ := FloatModel.exists_round_eq (mul_nonneg ha0 hb0)
    (mul_le_one₀ ha1 hb0 hb1) fm.round_one
  have hjitter : lockJitter fm base nanos = some (fm.nanos c) := by
    simp only [lockJitter, FloatModel.divBy, ha, hb, FloatModel.mul, hc]
    exact FloatModel.fromSecsF64_finite hc0 (by linarith)
  have hnanos : fm.nanos c ≤ 1 := by
    have hmono := fm.nanos_mono hc1
    have hone := fm.nanos_nat 1
    rw [Nat.cast_one] at hone
    rwa [hone] at hmono
  have hsum : base + fm.nanos c ≤ Duration.maxValue := by
    have hmax : (2 : ℚ) ≤ Duration.maxValue := by norm_num [Duration.maxValue]
    linarith
  simp only [LockRetryPolicy.backoffAfter]
  rw [show LockRetryPolicy.default.baseBackoff attempt = base from rfl, hjitter]
  simp only [Option.bind_some, if_pos hsum, Option.isSome_some]

/-! ## The loop -/

section Loop

variable {Q : Type} {Ans : Q → Type} {T : Type} (fm : FloatModel) (policy : LockRetryPolicy)
  (attempt : Prog Ans (Except SqlxError T))

/-- The loop from attempt `number` on, with `left` attempts left after it. -/
def retryFrom (started : Duration) : ℕ → ℕ → Prog Ans (Except SqlxError T)
  | left, number =>
      attempt.bind fun
        | .ok value => .pure (.ok value)
        | .error error =>
            if error.isRetryableLock then
              match left with
              -- the attempts are used up
              | 0 => .pure (.error error)
              | left + 1 =>
                  Prog.subsecNanos.bind fun nanos =>
                    match policy.backoffAfter fm number nanos with
                    | none => .panic "overflow when computing the pause"
                    | some backoff =>
                        Prog.instantNow.bind fun now =>
                          if policy.budget ≤ max (now - started) 0 + backoff then
                            .pure (.error error)
                          else
                            (Prog.sleep backoff).bind fun _ =>
                              retryFrom started left (number + 1)
            else .pure (.error error)

/-- Run `attempt` until it succeeds, fails with something other than a lock error, or runs
out of attempts or budget. -/
def retryOnLocked : Prog Ans (Except SqlxError T) :=
  Prog.instantNow.bind fun started =>
    retryFrom fm policy attempt started (policy.maxAttempts - 1) 1

/-! ## What the loop does -/

variable {fm policy attempt}

/-- **The retry loop keeps to what its attempts keep to.**  `I` is what holds of the calls
made so far whenever an attempt begins. -/
theorem obeys_retryOnLocked {P : List (CallProgram.Done (Call Q) (Call.Answer Ans)) → Call Q → Prop}
    {post : List (CallProgram.Done (Call Q) (Call.Answer Ans)) → Except SqlxError T → Prop}
    {I : List (CallProgram.Done (Call Q) (Call.Answer Ans)) → Prop}
    {A : (c : Call Q) → Call.Answer Ans c → Prop}
    {past : List (CallProgram.Done (Call Q) (Call.Answer Ans))}
    (htiming : ∀ past c, I past → c.isTiming = true → P past c ∧ ∀ r, I (⟨c, r⟩ :: past))
    (hattempt : ∀ past, I past → attempt.Obeys A P
      (fun past' result => post past' result ∧ (∀ e, result = .error e → I past')) past)
    (hpost : ∀ past c r e, I past → c.isTiming = true → post past (.error e) →
      post (⟨c, r⟩ :: past) (.error e))
    (h : I past) : (retryOnLocked fm policy attempt).Obeys A P post past := by
  have hloop : ∀ started left number past, I past →
      (retryFrom fm policy attempt started left number).Obeys A P post past := by
    intro started left
    induction left with
    | zero =>
        intro number past hI
        rw [retryFrom, CallProgram.obeys_bind]
        refine (hattempt past hI).weaken (fun _ _ _ hP => hP) ?_
        rintro past' (e | v) - ⟨hresult, -⟩
        · simp only
          split <;> exact hresult
        · exact hresult
    | succ left ih =>
        intro number past hI
        rw [retryFrom, CallProgram.obeys_bind]
        refine (hattempt past hI).weaken (fun _ _ _ hP => hP) ?_
        rintro past' (e | v) - ⟨hresult, hI'⟩
        · simp only
          split
          · have hI₀ := hI' e rfl
            obtain ⟨hP₁, hI₁⟩ := htiming past' .subsecNanos hI₀ rfl
            refine ⟨hP₁, fun nanos _ => ?_⟩
            simp only [CallProgram.bind_pure_left]
            have hresult₁ := hpost past' .subsecNanos nanos e hI₀ rfl hresult
            cases policy.backoffAfter fm number nanos with
            | none => trivial
            | some backoff =>
                obtain ⟨hP₂, hI₂⟩ := htiming _ .instantNow (hI₁ nanos) rfl
                refine ⟨hP₂, fun now _ => ?_⟩
                simp only [CallProgram.bind_pure_left]
                split
                · exact hpost _ .instantNow now e (hI₁ nanos) rfl hresult₁
                · obtain ⟨hP₃, hI₃⟩ := htiming _ (.sleep backoff) (hI₂ now) rfl
                  exact ⟨hP₃, fun u _ => ih (number + 1) _ (hI₃ u)⟩
          · exact hresult
        · exact hresult
  obtain ⟨hP, hI⟩ := htiming past .instantNow h rfl
  exact ⟨hP, fun started _ => hloop started _ 1 _ (hI started)⟩

/-- Nothing but clock readings, pauses and failed attempts of one statement. -/
def OnlyFailed (q : Q) (calls : List (CallProgram.Done (Call Q) (Call.Answer Ans))) : Prop :=
  ∀ d ∈ calls, d.1.isTiming = true ∨ ∃ e, d = ⟨.sql q, .error e⟩

/-- **One statement under the retry loop**: failed attempts of it, clock readings and pauses.
A value comes from an attempt that succeeds and is the last call; an error is the error of
the last attempt. -/
theorem obeys_retryOnLocked_sql {q : Q}
    {P : List (CallProgram.Done (Call Q) (Call.Answer Ans)) → Call Q → Prop}
    {post : List (CallProgram.Done (Call Q) (Call.Answer Ans)) → Except SqlxError (Ans q) → Prop}
    {A : (c : Call Q) → Call.Answer Ans c → Prop}
    {past : List (CallProgram.Done (Call Q) (Call.Answer Ans))}
    (htiming : ∀ past c, c.isTiming = true → P past c)
    (hsql : ∀ new, OnlyFailed q new → P (new ++ past) (.sql q))
    (hok : ∀ new a, A (.sql q) (.ok a) → OnlyFailed q new →
      post (⟨.sql q, .ok a⟩ :: (new ++ past)) (.ok a))
    (herr : ∀ after e new, (∀ d ∈ after, d.1.isTiming = true) → A (.sql q) (.error e) →
      OnlyFailed q new → post (after ++ ⟨.sql q, .error e⟩ :: (new ++ past)) (.error e)) :
    (retryOnLocked fm policy (Prog.sql q)).Obeys A P post past := by
  -- what an attempt that begins has seen, and below what the loop leaves when it ends
  let I : List (CallProgram.Done (Call Q) (Call.Answer Ans)) → Prop := fun past' =>
    ∃ new, past' = new ++ past ∧ OnlyFailed q new
  let ended : List (CallProgram.Done (Call Q) (Call.Answer Ans)) →
      Except SqlxError (Ans q) → Prop :=
    fun past' result =>
      match result with
      | .ok a => A (.sql q) (.ok a) ∧
          ∃ new, OnlyFailed q new ∧ past' = ⟨.sql q, .ok a⟩ :: (new ++ past)
      | .error e => A (.sql q) (.error e) ∧ ∃ after new, (∀ d ∈ after, d.1.isTiming = true) ∧
          OnlyFailed q new ∧ past' = after ++ ⟨.sql q, .error e⟩ :: (new ++ past)
  have hcons : ∀ {past'} (d : CallProgram.Done (Call Q) (Call.Answer Ans)), I past' →
      (d.1.isTiming = true ∨ ∃ e, d = ⟨.sql q, .error e⟩) → I (d :: past') := by
    rintro _ d ⟨new, rfl, hnew⟩ hd
    exact ⟨d :: new, rfl, List.forall_mem_cons.mpr ⟨hd, hnew⟩⟩
  have hloop : (retryOnLocked fm policy (Prog.sql q)).Obeys A P ended past := by
    refine obeys_retryOnLocked (I := I) ?_ ?_ ?_ ⟨[], rfl, by simp [OnlyFailed]⟩
    · intro past' c hI hc
      exact ⟨htiming past' c hc, fun r => hcons ⟨c, r⟩ hI (Or.inl hc)⟩
    · rintro past' ⟨new, rfl, hnew⟩
      refine ⟨hsql new hnew, ?_⟩
      rintro (e | a) ha
      · exact ⟨⟨ha, [], new, by simp, hnew, rfl⟩,
          fun _ _ => hcons ⟨.sql q, .error e⟩ ⟨new, rfl, hnew⟩ (Or.inr ⟨e, rfl⟩)⟩
      · exact ⟨⟨ha, new, hnew, rfl⟩, fun e he => by cases he⟩
    · rintro past' c r e hI hc ⟨ha, after, new, hafter, hnew, rfl⟩
      exact ⟨ha, ⟨c, r⟩ :: after, new, List.forall_mem_cons.mpr ⟨hc, hafter⟩, hnew, rfl⟩
  refine hloop.weaken (fun _ _ _ hP => hP) ?_
  rintro past' (e | a) - hended
  · obtain ⟨ha, after, new, hafter, hnew, rfl⟩ := hended
    exact herr after e new hafter ha hnew
  · obtain ⟨ha, new, hnew, rfl⟩ := hended
    exact hok new a ha hnew

/-- **An execution of the retry loop is one execution of its last attempt**, when failing
attempts leave the state alone: a value is that attempt's value and an error that
attempt's error. -/
theorem ensures_retryOnLocked {I S : Type}
    {perform : (c : Call Q) → I → S → Call.Answer Ans c × S}
    {post : CallProgram.Outcome (Except SqlxError T) → S → Prop} {s : S}
    (htiming : ∀ c i s, c.isTiming = true → (perform c i s).2 = s)
    (hattempt : attempt.Ensures perform
      (fun o s' => post o s' ∧ ∀ e, o = .done (.error e) → s' = s) s)
    (hpanic : ∀ number nanos, policy.backoffAfter fm number nanos = none →
      post (.panicked "overflow when computing the pause") s) :
    (retryOnLocked fm policy attempt).Ensures perform post s := by
  have hloop : ∀ started left number,
      (retryFrom fm policy attempt started left number).Ensures perform post s := by
    intro started left
    induction left with
    | zero =>
        intro number
        rw [retryFrom, CallProgram.ensures_bind]
        refine hattempt.weaken ?_
        rintro ((e | v) | m) s' ⟨hresult, -⟩
        · simp only
          split <;> exact hresult
        · exact hresult
        · exact hresult
    | succ left ih =>
        intro number
        rw [retryFrom, CallProgram.ensures_bind]
        refine hattempt.weaken ?_
        rintro ((e | v) | m) s' ⟨hresult, hstate⟩
        · simp only
          split
          · rw [hstate e rfl] at hresult ⊢
            intro i₁
            simp only [CallProgram.bind_pure_left, htiming .subsecNanos i₁ s rfl]
            cases hbackoff : policy.backoffAfter fm number (perform .subsecNanos i₁ s).1 with
            | none => exact hpanic _ _ hbackoff
            | some backoff =>
                intro i₂
                simp only [CallProgram.bind_pure_left, htiming .instantNow i₂ s rfl]
                split
                · exact hresult
                · intro i₃
                  simp only [CallProgram.bind_pure_left, htiming (.sleep backoff) i₃ s rfl]
                  exact ih (number + 1)
          · exact hresult
        · exact hresult
        · exact hresult
  intro i
  simp only [CallProgram.bind_pure_left, htiming .instantNow i s rfl]
  exact hloop _ _ 1

/-- **The loop returns**: at most `maxAttempts` attempts are made, with two clock readings and a
pause between them, when no pause overflows. -/
theorem within_retryOnLocked {k : ℕ} (hattempt : attempt.Within k)
    (hbackoff : ∀ number nanos, (policy.backoffAfter fm number nanos).isSome) :
    (retryOnLocked fm policy attempt).Within ((policy.maxAttempts - 1 + 1) * (k + 3) + 1) := by
  have hloop : ∀ started left number,
      (retryFrom fm policy attempt started left number).Within ((left + 1) * (k + 3)) := by
    intro started left
    induction left with
    | zero =>
        intro number
        rw [retryFrom, show (0 + 1) * (k + 3) = k + 3 by omega]
        refine hattempt.bind ?_
        rintro (e | v)
        · dsimp only
          split <;> simp
        · simp
    | succ left ih =>
        intro number
        -- this attempt, two readings, the pause and the attempts that are left
        rw [retryFrom, show (left + 1 + 1) * (k + 3) = k + (2 + (1 + (left + 1) * (k + 3))) by ring]
        refine hattempt.bind ?_
        rintro (e | v)
        · dsimp only
          split
          · rw [show 2 + (1 + (left + 1) * (k + 3)) = (left + 1) * (k + 3) + 1 + 1 + 1 by omega]
            intro nanos
            simp only [CallProgram.bind_pure_left]
            obtain ⟨backoff, hsome⟩ := Option.isSome_iff_exists.mp (hbackoff number nanos)
            rw [hsome]
            intro now
            simp only [CallProgram.bind_pure_left]
            split
            · simp
            · exact fun _ => ih (number + 1)
          · simp
        · simp
  exact fun started => hloop started _ 1

end Loop
