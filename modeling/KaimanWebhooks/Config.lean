/-
# Configuration

The channels, their forward targets and the process-wide defaults, with the checks made
at startup.  `validateConfig` runs them all; a configuration it refuses is never served.
-/
import KaimanWebhooks.Backoff
import KaimanWebhooks.Crypto

/-! ## Channels -/

inductive SecretType : Type where
  | plain
  | hmacSha256
  deriving DecidableEq

/-- Process-wide backoff defaults. -/
structure ForwardBackoffDefaults where
  multiplier : F64
  maxSeconds : UInt64
  jitter : F64

/-- Per-channel overrides; an absent field falls back to the default. -/
structure ForwardBackoffOverrides where
  multiplier : Option F64
  maxSeconds : Option UInt64
  jitter : Option F64

/-- The forward target of a channel. -/
structure WebhookForwardConfig where
  url : String
  intervalSeconds : UInt64
  expectedStatus : ℕ
  timeoutSeconds : UInt64
  signHeader : Option String
  signSecret : Option String
  signTemplate : Option String
  backoff : Option ForwardBackoffOverrides

/-- The channel's retry schedule: its interval is the first delay, the rest comes from its
overrides or the defaults. -/
def WebhookForwardConfig.resolveBackoff (cfg : WebhookForwardConfig)
    (defaults : ForwardBackoffDefaults) : ForwardBackoff :=
  let overrides := cfg.backoff.getD ⟨none, none, none⟩
  { base := Duration.fromSecs cfg.intervalSeconds.toNat
    multiplier := overrides.multiplier.getD defaults.multiplier
    max := Duration.fromSecs (overrides.maxSeconds.getD defaults.maxSeconds).toNat
    jitter := overrides.jitter.getD defaults.jitter }

structure WebhookChannelConfig where
  name : String
  apiReadToken : String
  webhookSecret : Option String
  secretHeader : Option String
  secretType : SecretType
  secretExtractTemplate : Option String
  secretSignTemplate : Option String
  forward : Option WebhookForwardConfig
  maxBodySize : Option ℕ
  allowedIps : Option (List String)
  monitoringMetrics : Bool
  note : Option String

/-- Whether an address may send to this channel; without a list every address may. -/
def WebhookChannelConfig.isIpAllowed (ext : External) (ch : WebhookChannelConfig)
    (ip : IpAddr) : Bool :=
  match ch.allowedIps with
  | none => true
  | some entries =>
      entries.any fun entry =>
        match ext.parseIpNet entry with
        | some contains => contains ip
        | none =>
            match IpAddr.parse entry.toList with
            | some allowed => allowed = ip
            | none => false

def minBodyLimit : ℕ := 64
def maxBodyLimit : ℕ := 104857600

/-- The settings of the process the modelled code reads. -/
structure AppConfig where
  channels : List WebhookChannelConfig
  defaultBodyLimit : ℕ
  ignoredHeaders : List String
  trustedProxies : List String
  uiAccessToken : Option String
  forwardBackoff : ForwardBackoffDefaults

/-! ## Startup checks -/

/-- Refuse with a message when `bad` holds. -/
def refuseIf (bad : Prop) [Decidable bad] (message : String) : Except String Unit :=
  if bad then .error message else .ok ()

@[simp] theorem refuseIf_eq_ok {bad : Prop} [Decidable bad] {message : String} :
    refuseIf bad message = .ok () ↔ ¬bad := by
  by_cases h : bad <;> simp [refuseIf, h]

section Checks

variable (ext : External)

/-- `hmac-sha256` needs a secret to compute the signature and a header to compare it
against. -/
def validateChannelSecret (ch : WebhookChannelConfig) : Except String Unit :=
  if ch.secretType ≠ .hmacSha256 then .ok ()
  else do
    refuseIf (ch.webhookSecret = none)
      ("channel '" ++ ch.name ++ "': hmac-sha256 requires webhook-secret")
    refuseIf (ch.secretHeader = none)
      ("channel '" ++ ch.name ++ "': hmac-sha256 requires secret-header")

/-- A template, when there is one, has to parse; `setting` names it in the error. -/
def checkTemplate (ch : WebhookChannelConfig) (setting : String) :
    Option String → Except String Unit
  | none => .ok ()
  | some tmpl =>
      (ext.validateTemplate tmpl).mapError fun e =>
        "channel '" ++ ch.name ++ "': invalid " ++ setting ++ ": " ++ e

/-- The templates used on receive. -/
def validateChannelTemplates (ch : WebhookChannelConfig) : Except String Unit := do
  checkTemplate ext ch "secret-extract-template" ch.secretExtractTemplate
  checkTemplate ext ch "secret-sign-template" ch.secretSignTemplate

/-- Signing a forward needs a header and a secret; the channel's own secret is the
fallback. -/
def validateForwardSigning (ch : WebhookChannelConfig) (fwd : WebhookForwardConfig) :
    Except String Unit := do
  refuseIf (fwd.signHeader ≠ none ∧ fwd.signSecret = none ∧ ch.webhookSecret = none)
    ("channel '" ++ ch.name ++ "': sign-header requires sign-secret " ++
      "(or a webhook-secret to use as fallback)")
  refuseIf (fwd.signHeader = none ∧ fwd.signSecret ≠ none)
    ("channel '" ++ ch.name ++ "': sign-secret requires sign-header")
  checkTemplate ext ch "sign-template" fwd.signTemplate

/-- The rules for a retry schedule; `subject` names what is checked. -/
def checkBackoffValues (subject : String) (multiplier : F64) (maxSeconds : ℕ) (jitter : F64) :
    Except String Unit := do
  refuseIf (multiplier.isFinite = false ∨ multiplier.lt (.finite 1) = true)
    (subject ++ ": backoff multiplier " ++ ext.showF64 multiplier ++
      " must be a finite number >= 1.0")
  refuseIf (maxSeconds = 0) (subject ++ ": backoff max-seconds must be at least 1")
  refuseIf (jitter.isFinite = false ∨ ((F64.finite 0).le jitter && jitter.le (.finite 1)) = false)
    (subject ++ ": backoff jitter " ++ ext.showF64 jitter ++ " must be within [0.0, 1.0]")

namespace AppConfig

variable (config : AppConfig)

/-- The first channel whose read token this is. -/
def findChannelByToken (bearer : String) : Option WebhookChannelConfig :=
  config.channels.find? fun c => c.apiReadToken = bearer

/-- The first channel of this name. -/
def findChannelByName (name : String) : Option WebhookChannelConfig :=
  config.channels.find? fun c => c.name = name

def isUiToken (bearer : String) : Bool :=
  match config.uiAccessToken with
  | some token => token = bearer
  | none => false

def validateAllowedIps : Except String Unit :=
  config.channels.forM fun ch =>
    (ch.allowedIps.getD []).forM fun entry =>
      refuseIf ((ext.parseIpNet entry).isNone ∧ (IpAddr.parse entry.toList).isNone)
        ("channel '" ++ ch.name ++ "': invalid allowed-ips entry '" ++ entry ++ "'")

def validateTemplates : Except String Unit :=
  config.channels.forM fun ch => do
    validateChannelSecret ch
    validateChannelTemplates ext ch
    match ch.forward with
    | some fwd => validateForwardSigning ext ch fwd
    | none => .ok ()

def validateBodyLimits : Except String Unit := do
  refuseIf (¬(minBodyLimit ≤ config.defaultBodyLimit ∧ config.defaultBodyLimit ≤ maxBodyLimit))
    ("default_body_limit " ++ toString config.defaultBodyLimit ++ " is out of range [" ++
      toString minBodyLimit ++ ", " ++ toString maxBodyLimit ++ "]")
  config.channels.forM fun ch =>
    match ch.maxBodySize with
    | some limit =>
        refuseIf (¬(minBodyLimit ≤ limit ∧ limit ≤ maxBodyLimit))
          ("channel '" ++ ch.name ++ "': max-body-size " ++ toString limit ++
            " is out of range [" ++ toString minBodyLimit ++ ", " ++ toString maxBodyLimit ++ "]")
    | none => .ok ()

/-- The checks of one channel's retry schedule. -/
def validateChannelBackoff (ch : WebhookChannelConfig) (fwd : WebhookForwardConfig) :
    Except String Unit := do
  -- a zero interval would make every delay zero
  refuseIf (fwd.intervalSeconds = 0)
    ("channel '" ++ ch.name ++ "': interval-seconds must be at least 1")
  let backoff := fwd.resolveBackoff config.forwardBackoff
  let maxSeconds := backoff.max.asSecs
  checkBackoffValues ext ("channel '" ++ ch.name ++ "'") backoff.multiplier maxSeconds
    backoff.jitter
  refuseIf (maxSeconds < fwd.intervalSeconds.toNat)
    ("channel '" ++ ch.name ++ "': backoff max-seconds " ++ toString maxSeconds ++
      " is below interval-seconds " ++ toString fwd.intervalSeconds.toNat)

/-- The retry schedules: the defaults and what every channel makes of them. -/
def validateForwardBackoff : Except String Unit := do
  checkBackoffValues ext "FORWARD_BACKOFF_*" config.forwardBackoff.multiplier
    config.forwardBackoff.maxSeconds.toNat config.forwardBackoff.jitter
  config.channels.forM fun ch =>
    match ch.forward with
    | some fwd => config.validateChannelBackoff ext ch fwd
    | none => .ok ()

/-- Every startup check, in the order they are made. -/
def validateConfig : Except String Unit := do
  config.validateBodyLimits
  config.validateAllowedIps ext
  config.validateTemplates ext
  config.validateForwardBackoff ext

end AppConfig

end Checks

/-! ## What an accepted configuration guarantees -/

section Accepted

variable {ext : External} {config : AppConfig}

/-- Two checks in a row pass when both do. -/
theorem Except.andThen_eq_ok {ε : Type} {x : Except ε Unit} {y : Except ε Unit} :
    (x >>= fun _ => y) = .ok () ↔ x = .ok () ∧ y = .ok () := by
  cases x with
  | error e => simp [bind, Except.bind]
  | ok u => simp [bind, Except.bind]

/-- A check passes when it does not fail. -/
theorem Except.eq_ok_of_toBool {ε : Type} {x : Except ε Unit} (h : x.toBool = true) :
    x = .ok () := by
  cases x with
  | error e => cases h
  | ok u => rfl

/-- A check of every element passes when each of them does. -/
theorem Except.forM_eq_ok {ε α : Type} {f : α → Except ε Unit} {l : List α} :
    l.forM f = .ok () ↔ ∀ a ∈ l, f a = .ok () := by
  induction l with
  | nil => simp [List.forM, pure, Except.pure]
  | cons a l ih =>
      rw [List.forM, Except.andThen_eq_ok, ih]
      simp

theorem checkBackoffValues_eq_ok {subject : String} {multiplier jitter : F64} {maxSeconds : ℕ} :
    checkBackoffValues ext subject multiplier maxSeconds jitter = .ok () ↔
      (∃ q, multiplier = .finite q ∧ 1 ≤ q) ∧ maxSeconds ≠ 0 ∧
        ∃ q, jitter = .finite q ∧ 0 ≤ q ∧ q ≤ 1 := by
  simp only [checkBackoffValues, Except.andThen_eq_ok, refuseIf_eq_ok]
  refine and_congr ?_ (and_congr Iff.rfl ?_)
  · cases multiplier <;> simp [F64.isFinite]
  · cases jitter <;> simp [F64.isFinite]

/-- **The schedule of every forwarding channel of an accepted configuration is sound.** -/
theorem sound_of_validateForwardBackoff (h : config.validateForwardBackoff ext = .ok ())
    {ch : WebhookChannelConfig} (hch : ch ∈ config.channels) {fwd : WebhookForwardConfig}
    (hfwd : ch.forward = some fwd) : (fwd.resolveBackoff config.forwardBackoff).Sound := by
  have hall := Except.forM_eq_ok.mp (Except.andThen_eq_ok.mp h).2 ch hch
  simp only [hfwd, AppConfig.validateChannelBackoff, Except.andThen_eq_ok, refuseIf_eq_ok,
    checkBackoffValues_eq_ok] at hall
  obtain ⟨hpos, ⟨hmultiplier, -, hjitter⟩, hmax⟩ := hall
  have hinterval : 0 < fwd.intervalSeconds.toNat :=
    Nat.pos_of_ne_zero fun h => hpos (UInt64.toNat_inj.mp h)
  refine ⟨⟨_, hinterval, UInt64.toNat_lt _, rfl⟩, ⟨_, UInt64.toNat_lt _, rfl⟩, ?_, hmultiplier,
    hjitter⟩
  simp only [WebhookForwardConfig.resolveBackoff, Duration.asSecs_fromSecs, not_lt] at hmax ⊢
  exact Nat.cast_le.mpr hmax

theorem sound_of_validateConfig (h : config.validateConfig ext = .ok ())
    {ch : WebhookChannelConfig} (hch : ch ∈ config.channels) {fwd : WebhookForwardConfig}
    (hfwd : ch.forward = some fwd) : (fwd.resolveBackoff config.forwardBackoff).Sound := by
  obtain ⟨-, h⟩ := Except.andThen_eq_ok.mp h
  obtain ⟨-, h⟩ := Except.andThen_eq_ok.mp h
  obtain ⟨-, hbackoff⟩ := Except.andThen_eq_ok.mp h
  exact sound_of_validateForwardBackoff hbackoff hch hfwd

end Accepted

/-! ## A small configuration -/

/-- A channel that is forwarded every minute, and another one that is polled. -/
def AppConfig.small : AppConfig where
  channels :=
    [⟨"orders", "orders-token", none, none, .plain, none, none,
        some ⟨"http://target/hook", 60, 200, 15, none, none, none, none⟩, none, none, true,
        none⟩,
     ⟨"alerts", "alerts-token", none, none, .plain, none, none, none, none, none, true, none⟩]
  defaultBodyLimit := 1048576
  ignoredHeaders := ["content-type"]
  trustedProxies := []
  uiAccessToken := none
  forwardBackoff := ⟨.finite 2, 3600, .finite (1 / 10)⟩
