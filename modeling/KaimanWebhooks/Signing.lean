/-
# Signing a forward request

Three places compute the value of the signature header, each in its own words: the forwarder,
the manual retry and the test send.  All of them compute `signatureValue`, and the two that
forward a stored webhook build the same request around it.
-/
import KaimanWebhooks.Service

/-! ## The signature of a body -/

/-- A result that is there comes from a computation that did not fail. -/
theorem Except.eq_ok_of_toOption_eq_some {ε α : Type} {x : Except ε α} {a : α}
    (h : x.toOption = some a) : x = .ok a := by
  cases x with
  | error e => cases h
  | ok b => exact congrArg Except.ok (Option.some.inj h)

/-- The value a signature header has for a body: the keyed hash under the channel's signing
secret, or else its webhook secret, through the template when there is one. -/
def signatureValue (ext : External) (ch : WebhookChannelConfig) (fwd : WebhookForwardConfig)
    (body : Bytes) : Option String :=
  (fwd.signSecret.or ch.webhookSecret).bind fun secret =>
    match fwd.signTemplate with
    | none => some (ext.hmacSha256Hex (utf8Bytes secret) body)
    | some template =>
        (ext.renderSignTemplate template (ext.hmacSha256Hex (utf8Bytes secret) body)).toOption

/-- The value of the signature header of a test send.  A secret that comes with the request
wins over the configured one: the endpoint is there to try a secret out. -/
def signTestPayload (ext : External) (channelConfig : WebhookChannelConfig)
    (forwardCfg : WebhookForwardConfig) (requestSecret : Option String) (bodyBytes : Bytes) :
    Except HttpResponse String :=
  match (requestSecret.filter fun s => s ≠ "").or
      (forwardCfg.signSecret.or channelConfig.webhookSecret) with
  | none =>
      .error (.text 400
        "No secret provided and no sign_secret or webhook_secret configured for this channel")
  | some secret =>
      let signature := ext.hmacSha256Hex (utf8Bytes secret) bodyBytes
      match forwardCfg.signTemplate with
      | none => .ok signature
      | some tmpl =>
          match ext.renderSignTemplate tmpl signature with
          | .ok headerValue => .ok headerValue
          | .error _ => .error (.text 500 "Template error")

/-- A test send without a secret of its own signs like a forward. -/
theorem toOption_signTestPayload (ext : External) (ch : WebhookChannelConfig)
    (fwd : WebhookForwardConfig) {requestSecret : Option String}
    (hsecret : (requestSecret.filter fun s => s ≠ "") = none) (body : Bytes) :
    (signTestPayload ext ch fwd requestSecret body).toOption = signatureValue ext ch fwd body := by
  unfold signTestPayload signatureValue
  rw [hsecret, Option.none_or]
  cases fwd.signSecret.or ch.webhookSecret with
  | none => rfl
  | some secret =>
      dsimp only [Option.bind_some]
      cases fwd.signTemplate with
      | none => rfl
      | some template =>
          dsimp only
          cases ext.renderSignTemplate template (ext.hmacSha256Hex (utf8Bytes secret) body) <;> rfl

theorem RetryContext.toOption_sign (ctx : RetryContext) (payload : Bytes) :
    (ctx.sign payload).toOption =
      signatureValue ctx.state.db.ext ctx.channelCfg ctx.forwardCfg payload := by
  unfold RetryContext.sign signatureValue
  cases ctx.forwardCfg.signSecret.or ctx.channelCfg.webhookSecret with
  | none => rfl
  | some secret =>
      dsimp only [Option.bind_some]
      cases ctx.forwardCfg.signTemplate with
      | none => rfl
      | some template =>
          dsimp only
          cases ctx.state.db.ext.renderSignTemplate template
            (ctx.state.db.ext.hmacSha256Hex (utf8Bytes secret) payload) <;> rfl

/-! ## The request around it -/

/-- The request that forwards a webhook, with the signature header when there is one. -/
def forwardRequest (ignoredHeaders : List String) (fwd : WebhookForwardConfig)
    (signature : Option (String × String)) (webhook : Webhook) : HttpRequest where
  method := .post
  url := fwd.url
  timeout := fwd.timeoutSeconds.toNat
  headers := forwardHeaders ignoredHeaders fwd.signHeader webhook.headers ++ signature.toList
  body := webhook.payload

/-- The request that forwards a webhook of a channel, unless it cannot be signed. -/
def AppState.signedRequest (state : AppState) (ch : WebhookChannelConfig)
    (fwd : WebhookForwardConfig) (webhook : Webhook) : Option HttpRequest :=
  match fwd.signHeader with
  | none => some (forwardRequest state.config.ignoredHeaders fwd none webhook)
  | some signHeader =>
      (signatureValue state.db.ext ch fwd webhook.payload).map fun value =>
        forwardRequest state.config.ignoredHeaders fwd (some (signHeader, value)) webhook

/-- The forwarder started for a channel with a forward target. -/
def AppState.forwarderOf (state : AppState) (ch : WebhookChannelConfig)
    (fwd : WebhookForwardConfig) : Forwarder where
  channel := ch.name
  cfg := fwd
  backoff := fwd.resolveBackoff state.config.forwardBackoff
  webhookSecret := ch.webhookSecret
  db := state.db
  ignoredHeaders := state.config.ignoredHeaders

@[simp] theorem AppState.forwarderOf_db (state : AppState) (ch : WebhookChannelConfig)
    (fwd : WebhookForwardConfig) : (state.forwarderOf ch fwd).db = state.db := rfl

theorem AppState.forwarders_eq (state : AppState) :
    state.forwarders =
      state.config.channels.filterMap fun ch => ch.forward.map (state.forwarderOf ch) := rfl

/-- The request of the forwarder. -/
theorem AppState.buildRequest_forwarderOf (state : AppState) (ch : WebhookChannelConfig)
    (fwd : WebhookForwardConfig) (webhook : Webhook) :
    (state.forwarderOf ch fwd).buildRequest webhook = state.signedRequest ch fwd webhook := by
  unfold Forwarder.buildRequest AppState.signedRequest forwardRequest signatureValue forwarderOf
  dsimp only
  cases fwd.signHeader with
  | none => simp only [Option.toList_none, List.append_nil]
  | some signHeader =>
      dsimp only
      cases fwd.signSecret.or ch.webhookSecret with
      | none => rfl
      | some secret =>
          dsimp only [Option.bind_some]
          cases fwd.signTemplate with
          | none => rfl
          | some template =>
              dsimp only
              cases state.db.ext.renderSignTemplate template
                (state.db.ext.hmacSha256Hex (utf8Bytes secret) webhook.payload) <;> rfl

/-- The request of the manual retry. -/
theorem RetryContext.toOption_buildRequest (ctx : RetryContext) :
    ctx.buildRequest.toOption =
      ctx.state.signedRequest ctx.channelCfg ctx.forwardCfg ctx.webhook := by
  unfold RetryContext.buildRequest AppState.signedRequest forwardRequest
  cases ctx.forwardCfg.signHeader with
  | none => simp only [Except.toOption, Option.toList_none, List.append_nil]
  | some signHeader =>
      dsimp only
      rw [← ctx.toOption_sign]
      cases ctx.sign ctx.webhook.payload <;> rfl

/-! ## The paths agree -/

/-- Two requests that differ at most in the order of their headers. -/
structure SameRequest (r₁ r₂ : HttpRequest) : Prop where
  method : r₁.method = r₂.method
  url : r₁.url = r₂.url
  timeout : r₁.timeout = r₂.timeout
  body : r₁.body = r₂.body
  headers : r₁.headers.Perm r₂.headers

/-- The request sends the stored payload under its own content type, copies stored headers
none of which has the name of the signature header, and adds one signature. -/
structure SignedForward (fwd : WebhookForwardConfig) (webhook : Webhook)
    (signHeader value : String) (request : HttpRequest) : Prop where
  url : request.url = fwd.url
  timeout : request.timeout = fwd.timeoutSeconds.toNat
  body : request.body = webhook.payload
  headers : ∃ copied, request.headers =
      ("content-type", "application/json") :: copied ++ [(signHeader, value)] ∧
    ∀ header ∈ copied, header ∈ webhook.headers.entries ∧
      eqIgnoreAsciiCase signHeader header.1 = false

/-- A request with a signature copies nothing under its name. -/
theorem signedForward_forwardRequest {ignoredHeaders : List String} {fwd : WebhookForwardConfig}
    {signHeader : String} (hsign : fwd.signHeader = some signHeader) (value : String)
    (webhook : Webhook) :
    SignedForward fwd webhook signHeader value
      (forwardRequest ignoredHeaders fwd (some (signHeader, value)) webhook) := by
  refine ⟨rfl, rfl, rfl, _, rfl, fun header hheader => ?_⟩
  obtain ⟨hmem, hforwarded⟩ := List.mem_filter.mp hheader
  refine ⟨hmem, ?_⟩
  rw [hsign] at hforwarded
  simp only [isForwarded, Option.any_some, Bool.and_eq_true, Bool.not_eq_true'] at hforwarded
  exact hforwarded.2

/-- Webhooks that differ at most in the order of their headers are forwarded alike. -/
theorem sameRequest_forwardRequest {ignoredHeaders : List String} {fwd : WebhookForwardConfig}
    {signature : Option (String × String)} {w₁ w₂ : Webhook} (hpayload : w₁.payload = w₂.payload)
    (hheaders : w₁.headers.SameEntries w₂.headers) :
    SameRequest (forwardRequest ignoredHeaders fwd signature w₁)
      (forwardRequest ignoredHeaders fwd signature w₂) :=
  ⟨rfl, rfl, rfl, hpayload, ((hheaders.filter _).cons _).append_right _⟩

/-- **All signing paths agree.**  For every channel with a signature header the forwarder and
the manual retry of a stored webhook both fail, when the payload has no signature, or build the
same request around it; a test send without a secret of its own signs every body alike. -/
theorem RetryContext.signing_paths_agree (ctx : RetryContext) {signHeader : String}
    (hsign : ctx.forwardCfg.signHeader = some signHeader) (webhook : Webhook)
    (hpayload : webhook.payload = ctx.webhook.payload)
    (hheaders : webhook.headers.SameEntries ctx.webhook.headers) :
    (signatureValue ctx.state.db.ext ctx.channelCfg ctx.forwardCfg webhook.payload = none →
      (ctx.state.forwarderOf ctx.channelCfg ctx.forwardCfg).buildRequest webhook = none ∧
        ∃ response, ctx.buildRequest = .error response) ∧
    (∀ value,
      signatureValue ctx.state.db.ext ctx.channelCfg ctx.forwardCfg webhook.payload = some value →
      ∃ r₁ r₂,
        (ctx.state.forwarderOf ctx.channelCfg ctx.forwardCfg).buildRequest webhook = some r₁ ∧
          ctx.buildRequest = .ok r₂ ∧ SameRequest r₁ r₂ ∧
          SignedForward ctx.forwardCfg webhook signHeader value r₁ ∧
          SignedForward ctx.forwardCfg ctx.webhook signHeader value r₂) ∧
    ∀ (requestSecret : Option String) (body : Bytes),
      (requestSecret.filter fun s => s ≠ "") = none →
      (signTestPayload ctx.state.db.ext ctx.channelCfg ctx.forwardCfg requestSecret body).toOption =
        signatureValue ctx.state.db.ext ctx.channelCfg ctx.forwardCfg body := by
  have hforwarder := ctx.state.buildRequest_forwarderOf ctx.channelCfg ctx.forwardCfg webhook
  have hretry := ctx.toOption_buildRequest
  simp only [AppState.signedRequest, hsign, ← hpayload] at hforwarder hretry
  refine ⟨fun hnone => ?_, fun value hvalue => ?_, fun requestSecret body hsecret =>
    toOption_signTestPayload _ _ _ hsecret body⟩
  · rw [hnone] at hforwarder hretry
    refine ⟨hforwarder, ?_⟩
    cases hbuild : ctx.buildRequest with
    | error response => exact ⟨response, rfl⟩
    | ok request => simp [hbuild, Except.toOption] at hretry
  · rw [hvalue] at hforwarder hretry
    exact ⟨_, _, hforwarder, Except.eq_ok_of_toOption_eq_some hretry,
      sameRequest_forwardRequest hpayload hheaders,
      signedForward_forwardRequest hsign value webhook,
      signedForward_forwardRequest hsign value ctx.webhook⟩

/-- The retry of a webhook on a channel that signs with its webhook secret. -/
def RetryContext.signing : RetryContext where
  state := AppState.small
  channelName := "orders"
  webhookId := 1
  webhook := Webhook.new "orders" (StringMap.collect [("x-signature", "forged")]) [123, 125] 0
  channelCfg :=
    ⟨"orders", "orders-token", some "key", none, .plain, none, none, none, none, none, true,
      none⟩
  forwardCfg := ⟨"http://target/hook", 60, 200, 15, some "X-Signature", none, none, none⟩

/-- The forged signature of the stored webhook is replaced by the computed one. -/
theorem RetryContext.signing_paths_agree_signing :
    ∃ value r₁ r₂, (signing.state.forwarderOf signing.channelCfg signing.forwardCfg).buildRequest
        signing.webhook = some r₁ ∧ signing.buildRequest = .ok r₂ ∧ SameRequest r₁ r₂ ∧
      SignedForward signing.forwardCfg signing.webhook "X-Signature" value r₁ ∧
      SignedForward signing.forwardCfg signing.webhook "X-Signature" value r₂ :=
  ⟨_, (signing.signing_paths_agree rfl signing.webhook rfl (List.Perm.refl _)).2.1 _ rfl⟩
