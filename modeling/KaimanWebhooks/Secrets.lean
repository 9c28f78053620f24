/-
# The values of secrets

A channel has a secret to check what comes in with, and its forward target one to sign what goes
out.  Two services that differ in these values alone show the same configuration, and build the
same requests up to the value of the signature header.
-/
import KaimanWebhooks.Protection
import KaimanWebhooks.Redaction
import KaimanWebhooks.Relay

/-! ## Configurations that differ in their secrets -/

/-- The forward target with its secret blanked out. -/
def WebhookForwardConfig.hideSecret (fwd : WebhookForwardConfig) : WebhookForwardConfig :=
  { fwd with signSecret := fwd.signSecret.map fun _ => "" }

/-- The channel with its secrets blanked out. -/
def WebhookChannelConfig.hideSecrets (ch : WebhookChannelConfig) : WebhookChannelConfig :=
  { ch with
    webhookSecret := ch.webhookSecret.map fun _ => ""
    forward := ch.forward.map WebhookForwardConfig.hideSecret }

/-- The configuration with all secrets blanked out. -/
def AppConfig.hideSecrets (config : AppConfig) : AppConfig :=
  { config with channels := config.channels.map WebhookChannelConfig.hideSecrets }

/-- The services differ in nothing but the values of secrets. -/
structure AppState.SameButSecrets (a b : AppState) : Prop where
  config : a.config.hideSecrets = b.config.hideSecrets
  db : a.db = b.db

/-! ## What is shown of a configuration -/

/-- The answer of the configuration route: any token of the service will do. -/
def AppState.getConfigRoute (state : AppState) (headers : HeaderMap) :
    Except HttpResponse (List ChannelConfigDto) :=
  match extractBearer headers with
  | none => .error (.text 401 "Unauthorized")
  | some bearer =>
      if !((state.config.findChannelByToken bearer).isSome || state.config.isUiToken bearer) then
        .error (.text 401 "Unauthorized")
      else .ok state.config.publicDto

section Shown

/-- The public configuration shows no secret. -/
theorem AppConfig.publicDto_hideSecrets (config : AppConfig) :
    config.hideSecrets.publicDto = config.publicDto := by
  unfold publicDto
  rw [hideSecrets, List.map_map]
  refine List.map_congr_left fun ch _ => ?_
  cases hfwd : ch.forward with
  | none => simp [channelDto, WebhookChannelConfig.hideSecrets, hfwd]
  | some fwd =>
      simp [channelDto, WebhookChannelConfig.hideSecrets, WebhookForwardConfig.hideSecret,
        WebhookForwardConfig.resolveBackoff, hfwd]

/-- The gauges show no secret. -/
theorem recordChannelSecurityGauges_hideSecrets (channels : List WebhookChannelConfig)
    (gauges : SecurityGauges) :
    recordChannelSecurityGauges (channels.map WebhookChannelConfig.hideSecrets) gauges =
      recordChannelSecurityGauges channels gauges := by
  unfold recordChannelSecurityGauges
  rw [List.foldl_map]
  simp [WebhookChannelConfig.hideSecrets]

/-- Which headers are redacted depends on no secret. -/
theorem collectSensitiveHeaders_hideSecrets (lower : Lowercase)
    (channels : List WebhookChannelConfig) :
    collectSensitiveHeaders lower (channels.map WebhookChannelConfig.hideSecrets) =
      collectSensitiveHeaders lower channels := by
  have hheaders : ∀ ch : WebhookChannelConfig, ch.hideSecrets.secretHeaders = ch.secretHeaders := by
    intro ch
    cases hfwd : ch.forward <;>
      simp [WebhookChannelConfig.secretHeaders, WebhookChannelConfig.hideSecrets,
        WebhookForwardConfig.hideSecret, hfwd]
  unfold collectSensitiveHeaders
  rw [List.flatMap_map]
  simp only [hheaders]

/-- Equivalent objections refuse alike. -/
theorem refuseIf_congr {p q : Prop} [Decidable p] [Decidable q] (h : p ↔ q) (message : String) :
    refuseIf p message = refuseIf q message := by
  unfold refuseIf
  by_cases hp : p
  · rw [if_pos hp, if_pos (h.mp hp)]
  · rw [if_neg hp, if_neg fun hq => hp (h.mpr hq)]

/-- A check of every channel passes or fails with secrets as without them, when the check of one
channel does. -/
theorem forM_hideSecrets {f g : WebhookChannelConfig → Except String Unit}
    (hf : ∀ ch, f ch.hideSecrets = g ch) (channels : List WebhookChannelConfig) :
    (channels.map WebhookChannelConfig.hideSecrets).forM f = channels.forM g := by
  induction channels with
  | nil => rfl
  | cons ch channels ih =>
      rw [List.map_cons, List.forM, List.forM, hf, ih]

/-- Startup looks at whether there are secrets, not at what they are. -/
theorem AppConfig.validateConfig_hideSecrets (ext : External) (config : AppConfig) :
    config.hideSecrets.validateConfig ext = config.validateConfig ext := by
  have hlimits : config.hideSecrets.validateBodyLimits = config.validateBodyLimits := by
    unfold validateBodyLimits
    rw [hideSecrets, forM_hideSecrets fun ch => rfl]
    rfl
  have hips : config.hideSecrets.validateAllowedIps ext = config.validateAllowedIps ext := by
    unfold validateAllowedIps
    exact forM_hideSecrets (fun ch => rfl) config.channels
  have htemplates : config.hideSecrets.validateTemplates ext = config.validateTemplates ext := by
    unfold validateTemplates
    refine forM_hideSecrets (fun ch => ?_) config.channels
    have hsecret : validateChannelSecret ch.hideSecrets = validateChannelSecret ch := by
      unfold validateChannelSecret
      rw [WebhookChannelConfig.hideSecrets, refuseIf_congr Option.map_eq_none_iff]
    have hchannel : validateChannelTemplates ext ch.hideSecrets =
        validateChannelTemplates ext ch := rfl
    rw [hsecret, hchannel]
    cases hfwd : ch.forward with
    | none => simp [WebhookChannelConfig.hideSecrets, hfwd]
    | some fwd =>
        have hsigning : validateForwardSigning ext ch.hideSecrets fwd.hideSecret =
            validateForwardSigning ext ch fwd := by
          simp [validateForwardSigning, WebhookForwardConfig.hideSecret,
            WebhookChannelConfig.hideSecrets, checkTemplate]
        simp only [WebhookChannelConfig.hideSecrets, hfwd, Option.map_some] at hsigning ⊢
        rw [hsigning]
  have hbackoff : config.hideSecrets.validateForwardBackoff ext =
      config.validateForwardBackoff ext := by
    unfold validateForwardBackoff
    rw [hideSecrets]
    refine congrArg _ (funext fun _ => forM_hideSecrets (fun ch => ?_) config.channels)
    cases hfwd : ch.forward with
    | none => simp [WebhookChannelConfig.hideSecrets, hfwd]
    | some fwd =>
        simp only [WebhookChannelConfig.hideSecrets, hfwd, Option.map_some]
        rfl
  unfold validateConfig
  rw [hlimits, hips, htemplates, hbackoff]

end Shown

/-! ## Requests that differ in their signature -/

/-- The requests are the same, or differ in the values of their last header, which one template
made of two hashes. -/
structure SignedLike (ext : External) (request request' : HttpRequest) : Prop where
  method : request.method = request'.method
  url : request.url = request'.url
  timeout : request.timeout = request'.timeout
  body : request.body = request'.body
  headers : request.headers = request'.headers ∨ ∃ copied name template mac mac' value value',
    signedAs ext template (hexEncode mac) = some value ∧
    signedAs ext template (hexEncode mac') = some value' ∧
    request.headers = copied ++ [(name, value)] ∧ request'.headers = copied ++ [(name, value')]

theorem SignedLike.refl (ext : External) (request : HttpRequest) :
    SignedLike ext request request := ⟨rfl, rfl, rfl, rfl, Or.inl rfl⟩

/-- The client has no objection to one signature that it does not have to another one. -/
def External.ObjectsAlike (ext : External) : Prop :=
  ∀ request request', SignedLike ext request request' →
    ext.requestError request = ext.requestError request'

/-- The same call, or two requests that differ in their signature. -/
def Call.SameButSignature (ext : External) (c c' : Call Query) : Prop :=
  c = c' ∨ ∃ about request request', c = .send about request ∧ c' = .send about request' ∧
    SignedLike ext request request'

theorem Call.SameButSignature.refl (ext : External) (c : Call Query) :
    c.SameButSignature ext c := Or.inl rfl

/-- **The outside does not tell signatures apart**: it answers both calls alike, and both change
the same. -/
theorem perform_sameButSignature {ext : External} (hclient : ext.ObjectsAlike) {c c' : Call Query}
    (i : Input) (w : World) (h : c.SameButSignature ext c') :
    HEq (perform ext c i w).1 (perform ext c' i w).1 ∧
      (perform ext c i w).2 = (perform ext c' i w).2 := by
  rcases h with rfl | ⟨about, request, request', rfl, rfl, hlike⟩
  · exact ⟨HEq.rfl, rfl⟩
  · have hsent : sendRequest ext i.answers request = sendRequest ext i.answers request' := by
      unfold sendRequest HttpRequest.onWire
      rw [hclient request request' hlike, hlike.method, hlike.url, hlike.body]
    simp only [perform, hsent, heq_eq_eq, and_self]

/-! ## Channels and forward targets -/

section Channels

variable {ch ch' : WebhookChannelConfig} {fwd fwd' : WebhookForwardConfig}

/-- The secret that signs is there for both or for neither. -/
theorem isSome_signSecret (hch : ch.hideSecrets = ch'.hideSecrets)
    (hfwd : fwd.hideSecret = fwd'.hideSecret) :
    (fwd.signSecret.or ch.webhookSecret).isSome =
      (fwd'.signSecret.or ch'.webhookSecret).isSome := by
  have hwebhook := congrArg (fun c => c.webhookSecret.isSome) hch
  have hsign := congrArg (fun f => f.signSecret.isSome) hfwd
  simp only [WebhookChannelConfig.hideSecrets, WebhookForwardConfig.hideSecret,
    Option.isSome_map] at hwebhook hsign
  rw [Option.isSome_or, Option.isSome_or, hwebhook, hsign]

/-- Both channels have a forward target or neither has. -/
theorem rel_forward (hch : ch.hideSecrets = ch'.hideSecrets) :
    Option.Rel (fun fwd fwd' => fwd.hideSecret = fwd'.hideSecret) ch.forward ch'.forward := by
  have hforward := (WebhookChannelConfig.mk.inj hch).2.2.2.2.2.2.2.1
  cases hfwd : ch.forward with
  | none =>
      rw [hfwd, Option.map_none, eq_comm, Option.map_eq_none_iff] at hforward
      rw [hforward]
      exact .none
  | some fwd =>
      rw [hfwd, Option.map_some, eq_comm, Option.map_eq_some_iff] at hforward
      obtain ⟨fwd', hfwd', hsame⟩ := hforward
      rw [hfwd']
      exact .some hsame.symm

/-- The schedule of a forward target does not depend on its secret. -/
theorem resolveBackoff_eq (hfwd : fwd.hideSecret = fwd'.hideSecret)
    (defaults : ForwardBackoffDefaults) :
    fwd.resolveBackoff defaults = fwd'.resolveBackoff defaults := by
  have hhide : ∀ f : WebhookForwardConfig, f.hideSecret.resolveBackoff defaults =
      f.resolveBackoff defaults := fun f => rfl
  rw [← hhide fwd, hfwd, hhide]

end Channels

/-! ## Signatures of both services -/

/-- Two options that are there together. -/
theorem Option.both_of_isSome_eq {α β : Type} {x : Option α} {y : Option β}
    (h : x.isSome = y.isSome) : (x = none ∧ y = none) ∨ ∃ u v, x = some u ∧ y = some v := by
  cases x with
  | none => exact Or.inl ⟨rfl, Option.isNone_iff_eq_none.mp (by simpa using h.symm)⟩
  | some u => exact Or.inr ⟨u, (Option.isSome_iff_exists.mp h.symm).imp fun v hv => ⟨rfl, hv⟩⟩

/-- Whether a signature can be made does not depend on the digest. -/
theorem isSome_signedAs {ext : External} {template : Option String}
    (hsigns : ∀ source, template = some source → ext.SignsAllOrNone source)
    (key body key' body' : Bytes) :
    (signedAs ext template (ext.hmacSha256Hex key body)).isSome =
      (signedAs ext template (ext.hmacSha256Hex key' body')).isSome := by
  cases template with
  | none => rfl
  | some source => exact hsigns source rfl key body key' body'

/-- The value of a signature header, by its secret and its template. -/
theorem signatureValue_eq (ext : External) (ch : WebhookChannelConfig) (fwd : WebhookForwardConfig)
    (body : Bytes) :
    signatureValue ext ch fwd body = (fwd.signSecret.or ch.webhookSecret).bind fun secret =>
      signedAs ext fwd.signTemplate (ext.hmacSha256Hex (utf8Bytes secret) body) := by
  unfold signatureValue
  congr 1
  funext secret
  cases fwd.signTemplate <;> rfl

/-- Two values of a signature header of one body. -/
def SignedApart (ext : External) (template : Option String) (value value' : String) : Prop :=
  ∃ mac mac', signedAs ext template (hexEncode mac) = some value ∧
    signedAs ext template (hexEncode mac') = some value'

/-- **Both targets have a signature for a body**, or neither has. -/
theorem rel_signatureValue {ext : External} {ch ch' : WebhookChannelConfig}
    {fwd fwd' : WebhookForwardConfig} (hch : ch.hideSecrets = ch'.hideSecrets)
    (hfwd : fwd.hideSecret = fwd'.hideSecret)
    (hsigns : ∀ template, fwd.signTemplate = some template → ext.SignsAllOrNone template)
    (body : Bytes) :
    Option.Rel (SignedApart ext fwd.signTemplate) (signatureValue ext ch fwd body)
      (signatureValue ext ch' fwd' body) := by
  have htemplate : fwd'.signTemplate = fwd.signTemplate :=
    (WebhookForwardConfig.mk.inj hfwd).2.2.2.2.2.2.1.symm
  have hsecrets := isSome_signSecret hch hfwd
  rw [signatureValue_eq, signatureValue_eq, htemplate]
  rcases Option.both_of_isSome_eq hsecrets with ⟨hnone, hnone'⟩ | ⟨secret, secret', hs, hs'⟩
  · rw [hnone, hnone']
    exact .none
  rw [hs, hs', Option.bind_some, Option.bind_some]
  have hboth := isSome_signedAs hsigns (utf8Bytes secret) body (utf8Bytes secret') body
  rcases Option.both_of_isSome_eq hboth with ⟨hnone, hnone'⟩ | ⟨value, value', hvalue, hvalue'⟩
  · rw [hnone, hnone']
    exact .none
  · rw [hvalue, hvalue']
    exact .some ⟨_, _, hvalue, hvalue'⟩

/-- Why a manual retry cannot sign: it has no secret, or its template does not render. -/
theorem RetryContext.eq_of_buildRequest_eq_error {ctx : RetryContext} {response : HttpResponse}
    (h : ctx.buildRequest = .error response) :
    response = if (ctx.forwardCfg.signSecret.or ctx.channelCfg.webhookSecret).isSome
      then .text 500 "Template error"
      else .text 500 "sign-header configured but no secret available" := by
  unfold buildRequest sign at h
  cases hheader : ctx.forwardCfg.signHeader with
  | none =>
      rw [hheader] at h
      cases h
  | some signHeader =>
      rw [hheader] at h
      dsimp only at h
      cases hsecret : ctx.forwardCfg.signSecret.or ctx.channelCfg.webhookSecret with
      | none =>
          rw [hsecret] at h
          exact (Except.error.inj h).symm
      | some secret =>
          rw [hsecret] at h
          dsimp only at h
          repeat' split at h
          all_goals first
            | exact (Except.error.inj h).symm
            | cases h

namespace AppState.SameButSecrets

variable {a b : AppState} (h : a.SameButSecrets b) {ch ch' : WebhookChannelConfig}
  {fwd fwd' : WebhookForwardConfig} (hch : ch.hideSecrets = ch'.hideSecrets)
  (hfwd : fwd.hideSecret = fwd'.hideSecret)
  (hsigns : ∀ template, fwd.signTemplate = some template → a.db.ext.SignsAllOrNone template)

include h hch hfwd hsigns

/-- **Both services build the same request up to its signature**, or neither can build one. -/
theorem rel_signedRequest (webhook : Webhook) :
    Option.Rel (SignedLike a.db.ext) (a.signedRequest ch fwd webhook)
      (b.signedRequest ch' fwd' webhook) := by
  obtain ⟨hurl, -, -, htimeout, hheader, -, -, -⟩ := WebhookForwardConfig.mk.inj hfwd
  obtain ⟨-, -, hignored, -, -, -⟩ := AppConfig.mk.inj h.config
  have hvalues := rel_signatureValue hch hfwd hsigns webhook.payload
  unfold signedRequest forwardRequest
  rw [← h.db, ← hignored, ← hurl, ← htimeout, ← hheader]
  cases fwd.signHeader with
  | none => exact .some (SignedLike.refl _ _)
  | some signHeader =>
      dsimp only
      generalize signatureValue a.db.ext ch fwd webhook.payload = made at hvalues ⊢
      generalize signatureValue a.db.ext ch' fwd' webhook.payload = made' at hvalues ⊢
      cases hvalues with
      | none => exact .none
      | some hapart =>
          obtain ⟨mac, mac', hvalue, hvalue'⟩ := hapart
          exact .some ⟨rfl, rfl, rfl, rfl,
            Or.inr ⟨_, _, _, _, _, _, _, hvalue, hvalue', rfl, rfl⟩⟩

/-- **The same for a manual retry**, which answers what keeps it from building a request. -/
theorem retry_buildRequest (channelName : String) (id : ℤ) (webhook : Webhook) :
    (∃ response,
      RetryContext.buildRequest ⟨a, channelName, id, webhook, ch, fwd⟩ = .error response ∧
      RetryContext.buildRequest ⟨b, channelName, id, webhook, ch', fwd'⟩ = .error response) ∨
    ∃ request request',
      RetryContext.buildRequest ⟨a, channelName, id, webhook, ch, fwd⟩ = .ok request ∧
      RetryContext.buildRequest ⟨b, channelName, id, webhook, ch', fwd'⟩ = .ok request' ∧
      SignedLike a.db.ext request request' := by
  have hrequests := h.rel_signedRequest hch hfwd hsigns webhook
  have hbuild := RetryContext.toOption_buildRequest ⟨a, channelName, id, webhook, ch, fwd⟩
  have hbuild' := RetryContext.toOption_buildRequest ⟨b, channelName, id, webhook, ch', fwd'⟩
  dsimp only at hbuild hbuild'
  rw [← hbuild, ← hbuild'] at hrequests
  cases hleft : RetryContext.buildRequest ⟨a, channelName, id, webhook, ch, fwd⟩ with
  | ok request =>
      cases hright : RetryContext.buildRequest ⟨b, channelName, id, webhook, ch', fwd'⟩ with
      | ok request' =>
          rw [hleft, hright] at hrequests
          cases hrequests with
          | some hlike => exact Or.inr ⟨request, request', rfl, rfl, hlike⟩
      | error response' =>
          rw [hleft, hright] at hrequests
          cases hrequests
  | error response =>
      cases hright : RetryContext.buildRequest ⟨b, channelName, id, webhook, ch', fwd'⟩ with
      | ok request' =>
          rw [hleft, hright] at hrequests
          cases hrequests
      | error response' =>
          refine Or.inl ⟨response, rfl, ?_⟩
          rw [RetryContext.eq_of_buildRequest_eq_error hleft,
            RetryContext.eq_of_buildRequest_eq_error hright, isSome_signSecret hch hfwd]

end AppState.SameButSecrets
