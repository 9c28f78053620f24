/-
# Do the configured templates render?

Startup reads every configured template once, so that a mistake is found before the first webhook
comes in.  Reading is not rendering: a template that refers to a variable it is not given is
accepted, and fails for every webhook afterwards.  What an accepted configuration does guarantee
is a secret wherever one is needed.
-/
import KaimanWebhooks.Authorization
import KaimanWebhooks.PlainTemplate
import KaimanWebhooks.Signing
import KaimanWebhooks.Tasks

/-! ## The engine behind the service -/

/-- The engine renders a template of text and variables as its pieces say, or fails where they
do, in the context of one variable that the service gives it.  The texts of its errors are its
own, and nothing is said of templates that use more of the language. -/
def External.RendersPlain (ext : External) : Prop :=
  ∀ source name value, PlainTemplate.IsPlain source →
    (ext.teraOneOff source [(name, value)]).toOption =
      (PlainTemplate.oneOff source [(name, value)]).toOption

theorem Except.exists_eq_ok_iff_isSome {ε α : Type} {x : Except ε α} :
    (∃ a, x = .ok a) ↔ x.toOption.isSome = true := by
  cases x <;> simp [Except.toOption]

namespace External.RendersPlain

variable {ext : External} (hrenders : ext.RendersPlain) {template : String}
  (hplain : PlainTemplate.IsPlain template)
include hrenders hplain

/-- A template that is given one variable renders, whatever its value, when it refers to that
variable alone. -/
theorem exists_teraOneOff_iff (name value : String) :
    (∃ text, ext.teraOneOff template [(name, value)] = .ok text) ↔
      PlainTemplate.RefersOnlyTo template name := by
  rw [Except.exists_eq_ok_iff_isSome, hrenders template name value hplain,
    ← Except.exists_eq_ok_iff_isSome]
  exact PlainTemplate.exists_oneOff_singleton_iff template name value

/-- An extract template is given `raw`. -/
theorem exists_renderExtractTemplate_iff (raw : String) :
    (∃ text, ext.renderExtractTemplate template raw = .ok text) ↔
      PlainTemplate.RefersOnlyTo template "raw" :=
  hrenders.exists_teraOneOff_iff hplain "raw" raw

/-- A sign template is given `signature`. -/
theorem exists_renderSignTemplate_iff (signature : String) :
    (∃ text, ext.renderSignTemplate template signature = .ok text) ↔
      PlainTemplate.RefersOnlyTo template "signature" :=
  hrenders.exists_teraOneOff_iff hplain "signature" signature

end External.RendersPlain

/-- The sign template renders every digest or none, so that it does not tell digests apart by
failing. -/
def External.SignsAllOrNone (ext : External) (template : String) : Prop :=
  ∀ key body key' body',
    (ext.renderSignTemplate template (ext.hmacSha256Hex key body)).toOption.isSome =
      (ext.renderSignTemplate template (ext.hmacSha256Hex key' body')).toOption.isSome

/-- Every forward of the configuration that has a sign template has such a one. -/
def AppConfig.SignsAllOrNone (config : AppConfig) (ext : External) : Prop :=
  ∀ ch ∈ config.channels, ∀ fwd, ch.forward = some fwd →
    ∀ template, fwd.signTemplate = some template → ext.SignsAllOrNone template

/-- A template of text and variables renders all digests or none. -/
theorem External.RendersPlain.signsAllOrNone {ext : External} (hrenders : ext.RendersPlain)
    {template : String} (hplain : PlainTemplate.IsPlain template) :
    ext.SignsAllOrNone template := by
  intro key body key' body'
  rw [Bool.eq_iff_iff, ← Except.exists_eq_ok_iff_isSome, ← Except.exists_eq_ok_iff_isSome,
    hrenders.exists_renderSignTemplate_iff hplain, hrenders.exists_renderSignTemplate_iff hplain]

/-! ## What startup guarantees -/

section Accepted

variable {ext : External} {config : AppConfig}

/-- The checks of startup that look at secrets and templates. -/
theorem validateTemplates_of_validateConfig (h : config.validateConfig ext = .ok ()) :
    config.validateTemplates ext = .ok () := by
  obtain ⟨-, h⟩ := Except.andThen_eq_ok.mp h
  obtain ⟨-, h⟩ := Except.andThen_eq_ok.mp h
  exact (Except.andThen_eq_ok.mp h).1

/-- **A channel that checks signatures has a secret and a header to read one from.** -/
theorem exists_secret_of_validateConfig (h : config.validateConfig ext = .ok ())
    {ch : WebhookChannelConfig} (hch : ch ∈ config.channels) (htype : ch.secretType = .hmacSha256) :
    (∃ secret, ch.webhookSecret = some secret) ∧ ∃ header, ch.secretHeader = some header := by
  have hall := Except.forM_eq_ok.mp (validateTemplates_of_validateConfig h) ch hch
  have hsecret := (Except.andThen_eq_ok.mp hall).1
  rw [validateChannelSecret, if_neg (not_not.mpr htype), Except.andThen_eq_ok, refuseIf_eq_ok,
    refuseIf_eq_ok] at hsecret
  exact ⟨Option.ne_none_iff_exists'.mp hsecret.1, Option.ne_none_iff_exists'.mp hsecret.2⟩

/-- **A channel that signs its forwards has a secret to sign with.** -/
theorem exists_signSecret_of_validateConfig (h : config.validateConfig ext = .ok ())
    {ch : WebhookChannelConfig} (hch : ch ∈ config.channels) {fwd : WebhookForwardConfig}
    (hfwd : ch.forward = some fwd) (hheader : fwd.signHeader ≠ none) :
    ∃ secret, fwd.signSecret.or ch.webhookSecret = some secret := by
  have hall := Except.forM_eq_ok.mp (validateTemplates_of_validateConfig h) ch hch
  have hsigning := (Except.andThen_eq_ok.mp (Except.andThen_eq_ok.mp hall).2).2
  rw [hfwd] at hsigning
  have hrefused := refuseIf_eq_ok.mp (Except.andThen_eq_ok.mp hsigning).1
  cases hsecret : fwd.signSecret with
  | some secret => exact ⟨secret, rfl⟩
  | none =>
      rw [Option.none_or]
      refine Option.ne_none_iff_exists'.mp fun hnone => hrefused ⟨hheader, hsecret, hnone⟩

end Accepted

/-! ## Signing and extracting -/

/-- No channel can fail to extract a signature or to sign: its templates render whatever they are
given, a secret is there wherever one is needed, and every forward request can be built. -/
structure AppState.SignsAndExtracts (state : AppState) : Prop where
  extract : ∀ ch ∈ state.config.channels, ∀ raw, ∃ text,
    state.db.ext.renderExtractTemplate
      (ch.secretExtractTemplate.getD "\x7b\x7b raw \x7d\x7d") raw = .ok text
  sign : ∀ ch ∈ state.config.channels, ∀ secret payload, ∃ value,
    state.db.ext.renderSignTemplate
      (ch.secretSignTemplate.getD "\x7b\x7b signature \x7d\x7d")
      (state.db.ext.hmacSha256Hex secret payload) = .ok value
  signForward : ∀ ch ∈ state.config.channels, ∀ fwd, ch.forward = some fwd →
    ∀ template, fwd.signTemplate = some template → ∀ secret payload, ∃ value,
      state.db.ext.renderSignTemplate template
        (state.db.ext.hmacSha256Hex secret payload) = .ok value
  secret : ∀ ch ∈ state.config.channels, ch.secretType = .hmacSha256 →
    (∃ secret, ch.webhookSecret = some secret) ∧ ∃ header, ch.secretHeader = some header
  signSecret : ∀ ch ∈ state.config.channels, ∀ fwd, ch.forward = some fwd →
    fwd.signHeader ≠ none → ∃ secret, fwd.signSecret.or ch.webhookSecret = some secret
  build : ∀ fw ∈ state.forwarders, ∀ webhook, ∃ request, fw.buildRequest webhook = some request

/-- Every configured template has a property, with the name of the one variable it is given. -/
structure AppConfig.EachTemplate (config : AppConfig) (P : String → String → Prop) : Prop where
  extract : ∀ ch ∈ config.channels, ∀ template, ch.secretExtractTemplate = some template →
    P template "raw"
  sign : ∀ ch ∈ config.channels, ∀ template, ch.secretSignTemplate = some template →
    P template "signature"
  signForward : ∀ ch ∈ config.channels, ∀ fwd, ch.forward = some fwd →
    ∀ template, fwd.signTemplate = some template → P template "signature"

/-- Every configured template is text and variables. -/
def AppConfig.PlainTemplates (config : AppConfig) : Prop :=
  config.EachTemplate fun template _ => PlainTemplate.IsPlain template

/-- Every configured template refers to the one variable it is given and to no other. -/
def AppConfig.RefersToGiven (config : AppConfig) : Prop :=
  config.EachTemplate PlainTemplate.RefersOnlyTo

section Signs

variable {state : AppState}

/-- **A forward request fails for its template or for nothing.**  With an accepted configuration
a forwarder that signs with text and variables cannot build a request exactly when its template
refers to another variable, and then it can build none at all. -/
theorem buildRequest_eq_none_iff (hrenders : state.db.ext.RendersPlain)
    (hvalid : state.config.validateConfig state.db.ext = .ok ()) {fw : Forwarder}
    (hfw : fw ∈ state.forwarders)
    (hplain : ∀ template, fw.cfg.signTemplate = some template → PlainTemplate.IsPlain template)
    (webhook : Webhook) :
    fw.buildRequest webhook = none ↔
      fw.cfg.signHeader ≠ none ∧
        ∃ template, fw.cfg.signTemplate = some template ∧
          ¬PlainTemplate.RefersOnlyTo template "signature" := by
  obtain ⟨ch, hch, fwd, hfwd, rfl⟩ := state.exists_channel_of_mem_forwarders hfw
  have hbuild := state.buildRequest_forwarderOf ch fwd webhook
  rw [AppState.forwarderOf] at hbuild
  rw [hbuild, AppState.signedRequest]
  dsimp only at hplain ⊢
  cases hheader : fwd.signHeader with
  | none => simp
  | some signHeader =>
      obtain ⟨secret, hsecret⟩ := exists_signSecret_of_validateConfig hvalid hch hfwd
        (by rw [hheader]; exact Option.some_ne_none signHeader)
      rw [Option.map_eq_none_iff, signatureValue, hsecret, Option.bind_some]
      cases htemplate : fwd.signTemplate with
      | none => simp
      | some template =>
          have hrender := hrenders.exists_renderSignTemplate_iff (hplain template htemplate)
            (state.db.ext.hmacSha256Hex (utf8Bytes secret) webhook.payload)
          simp only [ne_eq, reduceCtorEq, not_false_eq_true, true_and, Option.some.injEq,
            exists_eq_left', ← hrender]
          cases state.db.ext.renderSignTemplate template
            (state.db.ext.hmacSha256Hex (utf8Bytes secret) webhook.payload) <;>
              simp [Except.toOption]

/-- **When no channel can fail to sign or to extract.**  An accepted configuration whose templates
are text and variables keeps this promise exactly when they refer to nothing but what they are
given; startup does not look at that. -/
theorem AppState.signsAndExtracts_iff (hrenders : state.db.ext.RendersPlain)
    (hvalid : state.config.validateConfig state.db.ext = .ok ())
    (hplain : state.config.PlainTemplates) :
    state.SignsAndExtracts ↔ state.config.RefersToGiven := by
  constructor
  · intro h
    refine ⟨fun ch hch template htemplate => ?_, fun ch hch template htemplate => ?_,
      fun ch hch fwd hfwd template htemplate => ?_⟩
    · have hextracts := h.extract ch hch ""
      rw [htemplate, Option.getD_some] at hextracts
      exact (hrenders.exists_renderExtractTemplate_iff (hplain.extract ch hch template htemplate)
        "").mp hextracts
    · have hsigns := h.sign ch hch [] []
      rw [htemplate, Option.getD_some] at hsigns
      exact (hrenders.exists_renderSignTemplate_iff (hplain.sign ch hch template htemplate) _).mp
        hsigns
    · exact (hrenders.exists_renderSignTemplate_iff
        (hplain.signForward ch hch fwd hfwd template htemplate) _).mp
          (h.signForward ch hch fwd hfwd template htemplate [] [])
  · intro h
    have hraw : PlainTemplate.RefersOnlyTo "\x7b\x7b raw \x7d\x7d" "raw" := by decide +kernel
    have hsignature : PlainTemplate.RefersOnlyTo "\x7b\x7b signature \x7d\x7d" "signature" := by
      decide +kernel
    refine ⟨fun ch hch raw => ?_, fun ch hch secret payload => ?_,
      fun ch hch fwd hfwd template htemplate secret payload => ?_,
      fun ch hch => exists_secret_of_validateConfig hvalid hch,
      fun ch hch fwd hfwd => exists_signSecret_of_validateConfig hvalid hch hfwd,
      fun fw hfw webhook => ?_⟩
    · have hrefers : PlainTemplate.RefersOnlyTo
          (ch.secretExtractTemplate.getD "\x7b\x7b raw \x7d\x7d") "raw" := by
        cases htemplate : ch.secretExtractTemplate with
        | none => exact hraw
        | some template => exact h.extract ch hch template htemplate
      exact (hrenders.exists_renderExtractTemplate_iff hrefers.isPlain raw).mpr hrefers
    · have hrefers : PlainTemplate.RefersOnlyTo
          (ch.secretSignTemplate.getD "\x7b\x7b signature \x7d\x7d") "signature" := by
        cases htemplate : ch.secretSignTemplate with
        | none => exact hsignature
        | some template => exact h.sign ch hch template htemplate
      exact (hrenders.exists_renderSignTemplate_iff hrefers.isPlain _).mpr hrefers
    · have hrefers := h.signForward ch hch fwd hfwd template htemplate
      exact (hrenders.exists_renderSignTemplate_iff hrefers.isPlain _).mpr hrefers
    · refine Option.ne_none_iff_exists'.mp fun hnone => ?_
      obtain ⟨ch, hch, fwd, hfwd, rfl⟩ := state.exists_channel_of_mem_forwarders hfw
      obtain ⟨-, template, htemplate, hrefers⟩ :=
        (buildRequest_eq_none_iff hrenders hvalid hfw
          (hplain.signForward ch hch fwd hfwd) webhook).mp hnone
      exact hrefers (h.signForward ch hch fwd hfwd template htemplate)

end Signs

/-! ## A template with a slip -/

/-- The plain libraries with an engine of text and variables. -/
def External.templated : External :=
  { External.plain with
    teraParse := PlainTemplate.check
    teraOneOff := PlainTemplate.oneOff }

theorem External.templated_rendersPlain : External.templated.RendersPlain := fun _ _ _ _ => rfl

/-- A service whose only channel checks the signature of what comes in and signs its forwards
with this template. -/
def AppState.signing (signTemplate : String) : AppState where
  config :=
    { AppConfig.small with
      channels :=
        [⟨"orders", "orders-token", some "key", some "x-hub-signature", .hmacSha256,
          some "\x7b\x7b raw | replace(from=\"sha256=\", to=\"\") \x7d\x7d", none,
          some ⟨"http://target/hook", 60, 200, 15, some "x-signature", none, some signTemplate,
            none⟩, none, none, true, none⟩] }
  db := ⟨External.templated, LockRetryPolicy.default⟩

/-- A template that says `sig` for `signature` is accepted, and no request can be built. -/
theorem AppState.not_signsAndExtracts_signing_sig :
    External.templated.RendersPlain ∧
      (signing "sha256=\x7b\x7b sig \x7d\x7d").config.validateConfig External.templated =
        .ok () ∧
      ¬(signing "sha256=\x7b\x7b sig \x7d\x7d").SignsAndExtracts := by
  refine ⟨External.templated_rendersPlain, by decide +kernel, fun h => ?_⟩
  have hnone : ((signing "sha256=\x7b\x7b sig \x7d\x7d").forwarders.map fun fw =>
      fw.buildRequest (Webhook.new "orders" StringMap.empty [123, 125] 0)) = [none] := by
    decide +kernel
  obtain ⟨fw, hfw, hbuild⟩ := List.mem_map.mp (hnone ▸ List.mem_singleton_self none)
  obtain ⟨request, hrequest⟩ := h.build fw hfw (Webhook.new "orders" StringMap.empty [123, 125] 0)
  rw [hbuild] at hrequest
  cases hrequest

/-- The templates of a service of this kind. -/
theorem AppState.eachTemplate_signing {signTemplate : String} {P : String → String → Prop}
    (hextract : P "\x7b\x7b raw | replace(from=\"sha256=\", to=\"\") \x7d\x7d" "raw")
    (hsign : P signTemplate "signature") : (signing signTemplate).config.EachTemplate P := by
  refine ⟨?_, ?_, ?_⟩
  · rintro ch hch template htemplate
    obtain rfl := List.mem_singleton.mp hch
    cases htemplate
    exact hextract
  · rintro ch hch template htemplate
    obtain rfl := List.mem_singleton.mp hch
    cases htemplate
  · rintro ch hch fwd hfwd template htemplate
    obtain rfl := List.mem_singleton.mp hch
    cases hfwd
    cases htemplate
    exact hsign

/-- With the right name nothing can fail: the signature is read off the header by its prefix and
put behind it again. -/
theorem AppState.signsAndExtracts_signing_signature :
    (signing "sha256=\x7b\x7b signature \x7d\x7d").SignsAndExtracts :=
  (signsAndExtracts_iff External.templated_rendersPlain
    (Except.eq_ok_of_toBool (by decide +kernel))
    (eachTemplate_signing (by decide +kernel) (by decide +kernel))).mpr
      (eachTemplate_signing (by decide +kernel) (by decide +kernel))
