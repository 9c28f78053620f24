/-
# A channel shown as protected

What the gauge of a channel and the public configuration say about its secret, and what the
check of a request makes of it: a channel that has a secret and a header to read it from stores
only what came with a proof of that secret.
-/
import KaimanWebhooks.Acceptance

/-! ## What an operator is shown -/

/-- The gauges of the channels' security features: the last value set for a channel and a
feature. -/
abbrev SecurityGauges : Type := String → String → Option F64

namespace SecurityGauges

/-- No gauge was set yet. -/
def empty : SecurityGauges := fun _ _ => none

def set (gauges : SecurityGauges) (channel feature : String) (value : F64) : SecurityGauges :=
  fun c f => if c = channel ∧ f = feature then some value else gauges c f

end SecurityGauges

/-- The value a gauge gives to a feature that is on or off. -/
def featureValue (on : Bool) : F64 := .finite (if on then 1 else 0)

/-- Set the gauges of the channels that are monitored. -/
def recordChannelSecurityGauges (channels : List WebhookChannelConfig)
    (gauges : SecurityGauges) : SecurityGauges :=
  channels.foldl (fun gauges ch =>
    if !ch.monitoringMetrics then gauges
    else
      (gauges.set ch.name "ip_allowlist" (featureValue ch.allowedIps.isSome)).set ch.name
        "secret" (featureValue ch.webhookSecret.isSome)) gauges

def SecretType.display : SecretType → String
  | .plain => "plain"
  | .hmacSha256 => "hmac-sha256"

/-- The resolved retry schedule as it is shown. -/
structure ForwardBackoffDto where
  multiplier : F64
  maxSeconds : ℕ
  jitter : F64

/-- Everything about a channel that the UI may see; of a secret only that there is one. -/
structure ChannelConfigDto where
  name : String
  secretType : String
  secretHeader : Option String
  hasSecret : Bool
  hasForward : Bool
  forwardUrl : Option String
  signHeader : Option String
  hasSignSecret : Bool
  expectedStatus : Option ℕ
  timeoutSeconds : Option UInt64
  intervalSeconds : Option UInt64
  backoff : Option ForwardBackoffDto
  maxBodySize : ℕ
  allowedIps : Option (List String)
  monitoringMetrics : Bool
  note : Option String

/-- A channel as the public configuration shows it. -/
def AppConfig.channelDto (config : AppConfig) (ch : WebhookChannelConfig) : ChannelConfigDto where
  name := ch.name
  secretType := ch.secretType.display
  secretHeader := ch.secretHeader
  hasSecret := ch.webhookSecret.isSome
  hasForward := ch.forward.isSome
  forwardUrl := ch.forward.map WebhookForwardConfig.url
  signHeader := ch.forward.bind WebhookForwardConfig.signHeader
  hasSignSecret := ch.forward.any fun f => f.signSecret.isSome
  expectedStatus := ch.forward.map WebhookForwardConfig.expectedStatus
  timeoutSeconds := ch.forward.map WebhookForwardConfig.timeoutSeconds
  intervalSeconds := ch.forward.map WebhookForwardConfig.intervalSeconds
  backoff := ch.forward.map fun f =>
    let resolved := f.resolveBackoff config.forwardBackoff
    ⟨resolved.multiplier, resolved.max.asSecs, resolved.jitter⟩
  maxBodySize := ch.maxBodySize.getD config.defaultBodyLimit
  allowedIps := ch.allowedIps
  monitoringMetrics := ch.monitoringMetrics
  note := ch.note

/-- The public configuration. -/
def AppConfig.publicDto (config : AppConfig) : List ChannelConfigDto :=
  config.channels.map config.channelDto

section Gauges

variable {channels : List WebhookChannelConfig} {gauges : SecurityGauges} {name : String}

/-- A gauge that reports a secret was set so before, or for a channel of its name that has
one. -/
theorem secret_of_recordChannelSecurityGauges
    (h : recordChannelSecurityGauges channels gauges name "secret" = some (.finite 1)) :
    gauges name "secret" = some (.finite 1) ∨
      ∃ ch ∈ channels, ch.name = name ∧ ch.webhookSecret.isSome := by
  induction channels generalizing gauges with
  | nil => exact Or.inl h
  | cons ch channels ih =>
      rw [recordChannelSecurityGauges, List.foldl_cons] at h
      rcases ih h with hset | ⟨ch', hmem, hch'⟩
      · by_cases hname : name = ch.name
        · -- the last gauge set for this name is that of `ch`, unless it is not monitored
          split_ifs at hset with hquiet
          · exact Or.inl hset
          · subst hname
            simp only [SecurityGauges.set, and_self, if_true, Option.some.injEq, featureValue,
              F64.finite.injEq, ite_eq_left_iff, Bool.not_eq_true] at hset
            refine Or.inr ⟨ch, List.mem_cons_self, rfl, ?_⟩
            by_contra hsecret
            exact absurd (hset (by simpa using hsecret)) (by norm_num)
        · left
          split_ifs at hset with hquiet
          · exact hset
          · simpa [SecurityGauges.set, hname] using hset
      · exact Or.inr ⟨ch', List.mem_cons_of_mem _ hmem, hch'⟩

end Gauges

/-- The gauge of the channel, or its entry in the public configuration, says that it has a
secret.  A gauge speaks for one channel when the others have other names. -/
def AppConfig.ShownProtected (config : AppConfig) (ch : WebhookChannelConfig) : Prop :=
  (config.channelDto ch).hasSecret = true ∨
    recordChannelSecurityGauges config.channels .empty ch.name "secret" = some (.finite 1) ∧
      ∀ ch' ∈ config.channels, ch'.name = ch.name → ch' = ch

theorem AppConfig.ShownProtected.isSome {config : AppConfig} {ch : WebhookChannelConfig}
    (h : config.ShownProtected ch) : ch.webhookSecret.isSome = true := by
  rcases h with hdto | ⟨hgauge, hone⟩
  · exact hdto
  · rcases secret_of_recordChannelSecurityGauges hgauge with hnone | ⟨ch', hch', hname, hsecret⟩
    · cases hnone
    · exact hone ch' hch' hname ▸ hsecret

/-! ## What a request has to carry -/

/-- The value of the secret header proves the secret. -/
def ProvesSecret (ext : External) (ch : WebhookChannelConfig) (secret : String) (body : Bytes)
    (raw : List Char) : Prop :=
  match ch.secretType with
  | .plain => raw = secret.toList
  | .hmacSha256 =>
      ∃ hex, ext.renderExtractTemplate (ch.secretExtractTemplate.getD "\x7b\x7b raw \x7d\x7d")
          (String.ofList raw) = .ok hex ∧
        HeaderMap.lowerName hex = HeaderMap.lowerName (ext.hmacSha256Hex (utf8Bytes secret) body)

/-- The request carries a proof of the channel's secret in the channel's header. -/
def CarriesProof (ext : External) (ch : WebhookChannelConfig) (headers : HeaderMap)
    (body : Bytes) : Prop :=
  ∃ secret header raw, ch.webhookSecret = some secret ∧ ch.secretHeader = some header ∧
    headers.getStr header = some raw ∧ ProvesSecret ext ch secret body raw

namespace AppState

section Proof

variable {state : AppState} {ch : WebhookChannelConfig} {headers : HeaderMap} {body : Bytes}

theorem verifyHmacSecret_eq_ok_true {secret : String} {raw : Option (List Char)} :
    state.verifyHmacSecret ch secret raw body = .ok true ↔
      ∃ value, raw = some value ∧ ∃ hex, state.db.ext.renderExtractTemplate
          (ch.secretExtractTemplate.getD "\x7b\x7b raw \x7d\x7d") (String.ofList value) = .ok hex ∧
        HeaderMap.lowerName hex =
          HeaderMap.lowerName (state.db.ext.hmacSha256Hex (utf8Bytes secret) body) := by
  unfold verifyHmacSecret
  cases raw with
  | none => simp
  | some value =>
      dsimp only
      cases hrender : state.db.ext.renderExtractTemplate
          (ch.secretExtractTemplate.getD "\x7b\x7b raw \x7d\x7d") (String.ofList value) with
      | error e => simp [hrender]
      | ok hex => simp [hrender, verifyHmacHex]

/-- The response to a secret that was looked at lets the request pass when the secret is right. -/
theorem verdict_eq_ok (v : Except HttpResponse Bool) :
    (match v with
      | .error response => .error response
      | .ok true => .ok ()
      | .ok false => .error (.text 401 "Unauthorized")) = Except.ok () ↔ v = .ok true := by
  rcases v with e | b
  · simp
  · cases b <;> simp

/-- The check of the secret passes on a channel without secret or header, and on a proof. -/
theorem verifySecret_eq_ok :
    state.verifySecret ch headers body = .ok () ↔
      ch.webhookSecret = none ∨ ch.secretHeader = none ∨
        CarriesProof state.db.ext ch headers body := by
  unfold verifySecret CarriesProof ProvesSecret
  cases hsecret : ch.webhookSecret with
  | none => simp
  | some secret =>
      cases hheader : ch.secretHeader with
      | none => simp
      | some header =>
          refine Iff.trans (verdict_eq_ok _) ?_
          simp only [reduceCtorEq, Option.some.injEq, false_or]
          cases htype : ch.secretType with
          | plain =>
              cases hraw : headers.getStr header with
              | none => simp [hraw]
              | some value => simp [hraw]
          | hmacSha256 =>
              dsimp only
              rw [verifyHmacSecret_eq_ok_true]
              constructor
              · rintro ⟨value, hvalue, hproof⟩
                exact ⟨secret, header, value, rfl, rfl, hvalue, hproof⟩
              · rintro ⟨_, _, value, rfl, rfl, hvalue, hproof⟩
                exact ⟨value, hvalue, hproof⟩

end Proof

/-- A channel of an accepted configuration that checks signatures has a header for them. -/
theorem secretHeader_of_validateConfig {state : AppState}
    (hvalid : state.config.validateConfig state.db.ext = .ok ()) {ch : WebhookChannelConfig}
    (hch : ch ∈ state.config.channels) (htype : ch.secretType = .hmacSha256) :
    ch.secretHeader ≠ none := by
  simp only [AppConfig.validateConfig, Except.andThen_eq_ok] at hvalid
  have hall := Except.forM_eq_ok.mp hvalid.2.2.1 ch hch
  simp only [Except.andThen_eq_ok, validateChannelSecret, htype, ne_eq, not_true_eq_false,
    if_false, refuseIf_eq_ok] at hall
  exact hall.1.2

/-- **A channel shown as protected stores only what came with a proof of its secret**, provided
it has a header to read the proof from, which every channel that checks signatures has: the
request whose run stores a row under the name of the channel carried the proof itself. -/
theorem stored_carriesProof (state : AppState)
    (hvalid : state.config.validateConfig state.db.ext = .ok ()) {ch : WebhookChannelConfig}
    (hfirst : state.config.findChannelByName ch.name = some ch)
    (hshown : state.config.ShownProtected ch)
    (hheader : ch.secretType = .plain → ch.secretHeader ≠ none) {s : ServiceState}
    (h : state.machine.Reaches (fun _ _ => True) state.initial s) {e : ServiceEntry}
    (he : e ∈ s.history) {id : ℤ} {c : Content} (hstored : storedRow e.done = some (id, c))
    (hchannel : c.channel = .text ch.name) :
    ∃ clientIp headers body receivedAt,
      e.job = .request (.receive clientIp ch.name headers body) ∧
        state.Accepted ch clientIp ch.name headers body ∧
        c = contentOf state (Webhook.new ch.name (state.forwardedHeaders headers) body receivedAt) ∧
        CarriesProof state.db.ext ch headers body := by
  obtain ⟨ch', clientIp, channel, headers, body, receivedAt, hjob, haccepted, hcontent⟩ :=
    exists_accepted_of_storedRow h he hstored
  obtain rfl : channel = ch.name := by
    rw [hcontent] at hchannel
    exact SqlValue.text.inj hchannel
  obtain rfl : ch = ch' := Option.some.inj (hfirst.symm.trans haccepted.channel)
  refine ⟨clientIp, headers, body, receivedAt, hjob, haccepted, hcontent, ?_⟩
  have hmem : ch ∈ state.config.channels := List.mem_of_find?_eq_some hfirst
  rcases verifySecret_eq_ok.mp haccepted.secret with hnone | hnone | hproof
  · exact absurd hnone (Option.isSome_iff_ne_none.mp hshown.isSome)
  · cases htype : ch.secretType with
    | plain => exact absurd hnone (hheader htype)
    | hmacSha256 => exact absurd hnone (secretHeader_of_validateConfig hvalid hmem htype)
  · exact hproof

/-- A channel with a secret and a header. -/
def guardedChannel : WebhookChannelConfig :=
  ⟨"alerts", "alerts-token", some "key", some "X-Secret", .plain, none, none, none, none, none,
    true, none⟩

def guardedState : AppState :=
  ⟨{ AppConfig.small with channels := [guardedChannel] },
    ⟨External.plain, LockRetryPolicy.default⟩⟩

/-- An empty object is received on a channel with these headers. -/
def guardedReceive (channel : String) (headers : HeaderMap) (n : ℕ) : List ServiceEvent :=
  ServiceEvent.task (.request (.receive (.v4 0) channel headers [123, 125])) n
    (List.replicate 3 (Input.calm 1000 200))

/-- The same request when it is answered without a call. -/
def guardedRefused (channel : String) (headers : HeaderMap) (n : ℕ) : List ServiceEvent :=
  ServiceEvent.task (.request (.receive (.v4 0) channel headers [123, 125])) n []

def unprovenHeaders : HeaderMap :=
  [("content-type", HeaderValue.ofText "application/json".toList)]

def provenHeaders : HeaderMap := ("x-secret", HeaderValue.ofText "key".toList) :: unprovenHeaders

/-- Two requests reach the guarded channel, one without the secret and one with it: the second
stores a row, and it carried the proof. -/
theorem stored_carriesProof_guarded :
    ∃ (s : ServiceState) (e : ServiceEntry) (id : ℤ) (c : Content), e ∈ s.history ∧
      storedRow e.done = some (id, c) ∧ s.tasks.length = 2 ∧ storedRows s = [(id, c)] ∧
      ∃ clientIp headers body receivedAt,
        e.job = .request (.receive clientIp "alerts" headers body) ∧
          guardedState.Accepted guardedChannel clientIp "alerts" headers body ∧
          c = contentOf guardedState
            (Webhook.new "alerts" (guardedState.forwardedHeaders headers) body receivedAt) ∧
          CarriesProof guardedState.db.ext guardedChannel headers body := by
  have hrun : ∃ s, guardedState.machine.runEvents guardedState.initial
      (guardedRefused "alerts" unprovenHeaders 0 ++
        guardedReceive "alerts" provenHeaders 1) = some s ∧
        s.tasks.length = 2 ∧
        (storedRows s).map (fun p => p.2.channel) = [.text "alerts"] := by
    decide +kernel
  obtain ⟨s, hs, htasks, hchannels⟩ := hrun
  have hreaches : guardedState.machine.Reaches (fun _ _ => True) guardedState.initial s :=
    TaskMachine.reaches_of_runEvents hs fun _ _ _ => trivial
  obtain ⟨⟨id, c⟩, hrows, hchannel⟩ := List.map_eq_singleton_iff.mp hchannels
  have hmem : (id, c) ∈ storedRows s := hrows ▸ List.mem_singleton_self _
  obtain ⟨e, he, hstored⟩ := List.mem_filterMap.mp hmem
  refine ⟨s, e, id, c, he, hstored, htasks, hrows, @stored_carriesProof guardedState
    (Except.eq_ok_of_toBool ?_) guardedChannel rfl (Or.inl rfl) (fun _ => ?_) s hreaches e he id c
    hstored hchannel⟩
  · decide +kernel
  · nofun

/-! ## Channels shown as protected that are not -/

/-- A channel with a secret and no header. -/
def headerlessChannel : WebhookChannelConfig :=
  ⟨"orders", "orders-token", some "key", none, .plain, none, none, none, none, none, true, none⟩

/-- Before a channel with a secret and a header stands another one of its name. -/
def shownState : AppState :=
  ⟨{ AppConfig.small with
      channels := [headerlessChannel, { guardedChannel with webhookSecret := none },
        guardedChannel] },
    ⟨External.plain, LockRetryPolicy.default⟩⟩

/-- **What is shown as protected may not be**: two channels of an accepted configuration are
shown to have a secret, and requests that carry no proof of it are stored under their names. -/
theorem shown_channels_store_unproven :
    shownState.config.validateConfig shownState.db.ext = .ok () ∧
      (∀ ch ∈ [headerlessChannel, guardedChannel], ch ∈ shownState.config.channels ∧
        recordChannelSecurityGauges shownState.config.channels .empty ch.name "secret" =
          some (.finite 1) ∧
        (shownState.config.channelDto ch).hasSecret = true ∧
        ¬CarriesProof shownState.db.ext ch unprovenHeaders [123, 125]) ∧
      ∃ s, shownState.machine.runEvents shownState.initial
          (guardedReceive "orders" unprovenHeaders 0 ++
            guardedReceive "alerts" unprovenHeaders 1) = some s ∧
        (storedRows s).map (fun p => p.2.channel) = [.text "alerts", .text "orders"] := by
  refine ⟨Except.eq_ok_of_toBool (by decide +kernel), ?_, by decide +kernel⟩
  have hgauges : ∀ ch ∈ [headerlessChannel, guardedChannel],
      recordChannelSecurityGauges shownState.config.channels .empty ch.name "secret" =
        some (.finite 1) := by
    decide +kernel
  intro ch hch
  rcases List.mem_cons.mp hch with rfl | hch'
  · refine ⟨List.mem_cons_self, hgauges _ hch, rfl, ?_⟩
    rintro ⟨-, header, -, -, hheader, -⟩
    cases hheader
  · obtain rfl := List.mem_singleton.mp hch'
    refine ⟨List.mem_cons_of_mem _ (List.mem_cons_of_mem _ List.mem_cons_self), hgauges _ hch,
      rfl, ?_⟩
    rintro ⟨secret, header, raw, -, hheader, hraw, -⟩
    obtain rfl := Option.some.inj hheader
    have hmissing : unprovenHeaders.getStr "X-Secret" = none := by decide +kernel
    cases hmissing.symm.trans hraw

end AppState
