/-
# The decision to admit a webhook

Six checks stand between a request and the table, after a layer that limits every body to the
largest limit of the configuration.  Each check has its own status, and the first one that fails
decides: who is not allowed to send to a channel, or cannot prove it, learns nothing about what
the channel thinks of the body.
-/
import KaimanWebhooks.Acceptance
import KaimanWebhooks.Attempts
import KaimanWebhooks.Protection

/-! ## The body limits -/

/-- The largest body limit of the channels and the default. -/
def AppConfig.maxBodyLimit (config : AppConfig) : ℕ :=
  max ((config.channels.filterMap WebhookChannelConfig.maxBodySize).max?.getD
    config.defaultBodyLimit) config.defaultBodyLimit

/-- The layer in front of all routes rejects a body above the largest limit. -/
def AppConfig.layerAccepts (config : AppConfig) (body : Bytes) : Prop :=
  body.length ≤ config.maxBodyLimit

/-- The limit of a channel. -/
def AppConfig.effectiveLimit (config : AppConfig) (ch : WebhookChannelConfig) : ℕ :=
  ch.maxBodySize.getD config.defaultBodyLimit

/-- The layer rejects no body that fits the limit of a channel. -/
theorem AppConfig.layerAccepts_of_le {config : AppConfig} {ch : WebhookChannelConfig}
    (hch : ch ∈ config.channels) {body : Bytes} (h : body.length ≤ config.effectiveLimit ch) :
    config.layerAccepts body := by
  refine h.trans ?_
  unfold AppConfig.effectiveLimit AppConfig.maxBodyLimit
  cases hsize : ch.maxBodySize with
  | none => exact le_max_right _ _
  | some limit =>
      have hmem : limit ∈ config.channels.filterMap WebhookChannelConfig.maxBodySize :=
        List.mem_filterMap.mpr ⟨ch, hch, hsize⟩
      obtain ⟨largest, hlargest⟩ := Option.isSome_iff_exists.mp (List.isSome_max?_of_mem hmem)
      rw [hlargest, Option.getD_some, Option.getD_some]
      exact ((List.max?_eq_some_iff.mp hlargest).2 limit hmem).trans (le_max_left _ _)

/-! ## The checks -/

namespace AppState

variable (state : AppState) (ch : WebhookChannelConfig) (headers : HeaderMap) (body : Bytes)

/-- The secret check passes: the channel has no secret or no header to read one from, or the
request carries a proof of the secret. -/
def ProvesOrOpen : Prop :=
  ch.webhookSecret = none ∨ ch.secretHeader = none ∨ CarriesProof state.db.ext ch headers body

/-- The template that takes the signature out of its header cannot be rendered. -/
def TemplateFails : Prop :=
  ch.secretType = .hmacSha256 ∧ ∃ secret header raw e, ch.webhookSecret = some secret ∧
    ch.secretHeader = some header ∧ headers.getStr header = some raw ∧
      state.db.ext.renderExtractTemplate (ch.secretExtractTemplate.getD "\x7b\x7b raw \x7d\x7d")
        (String.ofList raw) = .error e

/-- The declared content type starts with that of JSON. -/
def DeclaresJson : Prop :=
  "application/json".toList <+: (headers.getStr "content-type").getD []

instance : Decidable (DeclaresJson headers) :=
  inferInstanceAs (Decidable ("application/json".toList <+: _))

/-- The body parses as JSON. -/
def ParsesAsJson : Prop := ∃ value, state.db.ext.fromSlice body = .ok value

/-- All six checks pass. -/
structure Admits (clientIp : IpAddr) (channelName : String) (ch : WebhookChannelConfig)
    (headers : HeaderMap) (body : Bytes) : Prop where
  channel : state.config.findChannelByName channelName = some ch
  ip : ch.isIpAllowed state.db.ext clientIp = true
  secret : state.ProvesOrOpen ch headers body
  size : body.length ≤ state.config.effectiveLimit ch
  contentType : DeclaresJson headers
  json : state.ParsesAsJson body

/-- **The first check that fails decides the status.** -/
inductive Refuses (clientIp : IpAddr) (channelName : String) (headers : HeaderMap)
    (body : Bytes) : ℕ → Prop where
  | channel : state.config.findChannelByName channelName = none →
      Refuses clientIp channelName headers body 404
  | ip {ch : WebhookChannelConfig} : state.config.findChannelByName channelName = some ch →
      ch.isIpAllowed state.db.ext clientIp = false →
      Refuses clientIp channelName headers body 403
  | secret {ch : WebhookChannelConfig} : state.config.findChannelByName channelName = some ch →
      ch.isIpAllowed state.db.ext clientIp = true → ¬state.ProvesOrOpen ch headers body →
      ¬state.TemplateFails ch headers → Refuses clientIp channelName headers body 401
  | template {ch : WebhookChannelConfig} : state.config.findChannelByName channelName = some ch →
      ch.isIpAllowed state.db.ext clientIp = true → ¬state.ProvesOrOpen ch headers body →
      state.TemplateFails ch headers → Refuses clientIp channelName headers body 500
  | size {ch : WebhookChannelConfig} : state.config.findChannelByName channelName = some ch →
      ch.isIpAllowed state.db.ext clientIp = true → state.ProvesOrOpen ch headers body →
      state.config.effectiveLimit ch < body.length → Refuses clientIp channelName headers body 413
  | contentType {ch : WebhookChannelConfig} :
      state.config.findChannelByName channelName = some ch →
      ch.isIpAllowed state.db.ext clientIp = true → state.ProvesOrOpen ch headers body →
      body.length ≤ state.config.effectiveLimit ch → ¬DeclaresJson headers →
      Refuses clientIp channelName headers body 415
  | json {ch : WebhookChannelConfig} : state.config.findChannelByName channelName = some ch →
      ch.isIpAllowed state.db.ext clientIp = true → state.ProvesOrOpen ch headers body →
      body.length ≤ state.config.effectiveLimit ch → DeclaresJson headers →
      ¬state.ParsesAsJson body → Refuses clientIp channelName headers body 422

/-- The request was stored, as one more row at the end of the table, and nothing else changed. -/
def StoresOne (channelName : String) (headers : HeaderMap) (body : Bytes) (before after : World) :
    Prop :=
  (∃ receivedAt, after.table.rows = before.table.rows ++
    [{ id := before.table.seq + 1
       channel := .text channelName
       headers := .text (state.db.headersJson (state.forwardedHeaders headers))
       payload := .blob body
       receivedAt := .int receivedAt
       forwardAttempts := .int 0
       lastAttemptAt := .null
       lastAttemptError := .null
       nextAttemptAt := .null }]) ∧
    after.table.seq = before.table.seq + 1 ∧ after.statuses = before.statuses ∧
    after.wire = before.wire

section Checks

variable {state : AppState} {ch : WebhookChannelConfig} {headers : HeaderMap} {body : Bytes}
  {clientIp : IpAddr} {channelName : String}

theorem provesOrOpen_iff :
    state.ProvesOrOpen ch headers body ↔ state.verifySecret ch headers body = .ok () :=
  verifySecret_eq_ok.symm

/-- A failed check of the signature: a template that cannot be rendered is the operator's
fault, everything else is the sender's. -/
theorem status_of_verifyHmacSecret {secret : String} {raw : Option (List Char)}
    {response : HttpResponse}
    (h : state.verifyHmacSecret ch secret raw body = .error response) :
    (response.status = 401 ∧ raw = none) ∨
      (response.status = 500 ∧ ∃ value e, raw = some value ∧
        state.db.ext.renderExtractTemplate (ch.secretExtractTemplate.getD "\x7b\x7b raw \x7d\x7d")
          (String.ofList value) = .error e) := by
  unfold verifyHmacSecret at h
  cases raw with
  | none =>
      cases h
      exact Or.inl ⟨rfl, rfl⟩
  | some value =>
      dsimp only at h
      split at h
      · rename_i e hrender
        cases h
        exact Or.inr ⟨rfl, value, e, rfl, hrender⟩
      · cases h

/-- When the check goes by signatures, the template fails on the value of the header. -/
theorem templateFails_iff {secret header : String} (hsecret : ch.webhookSecret = some secret)
    (hheader : ch.secretHeader = some header) (htype : ch.secretType = .hmacSha256) :
    state.TemplateFails ch headers ↔ ∃ value e, headers.getStr header = some value ∧
      state.db.ext.renderExtractTemplate (ch.secretExtractTemplate.getD "\x7b\x7b raw \x7d\x7d")
        (String.ofList value) = .error e := by
  constructor
  · rintro ⟨-, _, header', value, e, -, hheader', hvalue, hrender⟩
    obtain rfl : header = header' := Option.some.inj (hheader.symm.trans hheader')
    exact ⟨value, e, hvalue, hrender⟩
  · rintro ⟨value, e, hvalue, hrender⟩
    exact ⟨htype, secret, header, value, e, hsecret, hheader, hvalue, hrender⟩

/-- A failed check of the secret answers 500 when the template fails, else 401. -/
theorem status_of_verifySecret {response : HttpResponse}
    (h : state.verifySecret ch headers body = .error response) :
    (response.status = 500 ∧ state.TemplateFails ch headers) ∨
      (response.status = 401 ∧ ¬state.TemplateFails ch headers) := by
  unfold verifySecret at h
  cases hsecret : ch.webhookSecret with
  | none => simp [hsecret] at h
  | some secret =>
      cases hheader : ch.secretHeader with
      | none => simp [hsecret, hheader] at h
      | some header =>
          simp only [hsecret, hheader] at h
          cases htype : ch.secretType with
          | plain =>
              -- a plain secret is compared as it is, without a template
              rw [htype] at h
              refine Or.inr ⟨?_, fun hfails => by simp [TemplateFails, htype] at hfails⟩
              dsimp only at h
              cases hverified : (headers.getStr header).any fun token => token = secret.toList with
              | true =>
                  rw [hverified] at h
                  cases h
              | false =>
                  rw [hverified] at h
                  cases h
                  rfl
          | hmacSha256 =>
              rw [htype] at h
              dsimp only at h
              rw [templateFails_iff hsecret hheader htype]
              cases hverified :
                  state.verifyHmacSecret ch secret (headers.getStr header) body with
              | error response' =>
                  rw [hverified] at h
                  cases h
                  rcases status_of_verifyHmacSecret hverified with
                    ⟨hstatus, hnone⟩ | ⟨hstatus, value, e, hvalue, hrender⟩
                  · refine Or.inr ⟨hstatus, ?_⟩
                    rintro ⟨value, e, hvalue, -⟩
                    cases hnone.symm.trans hvalue
                  · exact Or.inl ⟨hstatus, value, e, hvalue, hrender⟩
              | ok verified =>
                  rw [hverified] at h
                  cases verified with
                  | true => cases h
                  | false =>
                      cases h
                      refine Or.inr ⟨rfl, ?_⟩
                      -- a signature that was compared came out of the template
                      rintro ⟨value, e, hvalue, hrender⟩
                      simp [verifyHmacSecret, hvalue, hrender] at hverified

/-- The check of the body, one condition after the other. -/
theorem validateBody_cases :
    (state.config.effectiveLimit ch < body.length ∧
      ∃ response, state.validateBody ch headers body = .error response ∧ response.status = 413) ∨
    (body.length ≤ state.config.effectiveLimit ch ∧ ¬DeclaresJson headers ∧
      ∃ response, state.validateBody ch headers body = .error response ∧ response.status = 415) ∨
    (body.length ≤ state.config.effectiveLimit ch ∧ DeclaresJson headers ∧
      ¬state.ParsesAsJson body ∧
      ∃ response, state.validateBody ch headers body = .error response ∧ response.status = 422) ∨
    (body.length ≤ state.config.effectiveLimit ch ∧ DeclaresJson headers ∧
      state.ParsesAsJson body ∧ state.validateBody ch headers body = .ok ()) := by
  unfold validateBody AppConfig.effectiveLimit DeclaresJson ParsesAsJson
  -- the size, the declared type and the syntax, in this order
  by_cases hsize : ch.maxBodySize.getD state.config.defaultBodyLimit < body.length
  · rw [if_pos hsize]
    exact Or.inl ⟨hsize, _, rfl, rfl⟩
  · rw [if_neg hsize, ← List.isPrefixOf_iff_prefix]
    have hfits := Nat.le_of_not_lt hsize
    cases "application/json".toList.isPrefixOf ((headers.getStr "content-type").getD []) with
    | false => exact Or.inr (Or.inl ⟨hfits, Bool.false_ne_true, _, rfl, rfl⟩)
    | true =>
        cases state.db.ext.fromSlice body with
        | error e => exact Or.inr (Or.inr (Or.inl ⟨hfits, rfl, by simp, _, rfl, rfl⟩))
        | ok value => exact Or.inr (Or.inr (Or.inr ⟨hfits, rfl, ⟨value, rfl⟩, rfl⟩))

/-- **The checks pass, or the first that fails decides.** -/
theorem checkRequest_cases (state : AppState) (clientIp : IpAddr) (channelName : String)
    (headers : HeaderMap) (body : Bytes) :
    ((∃ ch, state.Admits clientIp channelName ch headers body) ∧
      state.checkRequest clientIp channelName headers body = .ok ()) ∨
    ∃ response, state.checkRequest clientIp channelName headers body = .error response ∧
      state.Refuses clientIp channelName headers body response.status := by
  unfold checkRequest
  cases hfind : state.config.findChannelByName channelName with
  | none => exact Or.inr ⟨_, rfl, .channel hfind⟩
  | some ch =>
      dsimp only
      cases hip : ch.isIpAllowed state.db.ext clientIp with
      | false => exact Or.inr ⟨_, rfl, .ip hfind hip⟩
      | true =>
          rw [if_neg (by simp)]
          cases hsecret : state.verifySecret ch headers body with
          | error response =>
              have hnot : ¬state.ProvesOrOpen ch headers body := fun hproves => by
                cases hsecret.symm.trans (provesOrOpen_iff.mp hproves)
              refine Or.inr ⟨response, rfl, ?_⟩
              rcases status_of_verifySecret hsecret with ⟨hstatus, hfails⟩ | ⟨hstatus, hfails⟩
              · exact hstatus ▸ .template hfind hip hnot hfails
              · exact hstatus ▸ .secret hfind hip hnot hfails
          | ok u =>
              have hproves : state.ProvesOrOpen ch headers body := provesOrOpen_iff.mpr hsecret
              -- only now the body is looked at
              show (_ ∧ state.validateBody ch headers body = .ok ()) ∨
                ∃ response, state.validateBody ch headers body = .error response ∧ _
              rcases @validateBody_cases state ch headers body with
                ⟨hsize, response, hbody, hstatus⟩ | ⟨hsize, htype, response, hbody, hstatus⟩ |
                  ⟨hsize, htype, hjson, response, hbody, hstatus⟩ | ⟨hsize, htype, hjson, hbody⟩
              · exact Or.inr ⟨response, hbody, hstatus ▸ .size hfind hip hproves hsize⟩
              · exact Or.inr ⟨response, hbody,
                  hstatus ▸ .contentType hfind hip hproves hsize htype⟩
              · exact Or.inr ⟨response, hbody,
                  hstatus ▸ .json hfind hip hproves hsize htype hjson⟩
              · exact Or.inl ⟨⟨ch, hfind, hip, hproves, hsize, htype, hjson⟩, hbody⟩

end Checks

/-! ## The decision -/

/-- What a request learns from a refusal by the address or the secret. -/
theorem Refuses.status_of_unproven {state : AppState} {clientIp : IpAddr} {channelName : String}
    {headers : HeaderMap} {body : Bytes} {status : ℕ}
    (h : state.Refuses clientIp channelName headers body status) {ch : WebhookChannelConfig}
    (hfind : state.config.findChannelByName channelName = some ch)
    (hfails : ch.isIpAllowed state.db.ext clientIp = false ∨ ¬state.ProvesOrOpen ch headers body) :
    status = 403 ∨ status = 401 ∨ status = 500 := by
  -- a check that comes after the secret presupposes what fails here
  have hearly : ∀ {ch' : WebhookChannelConfig},
      state.config.findChannelByName channelName = some ch' →
      ch'.isIpAllowed state.db.ext clientIp = true → state.ProvesOrOpen ch' headers body →
      False := by
    intro ch' hfind' hip hproves
    obtain rfl : ch = ch' := Option.some.inj (hfind.symm.trans hfind')
    rcases hfails with hblocked | hnot
    · cases hblocked.symm.trans hip
    · exact hnot hproves
  cases h with
  | channel hnone => cases hnone.symm.trans hfind
  | ip _ _ => exact Or.inl rfl
  | secret _ _ _ _ => exact Or.inr (Or.inl rfl)
  | template _ _ _ _ => exact Or.inr (Or.inr rfl)
  | size hfind' hip hproves _ => exact (hearly hfind' hip hproves).elim
  | contentType hfind' hip hproves _ _ => exact (hearly hfind' hip hproves).elim
  | json hfind' hip hproves _ _ _ => exact (hearly hfind' hip hproves).elim

/-- A refusal is not 200. -/
theorem Refuses.status_ne {state : AppState} {clientIp : IpAddr} {channelName : String}
    {headers : HeaderMap} {body : Bytes} {status : ℕ}
    (h : state.Refuses clientIp channelName headers body status) : status ≠ 200 := by
  cases h <;> simp

/-- A request that passes every check is not refused. -/
theorem Refuses.not_admits {state : AppState} {clientIp : IpAddr} {channelName : String}
    {headers : HeaderMap} {body : Bytes} {status : ℕ}
    (h : state.Refuses clientIp channelName headers body status) (ch : WebhookChannelConfig) :
    ¬state.Admits clientIp channelName ch headers body := by
  rintro ⟨hfind, hip, hproves, hsize, htype, hjson⟩
  have hsame : ∀ {ch' : WebhookChannelConfig},
      state.config.findChannelByName channelName = some ch' → ch' = ch :=
    fun hfind' => Option.some.inj (hfind'.symm.trans hfind)
  cases h with
  | channel hnone => cases hnone.symm.trans hfind
  | ip hfind' hblocked =>
      rw [hsame hfind', hip] at hblocked
      cases hblocked
  | secret hfind' _ hnot _ => exact hnot (hsame hfind' ▸ hproves)
  | template hfind' _ hnot _ => exact hnot (hsame hfind' ▸ hproves)
  | size hfind' _ _ hlarge =>
      rw [hsame hfind'] at hlarge
      omega
  | contentType _ _ _ _ hnot => exact hnot htype
  | json _ _ _ _ _ hnot => exact hnot hjson

/-- With storage working, an accepted request is stored and answered 200. -/
theorem run_receiveWebhookRoute_ok {state : AppState} {clientIp : IpAddr} {channelName : String}
    {headers : HeaderMap} {body : Bytes}
    (hcheck : state.checkRequest clientIp channelName headers body = .ok ()) {ω : ℕ → Input}
    (hω : ∀ n, (ω n).fault = none) (w : World) :
    ((state.receiveWebhookRoute clientIp channelName headers body).run (perform state.db.ext)
        ω w).outcome = .done (.text 200 "OK") ∧
      state.StoresOne channelName headers body w
        ((state.receiveWebhookRoute clientIp channelName headers body).run (perform state.db.ext)
          ω w).state := by
  unfold receiveWebhookRoute
  rw [hcheck]
  simp only [orRespond, Sqlite.receiveWebhook, Sqlite.insert, CallProgram.bind_eq,
    CallProgram.bind_call, CallProgram.bind_pure_left, CallProgram.run_call]
  have hfault : ((fun n => ω (n + 1)) 1).fault = none := hω 2
  rw [CallProgram.run_bind, run_statement_of_fault_eq_none hfault]
  exact ⟨rfl, ⟨_, rfl⟩, rfl, rfl, rfl⟩

/-- **The admission decision.**  With storage working, a request is stored, as exactly one row,
and answered 200 if and only if it passes all six checks; otherwise nothing changes and the
status is that of the first check that fails, so that a sender refused for its address or its
secret sees no verdict on the body.  The layer in front rejects no body that fits the limit of
a configured channel. -/
theorem admission_decision (state : AppState) (clientIp : IpAddr) (channelName : String)
    (headers : HeaderMap) (body : Bytes) {ω : ℕ → Input} (hω : ∀ n, (ω n).fault = none)
    (w : World) :
    (∃ resp after, ((state.receiveWebhookRoute clientIp channelName headers body).run
        (perform state.db.ext) ω w).outcome = .done resp ∧
      ((state.receiveWebhookRoute clientIp channelName headers body).run
        (perform state.db.ext) ω w).state = after ∧
      ((resp.status = 200 ∧ state.StoresOne channelName headers body w after) ↔
        ∃ ch, state.Admits clientIp channelName ch headers body) ∧
      ((¬∃ ch, state.Admits clientIp channelName ch headers body) →
        after = w ∧ state.Refuses clientIp channelName headers body resp.status) ∧
      ∀ ch, state.config.findChannelByName channelName = some ch →
        (ch.isIpAllowed state.db.ext clientIp = false ∨ ¬state.ProvesOrOpen ch headers body) →
          resp.status ∉ [413, 415, 422]) ∧
    ∀ ch ∈ state.config.channels, body.length ≤ state.config.effectiveLimit ch →
      state.config.layerAccepts body := by
  refine ⟨?_, fun ch hch hfits => AppConfig.layerAccepts_of_le hch hfits⟩
  rcases state.checkRequest_cases clientIp channelName headers body with
    ⟨hadmits, hcheck⟩ | ⟨response, hcheck, hrefuses⟩
  · obtain ⟨houtcome, hstored⟩ := run_receiveWebhookRoute_ok hcheck hω w
    refine ⟨_, _, houtcome, rfl, ⟨fun _ => hadmits, fun _ => ⟨rfl, hstored⟩⟩,
      fun hnot => absurd hadmits hnot, fun ch hfind hfails => ?_⟩
    obtain ⟨ch', hch'⟩ := hadmits
    obtain rfl : ch = ch' := Option.some.inj (hfind.symm.trans hch'.channel)
    rcases hfails with hblocked | hnot
    · cases hblocked.symm.trans hch'.ip
    · exact absurd hch'.secret hnot
  · have hnot : ¬∃ ch, state.Admits clientIp channelName ch headers body := fun ⟨ch, hch⟩ =>
      hrefuses.not_admits ch hch
    -- a refused request ends before the first call
    have hrun : (state.receiveWebhookRoute clientIp channelName headers body).run
        (perform state.db.ext) ω w = ⟨.done response, w, []⟩ := by
      unfold receiveWebhookRoute
      rw [hcheck]
      rfl
    refine ⟨response, w, by rw [hrun], by rw [hrun], ⟨fun hok => ?_, fun h => absurd h hnot⟩,
      fun _ => ⟨rfl, hrefuses⟩, fun ch hfind hfails => ?_⟩
    · exact absurd hok.1 hrefuses.status_ne
    · rcases hrefuses.status_of_unproven hfind hfails with h | h | h <;> simp [h]

/-- The small request is admitted on an empty table. -/
theorem admission_decision_small :
    ∃ (resp : HttpResponse) (after : World), resp.status = 200 ∧ small.StoresOne "orders"
      [("content-type", HeaderValue.ofText "application/json".toList)] [123, 125]
      small.initial.shared after := by
  have hadmits : ∃ ch, small.Admits (.v4 0) "orders" ch
      [("content-type", HeaderValue.ofText "application/json".toList)] [123, 125] :=
    ⟨_, rfl, rfl, Or.inl rfl, by decide +kernel, by decide +kernel, ⟨_, rfl⟩⟩
  have hcalm : ∀ n, ((fun _ : ℕ => Input.calm 1000 200) n).fault = none := fun _ => rfl
  obtain ⟨⟨resp, after, -, -, hiff, -⟩, -⟩ := admission_decision small (.v4 0) "orders"
    [("content-type", HeaderValue.ofText "application/json".toList)] [123, 125] hcalm
    small.initial.shared
  exact ⟨resp, after, hiff.mpr hadmits⟩

end AppState
