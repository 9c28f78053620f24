/-
# Who may do what

The handlers behind a bearer token each begin with the same decision, written out in six
places: once for the queue routes, once in each of poll, list, delete and sign, and once for
the test send.  Sign and test send go on with the configuration of the channel they were let
into, the others only with its name.

All of them reach one `Decision`, which depends on the configuration, the `Authorization`
header and the channel of the path alone.  A handler that is not let in does nothing but
answer.
-/
import KaimanWebhooks.Signing

namespace AppState

variable (state : AppState)

/-! ## The check, in its six shapes -/

/-- The check of the sign route, which keeps the channel it finds. -/
def authorizeSign (headers : HeaderMap) (channelName : String) :
    Except HttpResponse WebhookChannelConfig :=
  let bearer := ((headers.get "Authorization").bind HeaderValue.toStr).bind fun v =>
    ("Bearer ".toList.isPrefixOf? v).map String.ofList
  match bearer with
  | none => .error (.text 401 "Unauthorized")
  | some bearer =>
      match state.config.findChannelByToken bearer with
      | some c => if c.name ≠ channelName then .error (.text 403 "Forbidden") else .ok c
      | none =>
          if !state.config.isUiToken bearer then .error (.text 401 "Unauthorized")
          else
            match state.config.findChannelByName channelName with
            | some c => .ok c
            | none => .error (.text 404 "Channel not found")

/-- The check of the test send: a channel token is dealt with first and returns, then the UI
token is tried. -/
def authorizeTestSend (headers : HeaderMap) (channelName : String) :
    Except HttpResponse WebhookChannelConfig := do
  let some bearer := ((headers.get "Authorization").bind HeaderValue.toStr).bind fun v =>
      ("Bearer ".toList.isPrefixOf? v).map String.ofList
    | .error (.text 401 "Unauthorized")
  if let some channelConfig := state.config.findChannelByToken bearer then
    if channelConfig.name ≠ channelName then .error (.text 403 "Forbidden")
    else .ok channelConfig
  else if !state.config.isUiToken bearer then .error (.text 401 "Unauthorized")
  else
    match state.config.findChannelByName channelName with
    | some channelConfig => .ok channelConfig
    | none => .error (.text 404 "Channel not found")

/-! ## Sign and test send -/

/-- What the sign route answers to a caller it has let in. -/
def signFor (channelConfig : WebhookChannelConfig) (body : Bytes) : HttpResponse :=
  if channelConfig.secretType ≠ .hmacSha256 then
    .text 400 "Channel does not use HMAC-SHA256 secret type"
  else
    let secret := channelConfig.webhookSecret.getD ""
    let headerName := channelConfig.secretHeader.getD ""
    let signature := state.db.ext.hmacSha256Hex (utf8Bytes secret) body
    let signTmpl := channelConfig.secretSignTemplate.getD "\x7b\x7b signature \x7d\x7d"
    match state.db.ext.renderSignTemplate signTmpl signature with
    | .error _ => .text 500 "Error"
    | .ok headerValue => ⟨200, [], .signed ⟨signature, headerName, headerValue⟩⟩

def signWebhookRoute (channelName : String) (headers : HeaderMap) (body : Bytes) :
    AppAction HttpResponse :=
  orRespond (state.authorizeSign headers channelName) fun channelConfig =>
    .pure (state.signFor channelConfig body)

end AppState

/-- The body of a test send. -/
structure TestSendRequest where
  secret : Option String
  payload : Json

namespace AppState

variable (state : AppState)

/-- The request of a test send around the bytes of its payload. -/
def testSendHttpRequest (channelConfig : WebhookChannelConfig) (forwardCfg : WebhookForwardConfig)
    (secret : Option String) (bodyBytes : Bytes) : Except HttpResponse HttpRequest :=
  let request : HttpRequest :=
    { method := .post
      url := forwardCfg.url
      timeout := forwardCfg.timeoutSeconds.toNat
      headers := [("Content-Type", "application/json")]
      body := bodyBytes }
  match forwardCfg.signHeader with
  | none => .ok request
  | some signHeader =>
      (signTestPayload state.db.ext channelConfig forwardCfg secret bodyBytes).map fun value =>
        { request with headers := request.headers ++ [(signHeader, value)] }

/-- A test send hands the answer of the target back to the caller. -/
def testSendResponse : PeerAnswer → HttpResponse
  | .error cause => .text 502 ("Failed to reach target: " ++ cause)
  | .ok resp => ⟨200, [], .testSent ⟨resp.status, resp.text.toOption.getD ""⟩⟩

/-- What a test send does for a caller it has let in with this channel.  `toVec` serialises the
payload; what cannot be serialised is sent as an empty body. -/
def testSendFor (toVec : Json → Except String Bytes) (channelConfig : WebhookChannelConfig)
    (req : TestSendRequest) : AppAction HttpResponse :=
  match channelConfig.forward with
  | none => .pure (.text 400 "Channel has no forward configuration")
  | some forwardCfg =>
      let bodyBytes := (toVec req.payload).toOption.getD []
      orRespond (state.testSendHttpRequest channelConfig forwardCfg req.secret bodyBytes)
        fun request => do
          let answer ← Prog.send none request
          return testSendResponse answer

def testSendRoute (toVec : Json → Except String Bytes) (channelName : String)
    (headers : HeaderMap) (req : TestSendRequest) : AppAction HttpResponse :=
  orRespond (state.authorizeTestSend headers channelName) fun channelConfig =>
    state.testSendFor toVec channelConfig req

end AppState

/-! ## One decision -/

/-- What a bearer token gets on a channel. -/
inductive Decision : Type where
  | allow
  | unauthorized
  | forbidden
  | notFound
  deriving DecidableEq

namespace Decision

/-- How a handler puts the decision. -/
def result : Decision → Except HttpResponse Unit
  | .allow => .ok ()
  | .unauthorized => .error (.text 401 "Unauthorized")
  | .forbidden => .error (.text 403 "Forbidden")
  | .notFound => .error (.text 404 "Channel not found")

end Decision

/-- The decision on a bearer token: the first channel that has the token decides, and only a
token no channel has is compared with the UI token. -/
def AppConfig.decideBearer (config : AppConfig) (bearer channelName : String) : Decision :=
  match config.findChannelByToken bearer with
  | some c => if c.name = channelName then .allow else .forbidden
  | none =>
      if config.isUiToken bearer then
        if (config.findChannelByName channelName).isSome then .allow else .notFound
      else .unauthorized

/-- The decision on a request. -/
def AppConfig.decisionFor (config : AppConfig) (headers : HeaderMap) (channelName : String) :
    Decision :=
  match AppState.extractBearer headers with
  | none => .unauthorized
  | some bearer => config.decideBearer bearer channelName

/-- The channel a request with this bearer is let into: the first one that has the token, and
for the UI token the first one of the name. -/
def AppConfig.channelFor (config : AppConfig) (bearer channelName : String) :
    Option WebhookChannelConfig :=
  match config.findChannelByToken bearer with
  | some c => some c
  | none => config.findChannelByName channelName

/-- A route behind a bearer token, with what its path and body extractors gave. -/
inductive BearerRoute : Type where
  | poll
  | list
  | delete (webhookId : ℤ)
  | sign (body : Bytes)
  | testSend (req : TestSendRequest)
  | queue
  | pause
  | resume
  | clear
  | retry (webhookId : ℤ)

namespace BearerRoute

/-- The check of a route, in the shape its handler writes it. -/
def check (state : AppState) (headers : HeaderMap) (channelName : String) :
    BearerRoute → Except HttpResponse Unit
  | .poll | .list | .delete _ => state.authorizeInPlace headers channelName
  | .sign _ => (state.authorizeSign headers channelName).map fun _ => ()
  | .testSend _ => (state.authorizeTestSend headers channelName).map fun _ => ()
  | .queue | .pause | .resume | .clear | .retry _ => state.authorize headers channelName

/-- The handler of a route. -/
def handler (state : AppState) (toVec : Json → Except String Bytes) (headers : HeaderMap)
    (channelName : String) : BearerRoute → AppAction HttpResponse
  | .poll => state.readWebhooksRoute channelName headers
  | .list => state.listWebhooksRoute channelName headers
  | .delete webhookId => state.deleteWebhookRoute channelName webhookId headers
  | .sign body => state.signWebhookRoute channelName headers body
  | .testSend req => state.testSendRoute toVec channelName headers req
  | .queue => state.getQueueRoute channelName headers
  | .pause => state.pauseQueueRoute channelName headers
  | .resume => state.resumeQueueRoute channelName headers
  | .clear => state.clearQueueRoute channelName headers
  | .retry webhookId => state.retryWebhookRoute channelName webhookId headers

/-- What a route does for a caller it has let into a channel. -/
def proceed (state : AppState) (toVec : Json → Except String Bytes)
    (channelConfig : WebhookChannelConfig) : BearerRoute → AppAction HttpResponse
  | .poll => state.pollFor channelConfig.name
  | .list => state.listFor channelConfig.name
  | .delete webhookId => state.deleteFor channelConfig.name webhookId
  | .sign body => .pure (state.signFor channelConfig body)
  | .testSend req => state.testSendFor toVec channelConfig req
  | .queue => state.viewFor channelConfig.name
  | .pause => AppState.setPausedFor true channelConfig.name
  | .resume => AppState.setPausedFor false channelConfig.name
  | .clear => state.clearFor channelConfig.name
  | .retry webhookId => state.retryFor channelConfig.name webhookId

end BearerRoute

/-! ## The shapes agree -/

/-- The two checks that keep the channel are one. -/
theorem AppState.authorizeTestSend_eq (state : AppState) (headers : HeaderMap)
    (channelName : String) :
    state.authorizeTestSend headers channelName = state.authorizeSign headers channelName := by
  unfold AppState.authorizeTestSend AppState.authorizeSign
  dsimp only
  cases ((headers.get "Authorization").bind HeaderValue.toStr).bind fun v =>
      ("Bearer ".toList.isPrefixOf? v).map String.ofList with
  | none => rfl
  | some bearer =>
      dsimp only
      cases state.config.findChannelByToken bearer <;> rfl

/-- The queue routes follow the decision. -/
theorem AppState.authorize_eq_result (state : AppState) (headers : HeaderMap)
    (channelName : String) :
    state.authorize headers channelName =
      (state.config.decisionFor headers channelName).result := by
  unfold AppState.authorize AppConfig.decisionFor
  cases AppState.extractBearer headers with
  | none => rfl
  | some bearer =>
      dsimp only [AppState.authorizeChannel, AppConfig.decideBearer]
      cases state.config.findChannelByToken bearer with
      | some c => by_cases hname : c.name = channelName <;> simp [hname, Decision.result]
      | none =>
          cases state.config.isUiToken bearer
          · rfl
          · cases state.config.findChannelByName channelName <;> rfl

/-- The sign route follows the decision, and is let in with a channel of the name asked for. -/
theorem AppState.authorizeSign_eq_result (state : AppState) (headers : HeaderMap)
    (channelName : String) :
    (state.authorizeSign headers channelName).map (fun _ => ()) =
      (state.config.decisionFor headers channelName).result := by
  rw [← state.authorize_eq_result]
  unfold AppState.authorizeSign AppState.authorize AppState.authorizeChannel
    AppState.extractBearer HeaderMap.getStr
  dsimp only
  cases ((headers.get "Authorization").bind HeaderValue.toStr).bind fun v =>
      ("Bearer ".toList.isPrefixOf? v).map String.ofList with
  | none => rfl
  | some bearer =>
      dsimp only
      cases state.config.findChannelByToken bearer with
      | some c => by_cases hname : c.name = channelName <;> simp [hname, Except.map]
      | none =>
          dsimp only
          cases state.config.isUiToken bearer
          · rfl
          · cases state.config.findChannelByName channelName <;> rfl

/-- Every route follows the decision. -/
theorem BearerRoute.check_eq_result (route : BearerRoute) (state : AppState)
    (headers : HeaderMap) (channelName : String) :
    route.check state headers channelName =
      (state.config.decisionFor headers channelName).result := by
  cases route with
  | poll | list | delete _ =>
      exact (state.authorizeInPlace_eq headers channelName).trans
        (state.authorize_eq_result headers channelName)
  | sign _ => exact state.authorizeSign_eq_result headers channelName
  | testSend _ =>
      have hsame := state.authorizeTestSend_eq headers channelName
      exact (congrArg (Except.map fun _ => ()) hsame).trans
        (state.authorizeSign_eq_result headers channelName)
  | queue | pause | resume | clear | retry _ =>
      exact state.authorize_eq_result headers channelName

/-! ## A refusal is only an answer -/

/-- What a failed check leaves of a handler. -/
theorem AppState.orRespond_of_map_eq_error {α β : Type} {check : Except HttpResponse α}
    {f : α → β} {response : HttpResponse} (h : check.map f = .error response)
    (next : α → AppAction HttpResponse) : AppState.orRespond check next = .pure response := by
  cases check with
  | ok a => cases h
  | error e =>
      cases h
      rfl

/-- A handler that is refused answers and does nothing else. -/
theorem BearerRoute.handler_of_refused (route : BearerRoute) {state : AppState}
    {headers : HeaderMap} {channelName : String} {response : HttpResponse}
    (h : (state.config.decisionFor headers channelName).result = .error response)
    (toVec : Json → Except String Bytes) :
    route.handler state toVec headers channelName = .pure response := by
  have hauth : (state.authorize headers channelName).map id = .error response := by
    rw [state.authorize_eq_result, h]
    rfl
  have hsign := (state.authorizeSign_eq_result headers channelName).trans h
  cases route with
  | sign body => exact AppState.orRespond_of_map_eq_error hsign _
  | testSend req =>
      rw [← state.authorizeTestSend_eq] at hsign
      exact AppState.orRespond_of_map_eq_error hsign _
  | poll | list | delete _ | queue | pause | resume | clear | retry _ =>
      exact AppState.orRespond_of_map_eq_error hauth _

/-! ## Who is let in -/

/-- The bearer of an allowed request is the token of a channel with the name asked for, or the
UI token, and a channel of that name is configured. -/
def AppConfig.Entitled (config : AppConfig) (bearer channelName : String) : Prop :=
  (∃ ch ∈ config.channels, ch.name = channelName ∧ ch.apiReadToken = bearer) ∨
    (config.uiAccessToken = some bearer ∧ ∃ ch ∈ config.channels, ch.name = channelName)

theorem AppConfig.isUiToken_iff {config : AppConfig} {bearer : String} :
    config.isUiToken bearer = true ↔ config.uiAccessToken = some bearer := by
  unfold AppConfig.isUiToken
  cases config.uiAccessToken <;> simp

/-- What `findChannelByToken` finds has the token. -/
theorem AppConfig.mem_of_findChannelByToken {config : AppConfig} {bearer : String}
    {ch : WebhookChannelConfig} (h : config.findChannelByToken bearer = some ch) :
    ch ∈ config.channels ∧ ch.apiReadToken = bearer :=
  ⟨List.mem_of_find?_eq_some h, by simpa using List.find?_some h⟩

/-- What `findChannelByName` finds has the name. -/
theorem AppConfig.mem_of_findChannelByName {config : AppConfig} {name : String}
    {ch : WebhookChannelConfig} (h : config.findChannelByName name = some ch) :
    ch ∈ config.channels ∧ ch.name = name :=
  ⟨List.mem_of_find?_eq_some h, by simpa using List.find?_some h⟩

/-- The decision is sound. -/
theorem AppConfig.entitled_of_decideBearer {config : AppConfig} {bearer channelName : String}
    (h : config.decideBearer bearer channelName = .allow) :
    config.Entitled bearer channelName := by
  unfold AppConfig.decideBearer at h
  cases htoken : config.findChannelByToken bearer with
  | some c =>
      obtain ⟨hmem, hbearer⟩ := AppConfig.mem_of_findChannelByToken htoken
      simp only [htoken] at h
      split at h
      · next hname => exact .inl ⟨c, hmem, hname, hbearer⟩
      · cases h
  | none =>
      simp only [htoken] at h
      split at h
      · next hui =>
        refine .inr ⟨AppConfig.isUiToken_iff.mp hui, ?_⟩
        split at h
        · next hsome =>
          obtain ⟨c, hc⟩ := Option.isSome_iff_exists.mp hsome
          exact ⟨c, AppConfig.mem_of_findChannelByName hc⟩
        · cases h
      · cases h

/-- An allowed request is let into a configured channel of the name asked for, and the check of
the sign route keeps that channel. -/
theorem AppState.exists_channelFor_of_allow {state : AppState} {headers : HeaderMap}
    {channelName : String} (h : state.config.decisionFor headers channelName = .allow) :
    ∃ bearer ch, AppState.extractBearer headers = some bearer ∧
      state.config.Entitled bearer channelName ∧
      state.config.channelFor bearer channelName = some ch ∧ ch.name = channelName ∧
      state.authorizeSign headers channelName = .ok ch := by
  unfold AppConfig.decisionFor at h
  cases hbearer : AppState.extractBearer headers with
  | none => simp [hbearer] at h
  | some bearer =>
      simp only [hbearer] at h
      have hentitled := AppConfig.entitled_of_decideBearer h
      unfold AppState.extractBearer HeaderMap.getStr at hbearer
      unfold AppConfig.decideBearer at h
      unfold AppConfig.channelFor AppState.authorizeSign
      simp only [hbearer]
      cases htoken : state.config.findChannelByToken bearer with
      | some c =>
          simp only [htoken] at h
          have hname : c.name = channelName := by
            by_contra hne
            simp [hne] at h
          exact ⟨bearer, c, rfl, hentitled, by simp only [htoken], hname,
            by simp [hname]⟩
      | none =>
          simp only [htoken] at h
          have hui : state.config.isUiToken bearer = true := by
            by_contra hne
            simp [hne] at h
          cases hfind : state.config.findChannelByName channelName with
          | none => simp [hui, hfind] at h
          | some c =>
              exact ⟨bearer, c, rfl, hentitled, by simp only [htoken],
                (AppConfig.mem_of_findChannelByName hfind).2, by simp [hui]⟩

/-- What a check that passed leaves of a handler. -/
theorem AppState.orRespond_of_eq_ok {α : Type} {check : Except HttpResponse α} {a : α}
    (h : check = .ok a) (next : α → AppAction HttpResponse) :
    AppState.orRespond check next = next a := by
  rw [h]
  rfl

/-- A handler that lets a request in goes on for the channel it let it into. -/
theorem BearerRoute.handler_of_allowed (route : BearerRoute) {state : AppState}
    {headers : HeaderMap} {channelName : String} {ch : WebhookChannelConfig}
    (h : state.config.decisionFor headers channelName = .allow)
    (hsign : state.authorizeSign headers channelName = .ok ch) (hname : ch.name = channelName)
    (toVec : Json → Except String Bytes) :
    route.handler state toVec headers channelName = route.proceed state toVec ch := by
  have hauth : state.authorize headers channelName = .ok () := by
    rw [state.authorize_eq_result, h]
    rfl
  have hinPlace := (state.authorizeInPlace_eq headers channelName).trans hauth
  have htest := (state.authorizeTestSend_eq headers channelName).trans hsign
  subst hname
  cases route with
  | poll | list | delete _ => exact AppState.orRespond_of_eq_ok hinPlace _
  | sign _ => exact AppState.orRespond_of_eq_ok hsign _
  | testSend _ => exact AppState.orRespond_of_eq_ok htest _
  | queue | pause | resume | clear | retry _ => exact AppState.orRespond_of_eq_ok hauth _

/-- **All routes authorise alike.**  Every route behind a bearer token, in whichever shape it
writes its check, reaches one decision, which the configuration, the header and the channel of
the path determine; who is let in is entitled to the channel, and every handler goes on for the
channel the token was let into; and a handler that refuses is the program that answers at once:
no call of it reaches the database, a target or a status. -/
theorem AppState.routes_authorise_alike (state : AppState)
    (toVec : Json → Except String Bytes) (headers : HeaderMap) (channelName : String) :
    (∀ route : BearerRoute, route.check state headers channelName =
      (state.config.decisionFor headers channelName).result) ∧
    (state.config.decisionFor headers channelName = .allow →
      ∃ bearer ch, AppState.extractBearer headers = some bearer ∧
        state.config.Entitled bearer channelName ∧
        state.config.channelFor bearer channelName = some ch ∧ ch.name = channelName ∧
        ∀ route : BearerRoute,
          route.handler state toVec headers channelName = route.proceed state toVec ch) ∧
    ∀ response, (state.config.decisionFor headers channelName).result = .error response →
      ∀ route : BearerRoute, route.handler state toVec headers channelName = .pure response := by
  refine ⟨fun route => route.check_eq_result state headers channelName, fun hallow => ?_,
    fun response hresponse route => route.handler_of_refused hresponse toVec⟩
  obtain ⟨bearer, ch, hbearer, hentitled, hchannel, hname, hsign⟩ :=
    AppState.exists_channelFor_of_allow hallow
  exact ⟨bearer, ch, hbearer, hentitled, hchannel, hname,
    fun route => route.handler_of_allowed hallow hsign hname toVec⟩
