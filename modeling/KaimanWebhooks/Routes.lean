/-
# The HTTP handlers

The handlers of the API, from the headers, the path and the body of a request to its
response: receive, poll, list, delete, and the queue routes — view, pause, resume, clear
and manual retry.  The path and body extractors have succeeded by then.
-/
import KaimanWebhooks.Forwarder

/-! ## Responses -/

structure WebhookDto where
  headers : StringMap
  payload : Json
  receivedAt : ℤ

structure WebhookListItemDto where
  id : ℤ
  headers : StringMap
  payload : Json
  receivedAt : ℤ

structure QueueItemDto where
  id : ℤ
  headers : StringMap
  payload : Json
  receivedAt : ℤ
  forwardAttempts : ℤ
  lastAttemptAt : Option ℤ
  lastAttemptError : Option String
  nextAttemptAt : Option ℤ

structure QueueResponse where
  status : ChannelForwardStatus
  items : List QueueItemDto

structure RetryResponse where
  success : Bool
  statusCode : Option ℕ
  body : Option String
  error : Option String
  deriving DecidableEq

structure SignResponseDto where
  signature : String
  headerName : String
  headerValue : String

structure TestSendResponse where
  status : ℕ
  body : String

/-- What a response carries. -/
inductive ResponseBody : Type where
  | empty
  | text (s : String)
  | webhooks (items : List WebhookDto)
  | listed (items : List WebhookListItemDto)
  | queue (view : QueueResponse)
  | retry (result : RetryResponse)
  | signed (result : SignResponseDto)
  | testSent (result : TestSendResponse)

structure HttpResponse where
  status : ℕ
  headers : List (String × String)
  body : ResponseBody

namespace HttpResponse

def text (status : ℕ) (s : String) : HttpResponse := ⟨status, [], .text s⟩

def noContent : HttpResponse := ⟨204, [], .empty⟩

/-- The request lost the race for the database: the client is asked to come back. -/
def storageBusy : HttpResponse :=
  ⟨503, [("retry-after", "1")], .text "Storage is busy, retry later"⟩

/-- The answer to a storage error: 503 for contention, 500 otherwise. -/
def ofError (e : WebhookRepositoryError) : HttpResponse :=
  if e.isBusy then storageBusy else text 500 "Error"

end HttpResponse

/-- The state the handlers share. -/
structure AppState where
  config : AppConfig
  db : Sqlite

namespace AppState

variable (state : AppState)

/-! ## Authorization -/

/-- The token of an `Authorization: Bearer` header. -/
def extractBearer (headers : HeaderMap) : Option String :=
  (headers.getStr "Authorization").bind fun value =>
    ("Bearer ".toList.isPrefixOf? value).map String.ofList

/-- A channel token reaches its own channel, the UI token every configured one. -/
def authorizeChannel (bearer : String) (channelName : String) : Except HttpResponse Unit :=
  match state.config.findChannelByToken bearer with
  | some c => if c.name ≠ channelName then .error (.text 403 "Forbidden") else .ok ()
  | none =>
      if !state.config.isUiToken bearer then .error (.text 401 "Unauthorized")
      else if (state.config.findChannelByName channelName).isNone then
        .error (.text 404 "Channel not found")
      else .ok ()

/-- The check the handlers of the queue start with. -/
def authorize (headers : HeaderMap) (channelName : String) : Except HttpResponse Unit :=
  match extractBearer headers with
  | none => .error (.text 401 "Unauthorized")
  | some bearer => state.authorizeChannel bearer channelName

/-- The check as poll, list and delete spell it out: the header is taken apart in place, and
each refusal answers at once. -/
def authorizeInPlace (headers : HeaderMap) (channelName : String) : Except HttpResponse Unit :=
  let bearer := ((headers.get "Authorization").bind HeaderValue.toStr).bind fun v =>
    ("Bearer ".toList.isPrefixOf? v).map String.ofList
  match bearer with
  | none => .error (.text 401 "Unauthorized")
  | some bearer =>
      match state.config.findChannelByToken bearer with
      | some c => if c.name ≠ channelName then .error (.text 403 "Forbidden") else .ok ()
      | none =>
          if !state.config.isUiToken bearer then .error (.text 401 "Unauthorized")
          else if (state.config.findChannelByName channelName).isNone then
            .error (.text 404 "Channel not found")
          else .ok ()

/-- The check in place is the check of the queue routes. -/
theorem authorizeInPlace_eq (headers : HeaderMap) (channelName : String) :
    state.authorizeInPlace headers channelName = state.authorize headers channelName := by
  unfold authorizeInPlace authorize authorizeChannel extractBearer HeaderMap.getStr
  rfl

/-- Go on when a check passed, else answer with its response. -/
def orRespond {α : Type} (check : Except HttpResponse α) (next : α → AppAction HttpResponse) :
    AppAction HttpResponse :=
  match check with
  | .error response => .pure response
  | .ok a => next a

/-- A stored payload as JSON; what does not parse is shown as null. -/
def payloadJson (payload : Bytes) : Json :=
  match state.db.ext.fromSlice payload with
  | .ok value => value
  | .error _ => .null

/-! ## Receive -/

/-- The signature in the header against the one computed over this body. -/
def verifyHmacSecret (ch : WebhookChannelConfig) (secret : String)
    (providedRaw : Option (List Char)) (body : Bytes) : Except HttpResponse Bool :=
  match providedRaw with
  | none => .error (.text 401 "Unauthorized")
  | some raw =>
      let extractTmpl := ch.secretExtractTemplate.getD "\x7b\x7b raw \x7d\x7d"
      match state.db.ext.renderExtractTemplate extractTmpl (String.ofList raw) with
      | .error _ => .error (.text 500 "Error")
      | .ok expectedHex =>
          .ok (verifyHmacHex expectedHex (state.db.ext.hmacSha256Hex (utf8Bytes secret) body))

/-- A channel without both a secret and a header to read it from is unauthenticated. -/
def verifySecret (ch : WebhookChannelConfig) (headers : HeaderMap) (body : Bytes) :
    Except HttpResponse Unit :=
  match ch.webhookSecret, ch.secretHeader with
  | some secret, some headerName =>
      let providedRaw := headers.getStr headerName
      let verified : Except HttpResponse Bool := match ch.secretType with
        | .plain => .ok (providedRaw.any fun token => token = secret.toList)
        | .hmacSha256 => state.verifyHmacSecret ch secret providedRaw body
      match verified with
      | .error response => .error response
      | .ok true => .ok ()
      | .ok false => .error (.text 401 "Unauthorized")
  | _, _ => .ok ()

/-- What can be rejected by looking at the body alone. -/
def validateBody (ch : WebhookChannelConfig) (headers : HeaderMap) (body : Bytes) :
    Except HttpResponse Unit :=
  if ch.maxBodySize.getD state.config.defaultBodyLimit < body.length then
    .error (.text 413 "Payload Too Large")
  else if !("application/json".toList.isPrefixOf ((headers.getStr "content-type").getD [])) then
    .error (.text 415 "Expected application/json")
  else
    match state.db.ext.fromSlice body with
    | .error _ => .error (.text 422 "Invalid JSON")
    | .ok _ => .ok ()

/-- The headers that are stored: lower-case names, none ignored, values that are text. -/
def forwardedHeaders (headers : HeaderMap) : StringMap :=
  StringMap.collect (headers.filterMap fun line =>
    let key := HeaderMap.lowerName line.1
    if state.config.ignoredHeaders.contains key then none
    else line.2.toStr.map fun value => (key, String.ofList value))

/-- Everything that is checked before a webhook is stored. -/
def checkRequest (clientIp : IpAddr) (channelName : String) (headers : HeaderMap) (body : Bytes) :
    Except HttpResponse Unit :=
  match state.config.findChannelByName channelName with
  | none => .error (.text 404 "Channel not found")
  | some ch =>
      if !ch.isIpAllowed state.db.ext clientIp then .error (.text 403 "Forbidden")
      else (state.verifySecret ch headers body).bind fun _ => state.validateBody ch headers body

def receiveWebhookRoute (clientIp : IpAddr) (channelName : String) (headers : HeaderMap)
    (body : Bytes) : AppAction HttpResponse :=
  orRespond (state.checkRequest clientIp channelName headers body) fun _ => do
    match ← state.db.receiveWebhook channelName (state.forwardedHeaders headers) body with
    | .ok _ => return .text 200 "OK"
    | .error e => return .ofError e

/-! ## Poll, list and delete -/

def webhookDto (w : Webhook) : WebhookDto := ⟨w.headers, state.payloadJson w.payload, w.receivedAt⟩

/-- What a poll does for a caller it has let in. -/
def pollFor (channelName : String) : AppAction HttpResponse := do
  match ← state.db.readAndDeleteWebhooks channelName with
  | .ok webhooks => return ⟨200, [], .webhooks (webhooks.map state.webhookDto)⟩
  | .error e => return .ofError e

def readWebhooksRoute (channelName : String) (headers : HeaderMap) : AppAction HttpResponse :=
  orRespond (state.authorizeInPlace headers channelName) fun _ => state.pollFor channelName

def webhookListItemDto (w : Webhook) : Option WebhookListItemDto :=
  w.id.map fun id => ⟨id, w.headers, state.payloadJson w.payload, w.receivedAt⟩

/-- What a list does for a caller it has let in. -/
def listFor (channelName : String) : AppAction HttpResponse := do
  match ← state.db.listWebhooks channelName with
  | .ok webhooks => return ⟨200, [], .listed (webhooks.filterMap state.webhookListItemDto)⟩
  | .error e => return .ofError e

def listWebhooksRoute (channelName : String) (headers : HeaderMap) : AppAction HttpResponse :=
  orRespond (state.authorizeInPlace headers channelName) fun _ => state.listFor channelName

/-- What a delete does for a caller it has let in. -/
def deleteFor (channelName : String) (webhookId : ℤ) : AppAction HttpResponse := do
  match ← state.db.deleteWebhook channelName webhookId with
  | .ok _ => return .noContent
  | .error e => return .ofError e

def deleteWebhookRoute (channelName : String) (webhookId : ℤ) (headers : HeaderMap) :
    AppAction HttpResponse :=
  orRespond (state.authorizeInPlace headers channelName) fun _ =>
    state.deleteFor channelName webhookId

/-! ## The queue -/

/-- The channel and its forward target. -/
def findForwardTarget (channelName : String) :
    Except HttpResponse (WebhookChannelConfig × WebhookForwardConfig) :=
  match state.config.findChannelByName channelName with
  | none => .error (.text 404 "Channel not found")
  | some ch =>
      match ch.forward with
      | none => .error (.text 400 "Channel has no forward configuration")
      | some fwd => .ok (ch, fwd)

/-- The target of a channel is that of a channel of its name. -/
theorem channel_of_findForwardTarget {state : AppState} {channel : String}
    {target : WebhookChannelConfig × WebhookForwardConfig}
    (h : state.findForwardTarget channel = .ok target) :
    target.1 ∈ state.config.channels ∧ target.1.name = channel ∧
      target.1.forward = some target.2 := by
  unfold findForwardTarget at h
  split at h
  · cases h
  · rename_i ch hfind
    split at h
    · cases h
    · rename_i fwd hfwd
      cases h
      exact ⟨List.mem_of_find?_eq_some hfind, by simpa using List.find?_some hfind, hfwd⟩

def queueItemDto (w : Webhook) : Option QueueItemDto :=
  w.id.map fun id =>
    { id := id
      headers := w.headers
      payload := state.payloadJson w.payload
      receivedAt := w.receivedAt
      forwardAttempts := w.forwardAttempts
      lastAttemptAt := w.lastAttemptAt
      lastAttemptError := w.lastAttemptError
      nextAttemptAt := w.nextAttemptAt }

/-- The soonest due time of a queue in which every webhook waits. -/
def soonestDue (items : List QueueItemDto) : Option ℤ :=
  (items.mapM QueueItemDto.nextAttemptAt).bind List.min?

/-- What a view of the queue does for a caller it has let in. -/
def viewFor (channelName : String) : AppAction HttpResponse :=
  orRespond (state.findForwardTarget channelName) fun _ => do
    match ← state.db.listQueue channelName with
    | .error e => return .ofError e
    | .ok webhooks =>
        let items := webhooks.filterMap state.queueItemDto
        let status ← Prog.readStatus channelName
        let view := { status.getD .new with
          queueSize := items.length
          nextAttemptAt := soonestDue items }
        return ⟨200, [], .queue ⟨view, items⟩⟩

def getQueueRoute (channelName : String) (headers : HeaderMap) : AppAction HttpResponse :=
  orRespond (state.authorize headers channelName) fun _ => state.viewFor channelName

/-- What a pause or a resume does for a caller it has let in. -/
def setPausedFor (paused : Bool) (channelName : String) : AppAction HttpResponse := do
  if ← Prog.updateStatus channelName (.paused paused) then return .noContent
  else return .text 400 "Channel has no forward configuration"

/-- Pause and resume set one flag. -/
def setPausedRoute (paused : Bool) (channelName : String) (headers : HeaderMap) :
    AppAction HttpResponse :=
  orRespond (state.authorize headers channelName) fun _ => setPausedFor paused channelName

def pauseQueueRoute : String → HeaderMap → AppAction HttpResponse := state.setPausedRoute true

def resumeQueueRoute : String → HeaderMap → AppAction HttpResponse := state.setPausedRoute false

/-- What a clear does for a caller it has let in. -/
def clearFor (channelName : String) : AppAction HttpResponse := do
  match ← state.db.clearQueue channelName with
  | .ok _ =>
      let _ ← Prog.updateStatus channelName .cleared
      return .noContent
  | .error e => return .ofError e

def clearQueueRoute (channelName : String) (headers : HeaderMap) : AppAction HttpResponse :=
  orRespond (state.authorize headers channelName) fun _ => state.clearFor channelName

end AppState

/-! ## Manual retry -/

/-- One manual retry of one webhook. -/
structure RetryContext where
  state : AppState
  channelName : String
  webhookId : ℤ
  webhook : Webhook
  channelCfg : WebhookChannelConfig
  forwardCfg : WebhookForwardConfig

namespace RetryContext

variable (ctx : RetryContext)

/-- The value of the signature header for a payload. -/
def sign (payload : Bytes) : Except HttpResponse String :=
  match ctx.forwardCfg.signSecret.or ctx.channelCfg.webhookSecret with
  | none => .error (.text 500 "sign-header configured but no secret available")
  | some signSecret =>
      let sig := ctx.state.db.ext.hmacSha256Hex (utf8Bytes signSecret) payload
      match ctx.forwardCfg.signTemplate with
      | none => .ok sig
      | some tmpl =>
          match ctx.state.db.ext.renderSignTemplate tmpl sig with
          | .ok value => .ok value
          | .error _ => .error (.text 500 "Template error")

def buildRequest : Except HttpResponse HttpRequest :=
  let request : HttpRequest :=
    { method := .post
      url := ctx.forwardCfg.url
      timeout := ctx.forwardCfg.timeoutSeconds.toNat
      headers := forwardHeaders ctx.state.config.ignoredHeaders ctx.forwardCfg.signHeader
        ctx.webhook.headers
      body := ctx.webhook.payload }
  match ctx.forwardCfg.signHeader with
  | none => .ok request
  | some signHeader =>
      (ctx.sign ctx.webhook.payload).map fun value =>
        { request with headers := request.headers ++ [(signHeader, value)] }

/-- A retry always answers 200; the payload says how the forward itself went. -/
def result (success : Bool) (statusCode : Option ℕ) (error body : Option String) : HttpResponse :=
  ⟨200, [], .retry ⟨success, statusCode, body, error⟩⟩

/-- Apply the channel's backoff to a webhook whose manual retry failed. -/
def recordFailure (kind : FailureKind) (retryAfter : Option Duration) (errorMsg : String) :
    AppAction Unit := do
  let nanos ← Prog.subsecNanos
  let fm := ctx.state.db.ext.float
  match nextDelay fm (ctx.forwardCfg.resolveBackoff ctx.state.config.forwardBackoff) kind
      (Prog.addI64 ctx.webhook.forwardAttempts 1) retryAfter (clockJitterUnit fm nanos) with
  | none => .panic "cannot convert float seconds to Duration"
  | some delay =>
      let now ← Prog.nowUnix
      let nextAttemptAt := Prog.addI64 now (Prog.asI64 delay.asSecs)
      let _ ← ctx.state.db.recordForwardFailure ctx.webhookId errorMsg nextAttemptAt
      let failedAt ← Prog.nowUnix
      let _ ← Prog.updateStatus ctx.channelName (.failed failedAt errorMsg)
      return ()

/-- Remove a webhook the target has accepted, and decrement the queue counter. -/
def forgetDelivered : AppAction Unit := do
  let _ ← ctx.state.db.deleteWebhook ctx.channelName ctx.webhookId
  let deliveredAt ← Prog.nowUnix
  let _ ← Prog.updateStatus ctx.channelName (.delivered deliveredAt)
  return ()

/-- The request never reached the target. -/
def onTransportError (cause : String) : AppAction HttpResponse := do
  let errorMsg := "network error: " ++ cause
  ctx.recordFailure .transient none errorMsg
  return result false none (some errorMsg) none

/-- The target answered; `expectedStatus` decides whether that counts as delivery. -/
def onResponse (resp : WireResponse) : AppAction HttpResponse :=
  let body := resp.bodyText
  if resp.status ≠ ctx.forwardCfg.expectedStatus then do
    ctx.recordFailure (classifyStatus resp.status) resp.retryAfter
      ("HTTP " ++ toString resp.status ++ ": " ++ body)
    return result false (some resp.status) none (some body)
  else do
    ctx.forgetDelivered
    return result true (some resp.status) none (some body)

def onAnswer : PeerAnswer → AppAction HttpResponse
  | .error cause => ctx.onTransportError cause
  | .ok resp => ctx.onResponse resp

/-- Send the webhook and deal with the answer. -/
def deliver (request : HttpRequest) : AppAction HttpResponse := do
  let answer ← Prog.send (some ctx.webhook) request
  ctx.onAnswer answer

end RetryContext

namespace AppState

variable (state : AppState)

/-- The webhook of a path id, if it belongs to the channel. -/
def checkLoaded (channelName : String) :
    Except WebhookRepositoryError (Option Webhook) → Except HttpResponse Webhook
  | .error e => .error (.ofError e)
  | .ok none => .error (.text 404 "Webhook not found")
  | .ok (some webhook) =>
      if webhook.channel ≠ channelName then .error (.text 404 "Webhook not found in this channel")
      else .ok webhook

/-- The check passes exactly the webhooks of the channel. -/
theorem checkLoaded_eq_ok {channelName : String}
    {loaded : Except WebhookRepositoryError (Option Webhook)} {webhook : Webhook} :
    checkLoaded channelName loaded = .ok webhook ↔
      loaded = .ok (some webhook) ∧ webhook.channel = channelName := by
  rcases loaded with e | (- | w)
  · simp [checkLoaded]
  · simp [checkLoaded]
  · by_cases h : w.channel = channelName
    · simp only [checkLoaded, h, ne_eq, not_true_eq_false, if_false, Except.ok.injEq,
        Option.some.injEq]
      exact ⟨fun hw => ⟨hw, hw ▸ h⟩, fun hw => hw.1⟩
    · simp only [checkLoaded, h, ne_eq, not_false_eq_true, if_true, reduceCtorEq, Except.ok.injEq,
        Option.some.injEq, false_iff, not_and]
      rintro rfl
      exact h

def loadWebhookToRetry (channelName : String) (webhookId : ℤ) :
    AppAction (Except HttpResponse Webhook) := do
  let loaded ← state.db.getWebhook webhookId
  return checkLoaded channelName loaded

/-- The retry of a webhook that was loaded. -/
def retryLoaded (channelName : String) (webhookId : ℤ) (ch : WebhookChannelConfig)
    (fwd : WebhookForwardConfig) (webhook : Webhook) : AppAction HttpResponse :=
  let ctx : RetryContext :=
    { state := state
      channelName := channelName
      webhookId := webhookId
      webhook := webhook
      channelCfg := ch
      forwardCfg := fwd }
  orRespond ctx.buildRequest fun request => ctx.deliver request

/-- What a manual retry does for a caller it has let in. -/
def retryFor (channelName : String) (webhookId : ℤ) : AppAction HttpResponse :=
  orRespond (state.findForwardTarget channelName) fun target => do
    let loaded ← state.loadWebhookToRetry channelName webhookId
    orRespond loaded fun webhook =>
      state.retryLoaded channelName webhookId target.1 target.2 webhook

def retryWebhookRoute (channelName : String) (webhookId : ℤ) (headers : HeaderMap) :
    AppAction HttpResponse :=
  orRespond (state.authorize headers channelName) fun _ => state.retryFor channelName webhookId

end AppState
