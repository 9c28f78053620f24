/-
# The forwarder of a channel

One pass peeks at the oldest due webhook of the channel, sends it to the target, and then
deletes it or records the failure.  A cycle is one turn of the forwarder's endless loop:
a pass, or nothing while the channel is paused, and the sleep after it.
-/
import KaimanWebhooks.Config
import KaimanWebhooks.Repository

/-- What a failed attempt left behind. -/
structure Failure where
  kind : FailureKind
  retryAfter : Option Duration
  message : String

/-- The result of one pass over a channel's queue. -/
inductive Progress : Type where
  | drained
  | idle
  deriving DecidableEq

/-- After this many consecutive failed attempts one error record is emitted. -/
def stuckAttemptsThreshold : ℤ := 10

/-- The attempt after `attemptsBefore` failures reaches the threshold. -/
def crossedStuckThreshold (attemptsBefore : ℤ) : Bool :=
  Prog.addI64 attemptsBefore 1 = stuckAttemptsThreshold

/-! ## Building the request -/

/-- Names that agree up to ASCII case. -/
def eqIgnoreAsciiCase (a b : String) : Bool := HeaderMap.lowerName a = HeaderMap.lowerName b

/-- A stored header is forwarded unless its name is ignored or is the signature header's. -/
def isForwarded (ignoredHeaders : List String) (signHeader : Option String) (key : String) : Bool :=
  !ignoredHeaders.contains key && !signHeader.any fun h => eqIgnoreAsciiCase h key

/-- The headers of a forward request before it is signed. -/
def forwardHeaders (ignoredHeaders : List String) (signHeader : Option String)
    (headers : StringMap) : List (String × String) :=
  ("content-type", "application/json") ::
    headers.entries.filter fun header => isForwarded ignoredHeaders signHeader header.1

/-! ## The answer of a target -/

/-- The body of a response as text. -/
def WireResponse.bodyText (resp : WireResponse) : String :=
  match resp.text with
  | .ok body => body
  | .error e => "<failed to read body: " ++ e ++ ">"

/-- The delay a target asks for. -/
def WireResponse.retryAfter (resp : WireResponse) : Option Duration :=
  (resp.headers.getStr "retry-after").bind parseRetryAfter

/-- The longest body that is recorded whole, in bytes. -/
def maxBody : ℕ := 512

/-- The body for the failure record.  The cut is made at a byte offset: `none` stands for
the panic when it falls inside a character. -/
def readBodyPreview (resp : WireResponse) : Option String :=
  let body := resp.bodyText
  let length := Text.byteLength body.toList
  if maxBody < length then
    (Text.sliceTo body.toList maxBody).map fun front =>
      String.ofList front ++ "…(" ++ toString length ++ " bytes total)"
  else some body

/-! ## The forwarder -/

structure Forwarder where
  channel : WebhookChannel
  cfg : WebhookForwardConfig
  backoff : ForwardBackoff
  webhookSecret : Option String
  db : Sqlite
  ignoredHeaders : List String

namespace Forwarder

variable (fw : Forwarder)

/-- The forward request, or `none` when it cannot be signed. -/
def buildRequest (webhook : Webhook) : Option HttpRequest :=
  let request : HttpRequest :=
    { method := .post
      url := fw.cfg.url
      timeout := fw.cfg.timeoutSeconds.toNat
      headers := forwardHeaders fw.ignoredHeaders fw.cfg.signHeader webhook.headers
      body := webhook.payload }
  match fw.cfg.signHeader with
  | none => some request
  | some signHeader =>
      match fw.cfg.signSecret.or fw.webhookSecret with
      | none => none
      | some signSecret =>
          let signature := fw.db.ext.hmacSha256Hex (utf8Bytes signSecret) webhook.payload
          match fw.cfg.signTemplate with
          | none => some { request with headers := request.headers ++ [(signHeader, signature)] }
          | some tmpl =>
              match fw.db.ext.renderSignTemplate tmpl signature with
              | .ok value =>
                  some { request with headers := request.headers ++ [(signHeader, value)] }
              | .error _ => none

/-- Keep the queue size the UI shows in step with the database. -/
def refreshQueueSize : AppAction Unit := do
  match ← fw.db.countByChannel fw.channel with
  | .ok count =>
      let _ ← Prog.updateStatus fw.channel (.queueSize count)
      return ()
  | .error _ => return ()

/-- Report a webhook that looks permanently stuck. -/
def reportStuck (id attemptsBefore : ℤ) (message : String) : AppAction Unit :=
  if crossedStuckThreshold attemptsBefore then
    Prog.logError ("[forwarder:" ++ fw.channel ++ "] webhook id=" ++ toString id ++
      " is still not delivered after " ++ toString stuckAttemptsThreshold ++ " attempts: " ++
      message)
  else .pure ()

/-- What follows once the failure was stored or could not be stored. -/
def afterRecorded (id attemptsBefore : ℤ) (message : String) : AppAction Unit := do
  fw.reportStuck id attemptsBefore message
  let failedAt ← Prog.nowUnix
  let _ ← Prog.updateStatus fw.channel (.failed failedAt message)
  return ()

/-- Store the failure, park the webhook for its delay, and report it once it looks stuck. -/
def recordFailure (id attemptsBefore : ℤ) (failure : Failure) : AppAction Unit := do
  let attempts := Prog.addI64 attemptsBefore 1
  let nanos ← Prog.subsecNanos
  let fm := fw.db.ext.float
  match nextDelay fm fw.backoff failure.kind attempts failure.retryAfter
      (clockJitterUnit fm nanos) with
  | none => .panic "cannot convert float seconds to Duration"
  | some delay =>
      let now ← Prog.nowUnix
      let nextAttemptAt := Prog.addI64 now (Prog.asI64 delay.asSecs)
      -- an error here is only logged: the next pass retries the webhook at once
      let _ ← fw.db.recordForwardFailure id failure.message nextAttemptAt
      fw.afterRecorded id attemptsBefore failure.message

/-- Remove a webhook the target has accepted. -/
def onDelivered (id : ℤ) : AppAction Progress := do
  let removed ← fw.db.deleteById id
  let deliveredAt ← Prog.nowUnix
  let _ ← Prog.updateStatus fw.channel (.delivered deliveredAt)
  match removed with
  -- delivered but still queued: back off instead of sending it again at once
  | .error _ => return .idle
  | .ok _ => return .drained

/-- What the pass does once the target answered or the request failed. -/
def onAnswer (id : ℤ) (webhook : Webhook) : PeerAnswer → AppAction Progress
  | .error cause => do
      fw.recordFailure id webhook.forwardAttempts ⟨.transient, none, "network error: " ++ cause⟩
      return .idle
  | .ok resp =>
      if resp.status = fw.cfg.expectedStatus then fw.onDelivered id
      else
        match readBodyPreview resp with
        | none => .panic "byte index 512 is not a char boundary"
        | some bodyPreview => do
            fw.recordFailure id webhook.forwardAttempts
              ⟨classifyStatus resp.status, resp.retryAfter,
                "HTTP " ++ toString resp.status ++ ": " ++ bodyPreview⟩
            return .idle

/-- Send the webhook and deal with the answer. -/
def deliver (id : ℤ) (webhook : Webhook) (request : HttpRequest) : AppAction Progress := do
  let answer ← Prog.send (some webhook) request
  fw.onAnswer id webhook answer

/-- What the pass does with the webhook it peeked at. -/
def onPeeked : Except WebhookRepositoryError (Option Webhook) → AppAction Progress
  | .error _ => return .idle
  | .ok none => do
      fw.refreshQueueSize
      return .idle
  | .ok (some webhook) =>
      match webhook.id with
      | none => return .idle
      | some id =>
          match fw.buildRequest webhook with
          | none => return .idle
          | some request => fw.deliver id webhook request

/-- The oldest webhook of the channel that is due now. -/
def peek : AppAction (Except WebhookRepositoryError (Option Webhook)) := do
  let now ← Prog.nowUnix
  fw.db.peekOldestDueByChannel fw.channel now

/-- One pass over the queue. -/
def forwardNext : AppAction Progress := do
  let peeked ← fw.peek
  fw.onPeeked peeked

def isPaused : AppAction Bool := do
  let status ← Prog.readStatus fw.channel
  return (status.map ChannelForwardStatus.paused).getD false

/-- One turn of the loop. -/
def cycle : AppAction Unit := do
  let interval := Duration.fromSecs fw.cfg.intervalSeconds.toNat
  if ← fw.isPaused then Prog.sleep interval
  else
    match ← fw.forwardNext with
    | .drained => return ()
    | .idle => Prog.sleep interval

end Forwarder
