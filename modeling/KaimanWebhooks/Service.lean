/-
# The service as a system of tasks

A running service is one forwarder per channel with a forward target, and a task for every
request the API gets.  All of them share the table and the forwarder statuses, and any
interleaving of their calls is possible.  A handler whose client goes away is a task that
is never advanced again.

A forwarder counts the queue once and then runs its cycles one after the other, so a cycle
starts only when the forwarder's tasks before it have returned.
-/
import KaimanWebhooks.Interleaving
import KaimanWebhooks.Routes

/-! ## Requests and jobs -/

/-- A request to one of the routes, with what the extractors read off it. -/
inductive Request : Type where
  | receive (clientIp : IpAddr) (channel : String) (headers : HeaderMap) (body : Bytes)
  | poll (channel : String) (headers : HeaderMap)
  | list (channel : String) (headers : HeaderMap)
  | delete (channel : String) (id : ℤ) (headers : HeaderMap)
  | queue (channel : String) (headers : HeaderMap)
  | pause (channel : String) (headers : HeaderMap)
  | resume (channel : String) (headers : HeaderMap)
  | clear (channel : String) (headers : HeaderMap)
  | retry (channel : String) (id : ℤ) (headers : HeaderMap)
  deriving DecidableEq

/-- What a task of the service does; `k` numbers the forwarders.  Resetting the attempts of
a webhook is an operation of the adapter no handler uses. -/
inductive Job : Type where
  | refresh (k : ℕ)
  | cycle (k : ℕ)
  | request (r : Request)
  | reset (id : ℤ)
  deriving DecidableEq

/-- The forwarder a job belongs to. -/
def Job.forwarder : Job → Option ℕ
  | .refresh k => some k
  | .cycle k => some k
  | _ => none

namespace AppState

variable (state : AppState)

/-- The handler of a request. -/
def handle : Request → AppAction HttpResponse
  | .receive clientIp channel headers body =>
      state.receiveWebhookRoute clientIp channel headers body
  | .poll channel headers => state.readWebhooksRoute channel headers
  | .list channel headers => state.listWebhooksRoute channel headers
  | .delete channel id headers => state.deleteWebhookRoute channel id headers
  | .queue channel headers => state.getQueueRoute channel headers
  | .pause channel headers => state.pauseQueueRoute channel headers
  | .resume channel headers => state.resumeQueueRoute channel headers
  | .clear channel headers => state.clearQueueRoute channel headers
  | .retry channel id headers => state.retryWebhookRoute channel id headers

/-- The forwarders started with the service, one per channel with a forward target. -/
def forwarders : List Forwarder :=
  state.config.channels.filterMap fun ch =>
    ch.forward.map fun fwd =>
      { channel := ch.name
        cfg := fwd
        backoff := fwd.resolveBackoff state.config.forwardBackoff
        webhookSecret := ch.webhookSecret
        db := state.db
        ignoredHeaders := state.config.ignoredHeaders }

/-- The statuses registered before the forwarders start. -/
def initialStatuses (channel : WebhookChannel) : Option ChannelForwardStatus :=
  if state.forwarders.any fun fw => fw.channel = channel then some .new else none

/-- The program of a job, with the response when there is one. -/
def start : Job → AppAction (Option HttpResponse)
  | .refresh k =>
      match state.forwarders[k]? with
      | none => .pure none
      | some fw => fw.refreshQueueSize.bind fun _ => .pure none
  | .cycle k =>
      match state.forwarders[k]? with
      | none => .pure none
      | some fw => fw.cycle.bind fun _ => .pure none
  | .request r => (state.handle r).bind fun response => .pure (some response)
  | .reset id => (state.db.resetForwardAttempts id).bind fun _ => .pure none

end AppState

/-- The tasks of a service and what they share. -/
abbrev ServiceState : Type :=
  TaskSystem (Call Query) (Call.Answer Query.Answer) (Option HttpResponse) Job World

abbrev ServiceTask : Type :=
  TaskState (Call Query) (Call.Answer Query.Answer) (Option HttpResponse) Job

/-- A call of a run with its answer. -/
abbrev ServiceEntry : Type := Entry (Call Query) (Call.Answer Query.Answer) Job World

abbrev ServiceEvent : Type := TaskEvent Job Input

/-- The statuses of the responses the tasks have answered with, in the order of the tasks. -/
def answeredStatuses (s : ServiceState) : List ℕ :=
  s.tasks.filterMap fun t =>
    match t.rest with
    | .pure (some resp) => some resp.status
    | _ => none

/-- A request may come at any time; a forwarder starts once, and does one thing after the
other. -/
def mayStart (s : ServiceState) : Job → Bool
  | .request _ => true
  | .reset _ => true
  | .refresh k => s.tasks.all fun t => t.job.forwarder ≠ some k
  | .cycle k =>
      (s.tasks.any fun t => t.job = .refresh k) &&
        s.tasks.all fun t => t.job.forwarder ≠ some k || TaskState.hasReturned t

/-- The service as a machine. -/
def AppState.machine (state : AppState) :
    TaskMachine (Call Query) (Call.Answer Query.Answer) (Option HttpResponse) Job Input World where
  perform := perform state.db.ext
  start := state.start
  mayStart := mayStart

/-- The service before its first task, on an empty database. -/
def AppState.initial (state : AppState) : ServiceState where
  shared := ⟨Table.empty, state.initialStatuses, []⟩
  tasks := []
  history := []

/-! ## A small service -/

/-- A service with the small configuration and the default retry policy. -/
def AppState.small : AppState := ⟨AppConfig.small, ⟨External.plain, LockRetryPolicy.default⟩⟩

/-- The receive of an empty object on the forwarded channel. -/
def Request.small : Request :=
  .receive (.v4 0) "orders" [("content-type", HeaderValue.ofText "application/json".toList)]
    [123, 125]

/-- The headers of a request with the token of the forwarded channel. -/
def HeaderMap.small : HeaderMap :=
  [("authorization", HeaderValue.ofText "Bearer orders-token".toList)]

/-- The events of a task that is started as number `n` and makes as many calls as there are
inputs. -/
def ServiceEvent.task (job : Job) (n : ℕ) (inputs : List Input) : List ServiceEvent :=
  .spawn job :: inputs.map (.advance n)
