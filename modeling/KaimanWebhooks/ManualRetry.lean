/-
# Manual retries and the wait of the forwarder

A manual retry ignores the delay of a webhook, and its failure is recorded the way the forwarder
records one: the new due time counts from the retry and takes no account of the old one.  A
retry that fails in another way than the attempt before it, or with another jitter, so brings
the webhook forward.  It never does exactly when every wait that its outcome leads to is the
whole ceiling, and the ceiling is a safe one.
-/
import KaimanWebhooks.RetryAfter
import KaimanWebhooks.Bookkeeping

/-- The answer does not count as delivery. -/
def WebhookForwardConfig.Fails (fwd : WebhookForwardConfig) (answer : PeerAnswer) : Prop :=
  ∀ resp, answer = .ok resp → resp.status ≠ fwd.expectedStatus

/-! ## Failed deliveries -/

section Recorded

variable {answer : PeerAnswer}

end Recorded

/-! ## The stored due time -/

section Stored

variable {α : Type} {db : Sqlite} {backoff : ForwardBackoff} {kind : FailureKind}
  {attemptsBefore : ℤ} {retryAfter : Option Duration} {id : ℤ} {message : String}
  {next : Except WebhookRepositoryError Unit → AppAction α}

end Stored

/-! ## Parked webhooks -/

/-- The input at a second and a nanosecond of the system clock, at which nothing fails. -/
def Input.at (unixSeconds : ℕ) (nanos : Fin 1000000000) : Input :=
  { Input.calm unixSeconds 200 with nanos := nanos }

section Parked

variable {state : AppState} {fw : Forwarder} {answer : PeerAnswer}

end Parked

/-! ## When every wait is the ceiling -/

section Ceiling

variable {backoff : ForwardBackoff} {factor jitter : ℚ}

end Ceiling

/-! ## When a manual retry never brings a webhook forward -/

namespace AppState

end AppState
