/-
# What the service calls

Everything a task of the service does to the outside is one of nine calls: a statement
on the database, a reading of one of the clocks, a sleep, a request to a forward target,
a look at or a change of a channel's forwarder status, and an error record.  The calls
are generic in the statements, since the migration issues others than the adapter.

`World` and `perform` are the environment of the adapter's statements: the table, the
forwarder statuses and the requests seen on the wire.  An attempt of a statement either
commits or answers an error and leaves the table alone.
-/
import KaimanWebhooks.CallProgram
import KaimanWebhooks.Statements

/-! ## Errors of the database driver -/

/-- An error of the driver; `text` is how it is displayed. -/
inductive SqlxError : Type where
  | database (code : Option String) (text : String)
  | poolTimedOut
  | other (text : String)
  deriving DecidableEq

def SqlxError.text : SqlxError → String
  | .database _ text => text
  | .poolTimedOut => "pool timed out while waiting for an open connection"
  | .other text => text

/-! ## Calls -/

/-- A change of a channel's forwarder status. -/
inductive StatusUpdate : Type where
  | queueSize (count : ℤ)
  | delivered (now : ℤ)
  | failed (now : ℤ) (message : String)
  | paused (flag : Bool)
  | cleared
  deriving DecidableEq

def StatusUpdate.apply : StatusUpdate → ChannelForwardStatus → ChannelForwardStatus
  | .queueSize count, s => { s with queueSize := count }
  | .delivered now, s =>
      { s with lastSuccessAt := some now, queueSize := max (s.queueSize - 1) 0 }
  | .failed now message, s =>
      { s with lastErrorAt := some now, lastErrorMessage := some message }
  | .paused flag, s => { s with paused := flag }
  | .cleared, s => { s with queueSize := 0 }

/-- The calls, for statements `Q`. -/
inductive Call (Q : Type) : Type where
  | sql (q : Q)
  | instantNow
  | systemNow
  | subsecNanos
  | sleep (duration : Duration)
  | send (about : Option Webhook) (request : HttpRequest)
  | readStatus (channel : WebhookChannel)
  | updateStatus (channel : WebhookChannel) (update : StatusUpdate)
  | logError (record : String)
  deriving DecidableEq

namespace Call

variable {Q : Type}

/-- The answers: a statement may fail, the clocks give seconds, seconds since the epoch and
nanoseconds, and a change of a status tells whether the channel has one. -/
abbrev Answer (Ans : Q → Type) : Call Q → Type
  | .sql q => Except SqlxError (Ans q)
  | .instantNow => Duration
  | .systemNow => ℕ
  | .subsecNanos => Fin 1000000000
  | .sleep _ => Unit
  | .send _ _ => PeerAnswer
  | .readStatus _ => Option ChannelForwardStatus
  | .updateStatus _ _ => Bool
  | .logError _ => Unit

/-- The call reads a clock or waits. -/
def isTiming : Call Q → Bool
  | .instantNow => true
  | .systemNow => true
  | .subsecNanos => true
  | .sleep _ => true
  | _ => false

end Call

/-- A program over the statements `Q`. -/
abbrev Prog {Q : Type} (Ans : Q → Type) (α : Type) : Type :=
  CallProgram (Call Q) (Call.Answer Ans) α

namespace Prog

variable {Q : Type} {Ans : Q → Type}

abbrev sql (q : Q) : Prog Ans (Except SqlxError (Ans q)) := .call (.sql q) .pure
abbrev instantNow : Prog Ans Duration := .call .instantNow .pure
abbrev subsecNanos : Prog Ans (Fin 1000000000) := .call .subsecNanos .pure
abbrev sleep (duration : Duration) : Prog Ans Unit := .call (.sleep duration) .pure
abbrev send (about : Option Webhook) (request : HttpRequest) : Prog Ans PeerAnswer :=
  .call (.send about request) .pure
abbrev readStatus (channel : WebhookChannel) : Prog Ans (Option ChannelForwardStatus) :=
  .call (.readStatus channel) .pure
abbrev updateStatus (channel : WebhookChannel) (update : StatusUpdate) : Prog Ans Bool :=
  .call (.updateStatus channel update) .pure
abbrev logError (record : String) : Prog Ans Unit := .call (.logError record) .pure

/-- `as i64`: the low 64 bits as a signed integer. -/
def asI64 (n : ℤ) : ℤ := n.bmod (2 ^ 64)

/-- The wrapping addition of 64-bit integers. -/
def addI64 (a b : ℤ) : ℤ := asI64 (a + b)

theorem asI64_of_lt {n : ℤ} (h0 : -2 ^ 63 ≤ n) (h1 : n < 2 ^ 63) : asI64 n = n :=
  Int.bmod_eq_of_le (by omega) (by omega)

/-- The unix time. -/
abbrev nowUnix : Prog Ans ℤ := .call .systemNow fun secs => .pure (asI64 secs)

end Prog

/-! ## The environment -/

/-- The state the tasks of the service share; the exchanges are oldest first. -/
structure World where
  table : Table
  statuses : WebhookChannel → Option ChannelForwardStatus
  wire : List Exchange

/-- What the environment decides for one call: whether a statement fails and how it runs,
the clock readings, and how the peers answer the requests of a redirect chain. -/
structure Input where
  fault : Option SqlxError
  choice : ScanChoice
  instant : Duration
  unixSeconds : ℕ
  nanos : Fin 1000000000
  answers : ℕ → PeerAnswer

/-- Nothing fails, nothing is reordered, and the peers answer with the status given. -/
def Input.calm (unixSeconds status : ℕ) : Input where
  fault := none
  choice := ⟨Shuffle.unchanged, Shuffle.unchanged, id⟩
  instant := 0
  unixSeconds := unixSeconds
  nanos := 0
  answers := fun _ => .ok ⟨status, [], .ok ""⟩

/-- What `send` does: objections of the client come first, then the redirect chain. -/
def sendRequest (ext : External) (answers : ℕ → PeerAnswer) (request : HttpRequest) :
    PeerAnswer × List Exchange :=
  match ext.requestError request with
  | some e => (.error e, [])
  | none => follow ext.redirects maxRedirects answers request.onWire

/-- Perform a call. -/
def perform (ext : External) : (c : Call Query) → Input → World →
    Call.Answer Query.Answer c × World
  | .sql q, i, w =>
      match i.fault with
      | some e => (.error e, w)
      | none =>
          (.ok (q.execute i.choice w.table).1, { w with table := (q.execute i.choice w.table).2 })
  | .instantNow, i, w => (i.instant, w)
  | .systemNow, i, w => (i.unixSeconds, w)
  | .subsecNanos, i, w => (i.nanos, w)
  | .sleep _, _, w => ((), w)
  | .send _ request, i, w =>
      ((sendRequest ext i.answers request).1,
        { w with wire := w.wire ++ (sendRequest ext i.answers request).2 })
  | .readStatus channel, _, w => (w.statuses channel, w)
  | .updateStatus channel update, _, w =>
      ((w.statuses channel).isSome,
        { w with
          statuses := fun c =>
            if c = channel then (w.statuses channel).map update.apply else w.statuses c })
  | .logError _, _, w => ((), w)

section Perform

variable {ext : External} {i : Input} {w : World}

/-- Reading a clock or waiting changes nothing. -/
theorem perform_of_isTiming {c : Call Query} (h : c.isTiming = true) :
    (perform ext c i w).2 = w := by
  cases c <;> first | rfl | cases h

/-- A failed attempt changes nothing. -/
theorem perform_sql_error {q : Query} {e : SqlxError}
    (h : (perform ext (.sql q) i w).1 = .error e) : (perform ext (.sql q) i w).2 = w := by
  simp only [perform] at h ⊢
  cases hf : i.fault with
  | some e' => simp only
  | none => simp [hf] at h

/-- A successful attempt executes the statement once. -/
theorem perform_sql_ok {q : Query} {a : q.Answer} (h : (perform ext (.sql q) i w).1 = .ok a) :
    i.fault = none ∧ (q.execute i.choice w.table).1 = a ∧
      (perform ext (.sql q) i w).2 = { w with table := (q.execute i.choice w.table).2 } := by
  simp only [perform] at h ⊢
  cases hf : i.fault with
  | some e => simp [hf] at h
  | none =>
      simp only [hf, Except.ok.injEq] at h
      exact ⟨rfl, h, rfl⟩

/-- Only statements touch the table. -/
theorem perform_table_of_not_sql {c : Call Query} (h : ∀ q, c ≠ .sql q) :
    (perform ext c i w).2.table = w.table := by
  cases c with
  | sql q => exact absurd rfl (h q)
  | _ => rfl

end Perform
