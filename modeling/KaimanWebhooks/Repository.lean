/-
# The storage adapter and the webhook service

Every operation of the adapter is one statement under the lock-retry loop: its answer is
read back into the domain model, its error becomes a `WebhookRepositoryError`.  The
service adds the time of receipt and the batch limit.
-/
import KaimanWebhooks.LockRetry

/-- A program over the statements of the adapter. -/
abbrev AppAction (α : Type) : Type := Prog Query.Answer α

/-- An answered call of the service. -/
abbrev DoneCall : Type := CallProgram.Done (Call Query) (Call.Answer Query.Answer)

/-- Separates "the database was too busy, ask again" from a genuine failure. -/
def toRepositoryError (error : SqlxError) : WebhookRepositoryError :=
  if error.isLockContention then .busy error.text else .other error.text

/-- The adapter, with the libraries it uses. -/
structure Sqlite where
  ext : External
  retry : LockRetryPolicy

namespace Sqlite

variable (db : Sqlite)

/-- Repeat a statement while the database is locked. -/
def withLockRetry (q : Query) : AppAction (Except SqlxError q.Answer) :=
  retryOnLocked db.ext.float db.retry (Prog.sql q)

/-- One statement under the lock-retry loop, its answer read by `read`. -/
def statement {β : Type} (q : Query) (read : q.Answer → β) :
    AppAction (Except WebhookRepositoryError β) :=
  (db.withLockRetry q).bind fun result => .pure ((result.mapError toRepositoryError).map read)

/-! ## Operations -/

/-- The headers of a webhook as they are stored. -/
def headersJson (headers : StringMap) : String :=
  match db.ext.encodeHeaders headers with
  | .ok json => json
  | .error _ => "\x7b\x7d"

def insert (webhook : Webhook) : AppAction (Except WebhookRepositoryError Unit) :=
  db.statement
    (.insert webhook.channel (db.headersJson webhook.headers) webhook.payload webhook.receivedAt)
    fun _ => ()

/-- Read and delete the webhooks of a channel, up to a limit, oldest first.  A row that was
deleted but cannot be read is lost. -/
def readAndDeleteByChannel (channel : WebhookChannel) (limit : ℤ) :
    AppAction (Except WebhookRepositoryError (List Webhook)) :=
  db.statement (.readAndDeleteByChannel channel limit) fun rows =>
    rows.filterMap (parseWebhookRow db.ext)

/-- The oldest webhook that is due. -/
def peekOldestDueByChannel (channel : WebhookChannel) (now : ℤ) :
    AppAction (Except WebhookRepositoryError (Option Webhook)) :=
  db.statement (.peekOldestDueByChannel channel now) fun row => row.bind (parseWebhookRow db.ext)

def listByChannel (channel : WebhookChannel) :
    AppAction (Except WebhookRepositoryError (List Webhook)) :=
  db.statement (.listByChannel channel) fun rows => rows.filterMap (parseWebhookRow db.ext)

def deleteById (id : ℤ) : AppAction (Except WebhookRepositoryError Unit) :=
  db.statement (.deleteById id) fun _ => ()

/-- Record a failed delivery and park the webhook until `nextAttemptAt`. -/
def recordForwardFailure (id : ℤ) (errorMessage : String) (nextAttemptAt : ℤ) :
    AppAction (Except WebhookRepositoryError Unit) :=
  Prog.nowUnix.bind fun now =>
    db.statement (.recordForwardFailure now errorMessage nextAttemptAt id) fun _ => ()

def countByChannel (channel : WebhookChannel) : AppAction (Except WebhookRepositoryError ℤ) :=
  db.statement (.countByChannel channel) id

def listQueueByChannel (channel : WebhookChannel) :
    AppAction (Except WebhookRepositoryError (List Webhook)) :=
  db.statement (.listQueueByChannel channel) fun rows => rows.filterMap (parseWebhookRow db.ext)

def clearByChannel (channel : WebhookChannel) : AppAction (Except WebhookRepositoryError ℤ) :=
  db.statement (.clearByChannel channel) fun affected => Prog.asI64 affected

def getById (id : ℤ) : AppAction (Except WebhookRepositoryError (Option Webhook)) :=
  db.statement (.getById id) fun row => row.bind (parseWebhookRow db.ext)

def resetForwardAttempts (id : ℤ) : AppAction (Except WebhookRepositoryError Unit) :=
  db.statement (.resetForwardAttempts id) fun _ => ()

/-! ## The service -/

/-- The size of a polled batch. -/
def readLimit : ℤ := 1000

/-- Store a webhook received now. -/
def receiveWebhook (channel : WebhookChannel) (headers : StringMap) (payload : Bytes) :
    AppAction (Except WebhookRepositoryError Unit) :=
  Prog.nowUnix.bind fun currentTime => db.insert (Webhook.new channel headers payload currentTime)

def readAndDeleteWebhooks (channel : WebhookChannel) :
    AppAction (Except WebhookRepositoryError (List Webhook)) :=
  db.readAndDeleteByChannel channel readLimit

def listWebhooks (channel : WebhookChannel) :
    AppAction (Except WebhookRepositoryError (List Webhook)) :=
  db.listByChannel channel

/-- The channel is only named in the log: the webhook is deleted by its id alone. -/
def deleteWebhook (_channel : WebhookChannel) (webhookId : ℤ) :
    AppAction (Except WebhookRepositoryError Unit) :=
  db.deleteById webhookId

def listQueue (channel : WebhookChannel) :
    AppAction (Except WebhookRepositoryError (List Webhook)) :=
  db.listQueueByChannel channel

def clearQueue (channel : WebhookChannel) : AppAction (Except WebhookRepositoryError ℤ) :=
  db.clearByChannel channel

def getWebhook (id : ℤ) : AppAction (Except WebhookRepositoryError (Option Webhook)) :=
  db.getById id

/-! ## What one operation does -/

section Rules

variable {db}

/-- **The calls of an operation**: failed attempts of its statement, clock readings and
pauses.  A value comes from an attempt that succeeds and is the last call; an error is
the error of the last attempt. -/
theorem obeys_statement {β : Type} {q : Query} {read : q.Answer → β}
    {A : (c : Call Query) → Call.Answer Query.Answer c → Prop}
    {P : List DoneCall → Call Query → Prop}
    {post : List DoneCall → Except WebhookRepositoryError β → Prop} {past : List DoneCall}
    (htiming : ∀ past c, c.isTiming = true → P past c)
    (hsql : ∀ new, OnlyFailed q new → P (new ++ past) (.sql q))
    (hok : ∀ new a, A (.sql q) (.ok a) → OnlyFailed q new →
      post (⟨.sql q, .ok a⟩ :: (new ++ past)) (.ok (read a)))
    (herr : ∀ after e new, (∀ d ∈ after, d.1.isTiming = true) → OnlyFailed q new →
      post (after ++ ⟨.sql q, .error e⟩ :: (new ++ past)) (.error (toRepositoryError e))) :
    (db.statement q read).Obeys A P post past := by
  rw [statement, CallProgram.obeys_bind]
  exact obeys_retryOnLocked_sql htiming hsql hok fun after e new hafter _ hnew =>
    herr after e new hafter hnew

/-- **The rule for an operation in front of a program**: failed attempts, clock readings and
pauses come first, and the statement itself last when it succeeds. -/
theorem obeys_bind_statement {α β : Type} {q : Query} {read : q.Answer → β}
    {f : Except WebhookRepositoryError β → AppAction α}
    {A : (c : Call Query) → Call.Answer Query.Answer c → Prop}
    {P : List DoneCall → Call Query → Prop} {post : List DoneCall → α → Prop}
    {past : List DoneCall} (htiming : ∀ past c, c.isTiming = true → P past c)
    (hsql : ∀ new, OnlyFailed q new → P (new ++ past) (.sql q))
    (hok : ∀ new a, A (.sql q) (.ok a) → OnlyFailed q new →
      (f (.ok (read a))).Obeys A P post (⟨.sql q, .ok a⟩ :: (new ++ past)))
    (herr : ∀ new e, OnlyFailed q new → (∃ e', (⟨.sql q, .error e'⟩ : DoneCall) ∈ new) →
      (f (.error e)).Obeys A P post (new ++ past)) :
    ((db.statement q read).bind f).Obeys A P post past := by
  rw [CallProgram.obeys_bind]
  refine obeys_statement htiming hsql hok ?_
  intro after e new hafter hnew
  have hall : OnlyFailed q (after ++ ⟨.sql q, .error e⟩ :: new) := by
    intro d hd
    rcases List.mem_append.mp hd with hd | hd
    · exact Or.inl (hafter d hd)
    · rcases List.mem_cons.mp hd with rfl | hd
      · exact Or.inr ⟨e, rfl⟩
      · exact hnew d hd
  have hlast := herr _ (toRepositoryError e) hall ⟨e, by simp⟩
  simpa using hlast

/-- **An operation commits exactly once or not at all**: when it returns a value its
statement was executed once, and when it returns an error the world is as before. -/
theorem ensures_statement {β : Type} {q : Query} {read : q.Answer → β} {w : World}
    {post : CallProgram.Outcome (Except WebhookRepositoryError β) → World → Prop}
    (hok : ∀ choice, post (.done (.ok (read (q.execute choice w.table).1)))
      { w with table := (q.execute choice w.table).2 })
    (herr : ∀ e, post (.done (.error (toRepositoryError e))) w)
    (hpanic : ∀ m number nanos, db.retry.backoffAfter db.ext.float number nanos = none →
      post (.panicked m) w) :
    (db.statement q read).Ensures (perform db.ext) post w := by
  rw [statement, CallProgram.ensures_bind]
  refine ensures_retryOnLocked (fun c i s hc => perform_of_isTiming hc) ?_ (hpanic _)
  intro i
  cases hanswer : (perform db.ext (.sql q) i w).1 with
  | error e =>
      rw [perform_sql_error hanswer]
      exact ⟨herr e, fun _ _ => rfl⟩
  | ok a =>
      obtain ⟨-, rfl, hstate⟩ := perform_sql_ok hanswer
      rw [hstate]
      exact ⟨hok i.choice, fun e he => by cases he⟩

end Rules

end Sqlite
