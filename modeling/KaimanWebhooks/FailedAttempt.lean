/-
# What a recorded failure goes back to

A failure is recorded by the task that loaded the webhook, sent it and was not answered as
expected: the calls of that task show the row it loaded, the answer, the clock readings and the
delay that the stored times come from.  A forwarder reports a webhook as stuck only after that.
-/
import KaimanWebhooks.Ledger
import KaimanWebhooks.FailureRecord
import KaimanWebhooks.Signing

/-- How a failed attempt is classified, and the delay the target asks for. -/
def failureOf : PeerAnswer → FailureKind × Option Duration
  | .error _ => (.transient, none)
  | .ok resp => (classifyStatus resp.status, resp.retryAfter)

/-- A failed attempt, as the calls of its task show it: the row that was loaded with the webhook
read from it, the target, the request and its answer, the jitter input, the clock readings the
due time counts from and the failure is stored at, the delay, and the calls before the send. -/
structure FailedAttempt where
  row : Row
  webhook : Webhook
  fwd : WebhookForwardConfig
  request : HttpRequest
  answer : PeerAnswer
  nanos : Fin 1000000000
  dueFrom : ℕ
  storedAt : ℕ
  delay : Duration
  before : List DoneCall

namespace FailedAttempt

variable (a : FailedAttempt)

/-- The calls up to the point where the failure is stored, newest first. -/
def calls : List DoneCall :=
  ⟨.systemNow, a.storedAt⟩ :: ⟨.systemNow, a.dueFrom⟩ :: ⟨.subsecNanos, a.nanos⟩ ::
    ⟨.send (some a.webhook) a.request, a.answer⟩ :: a.before

/-- The time of the attempt that is stored. -/
def now : ℤ := Prog.asI64 a.storedAt

/-- The due time that is stored. -/
def next : ℤ := Prog.addI64 (Prog.asI64 a.dueFrom) (Prog.asI64 a.delay.asSecs)

/-- The statement that stores the failure. -/
def query (message : String) : Query :=
  .recordForwardFailure a.now message a.next a.row.id

/-- The attempt belongs to a job of the service. -/
structure Of (state : AppState) (job : Job) : Prop where
  target : state.target job = some a.fwd
  failed : ∀ resp, a.answer = .ok resp → resp.status ≠ a.fwd.expectedStatus
  loaded : ∃ d ∈ a.before, loadedRow d = some a.row
  parse : parseWebhookRow state.db.ext a.row = some a.webhook
  channel : ∃ ch ∈ state.config.channels, ch.forward = some a.fwd ∧ a.row.channel = .text ch.name
  delay : nextDelay state.db.ext.float (a.fwd.resolveBackoff state.config.forwardBackoff)
    (failureOf a.answer).1 (Prog.addI64 a.webhook.forwardAttempts 1) (failureOf a.answer).2
    (clockJitterUnit state.db.ext.float a.nanos) = some a.delay

variable {a} in
theorem sent_mem {past waiting : List DoneCall} (h : past = waiting ++ a.calls) :
    (⟨.send (some a.webhook) a.request, a.answer⟩ : DoneCall) ∈ past := by
  rw [h]
  simp [calls]

variable {a} in
/-- The send and what came before it end the calls of the task. -/
theorem sent_suffix {past waiting : List DoneCall} (h : past = waiting ++ a.calls) :
    ((⟨.send (some a.webhook) a.request, a.answer⟩ : DoneCall) :: a.before) <:+ past := by
  rw [h, calls]
  exact ⟨waiting ++ [⟨.systemNow, a.storedAt⟩, ⟨.systemNow, a.dueFrom⟩, ⟨.subsecNanos, a.nanos⟩],
    by simp⟩

variable {a} in
theorem before_suffix {past waiting : List DoneCall} (h : past = waiting ++ a.calls) :
    a.before <:+ past :=
  (List.suffix_cons _ _).trans (sent_suffix h)

end FailedAttempt

/-- The answer of a failed attempt does not count as delivery. -/
theorem FailedAttempt.Of.not_accepted {a : FailedAttempt} {state : AppState} {job : Job}
    (hof : a.Of state job) {id : ℤ} :
    ¬state.accepted job id ⟨.send (some a.webhook) a.request, a.answer⟩ := by
  intro haccepted
  obtain ⟨webhook, request, resp, fwd, hdone, -, htarget, hstatus⟩ :=
    AppState.exists_send_of_accepted haccepted
  obtain rfl : fwd = a.fwd := Option.some.inj (htarget.symm.trans hof.target)
  have hanswer : a.answer = .ok resp := by
    cases a with
    | mk row webhook' fwd request' answer =>
        cases hdone
        rfl
  exact hof.failed resp hanswer hstatus

/-- The record that reports a stuck webhook. -/
def Forwarder.stuckRecord (fw : Forwarder) (id : ℤ) (message : String) : String :=
  "[forwarder:" ++ fw.channel ++ "] webhook id=" ++ toString id ++
    " is still not delivered after " ++ toString stuckAttemptsThreshold ++ " attempts: " ++ message

namespace AppState

variable (state : AppState)

/-- The jobs that send webhooks. -/
def isDelivery : Job → Bool
  | .cycle _ => true
  | .request (.retry _ _ _) => true
  | _ => false

/-- What the calls before a recorded failure and before a report have to be. -/
def RecordsAttempt (job : Job) (past : List DoneCall) : Call Query → Prop
  | .sql (.recordForwardFailure now message next id) =>
      ∃ a : FailedAttempt, a.Of state job ∧ .recordForwardFailure now message next id =
          a.query message ∧
        ∃ waiting, OnlyFailed (a.query message) waiting ∧ past = waiting ++ a.calls
  | .logError record =>
      ∃ k fw, job = .cycle k ∧ state.forwarders[k]? = some fw ∧
        ∃ a : FailedAttempt, a.Of state job ∧
          crossedStuckThreshold a.webhook.forwardAttempts = true ∧
          ∃ message, record = fw.stuckRecord a.row.id message ∧
            ∃ waiting, OnlyAttempts (a.query message) waiting ∧ past = waiting ++ a.calls
  | _ => True

/-! ## Deliveries -/

section Deliveries

variable {state : AppState} {past : List DoneCall} {row : Row} {webhook : Webhook}
  {request : HttpRequest}

theorem recordsAttempt_of_isTiming {job : Job} {c : Call Query}
    (h : c.isTiming = true) : state.RecordsAttempt job past c := by
  cases c <;> trivial

theorem recordsAttempt_of_isHousekeeping {job : Job} {c : Call Query}
    (h : c.isHousekeeping = true) : state.RecordsAttempt job past c := by
  cases c with
  | sql q => cases q <;> trivial
  | _ => trivial

/-- The row of the webhook was loaded, and belongs to a channel with the target. -/
structure LoadedFrom (state : AppState) (past : List DoneCall) (row : Row) (webhook : Webhook)
    (fwd : WebhookForwardConfig) : Prop where
  loaded : ∃ d ∈ past, loadedRow d = some row
  parse : parseWebhookRow state.db.ext row = some webhook
  channel : ∃ ch ∈ state.config.channels, ch.forward = some fwd ∧ row.channel = .text ch.name

/-- A loaded webhook that was not delivered, and the delay computed for it, are a failed attempt. -/
theorem LoadedFrom.failedAttempt_of {fwd : WebhookForwardConfig}
    (hloaded : LoadedFrom state past row webhook fwd) {job : Job}
    (htarget : state.target job = some fwd) {answer : PeerAnswer}
    (hanswer : ∀ resp, answer = .ok resp → resp.status ≠ fwd.expectedStatus)
    {kind : FailureKind} {retryAfter : Option Duration}
    (hkind : failureOf answer = (kind, retryAfter)) {nanos : Fin 1000000000}
    {dueFrom storedAt : ℕ} {delay : Duration}
    (hdelay : nextDelay state.db.ext.float (fwd.resolveBackoff state.config.forwardBackoff) kind
      (Prog.addI64 webhook.forwardAttempts 1) retryAfter
      (clockJitterUnit state.db.ext.float nanos) = some delay) :
    (FailedAttempt.mk row webhook fwd request answer nanos dueFrom storedAt delay past).Of state
      job := by
  refine ⟨htarget, hanswer, hloaded.loaded, hloaded.parse, hloaded.channel, ?_⟩
  show nextDelay _ _ (failureOf answer).1 _ (failureOf answer).2 _ = _
  rw [hkind]
  exact hdelay

/-- A pass of a forwarder records what it sent. -/
theorem recordsAttempt_forwarder_deliver {k : ℕ} {fw : Forwarder}
    (hfw : state.forwarders[k]? = some fw) (hloaded : LoadedFrom state past row webhook fw.cfg) :
    (fw.deliver row.id webhook request).Obeys state.machine.Answers
      (state.RecordsAttempt (.cycle k)) (fun _ _ => True) past := by
  refine ⟨trivial, fun answer _ => ?_⟩
  have htarget : state.target (.cycle k) = some fw.cfg := by simp [target, hfw]
  have hbackoff : fw.db = state.db ∧
      fw.backoff = fw.cfg.resolveBackoff state.config.forwardBackoff := by
    obtain ⟨ch, -, fwd, -, rfl⟩ := exists_channel_of_mem_forwarders (List.mem_of_getElem? hfw)
    exact ⟨rfl, rfl⟩
  have hfailure : ∀ failure : Failure, failureOf answer = (failure.kind, failure.retryAfter) →
      (∀ resp, answer = .ok resp → resp.status ≠ fw.cfg.expectedStatus) →
      ((fw.recordFailure row.id webhook.forwardAttempts failure).bind fun _ =>
          CallProgram.pure Progress.idle).Obeys state.machine.Answers
        (state.RecordsAttempt (.cycle k)) (fun _ _ => True)
        (⟨.send (some webhook) request, answer⟩ :: past) := by
    intro failure hkind hanswer
    rw [Forwarder.recordFailure_eq, recordFailureThen_bind]
    refine obeys_recordFailureThen (fun _ _ => recordsAttempt_of_isTiming) ?_
    intro nanos secs secs' delay hdelay
    rw [hbackoff.1, hbackoff.2] at hdelay
    let a : FailedAttempt :=
      ⟨row, webhook, fw.cfg, request, answer, nanos, secs, secs', delay, past⟩
    have hof : a.Of state (.cycle k) := hloaded.failedAttempt_of htarget hanswer hkind hdelay
    refine ⟨fun waiting hwaiting => ⟨a, hof, rfl, waiting, hwaiting, rfl⟩, ?_⟩
    intro result waiting hwaiting
    simp only [Forwarder.afterRecorded, Forwarder.reportStuck, CallProgram.bind_eq,
      CallProgram.pure_eq, CallProgram.bind_call, CallProgram.bind_pure_left]
    split
    · rename_i hcrossed
      refine ⟨⟨k, fw, rfl, hfw, a, hof, hcrossed, _, rfl, waiting, hwaiting, rfl⟩, fun _ _ => ?_⟩
      exact ⟨trivial, fun _ _ => ⟨trivial, fun _ _ => trivial⟩⟩
    · exact ⟨trivial, fun _ _ => ⟨trivial, fun _ _ => trivial⟩⟩
  cases answer with
  | error cause => exact hfailure _ rfl (by simp)
  | ok resp =>
      show (Forwarder.onAnswer fw row.id webhook (.ok resp)).Obeys _ _ _ _
      rw [Forwarder.onAnswer]
      split
      · rw [Forwarder.onDelivered]
        refine Sqlite.obeys_bind_statement (fun _ _ => recordsAttempt_of_isTiming)
          (fun _ _ => trivial) ?_ ?_
        · exact fun _ _ _ _ => ⟨trivial, fun _ _ => ⟨trivial, fun _ _ => trivial⟩⟩
        · exact fun _ _ _ _ => ⟨trivial, fun _ _ => ⟨trivial, fun _ _ => trivial⟩⟩
      · rename_i hstatus
        cases readBodyPreview resp with
        | none => trivial
        | some bodyPreview => exact hfailure _ rfl (by simpa using hstatus)

/-- A manual retry records what it sent. -/
theorem recordsAttempt_retry_deliver {job : Job} {ctx : RetryContext} (hstate : ctx.state = state)
    (htarget : state.target job = some ctx.forwardCfg)
    (hloaded : LoadedFrom state past row ctx.webhook ctx.forwardCfg)
    (hid : ctx.webhookId = row.id) :
    (ctx.deliver request).Obeys state.machine.Answers (state.RecordsAttempt job)
      (fun _ _ => True) past := by
  refine ⟨trivial, fun answer _ => ?_⟩
  have hfailure : ∀ kind retryAfter message (response : HttpResponse),
      failureOf answer = (kind, retryAfter) →
      (∀ resp, answer = .ok resp → resp.status ≠ ctx.forwardCfg.expectedStatus) →
      ((ctx.recordFailure kind retryAfter message).bind fun _ =>
          CallProgram.pure response).Obeys state.machine.Answers (state.RecordsAttempt job)
        (fun _ _ => True) (⟨.send (some ctx.webhook) request, answer⟩ :: past) := by
    intro kind retryAfter message response hkind hanswer
    rw [RetryContext.recordFailure_eq, recordFailureThen_bind, hid, hstate]
    refine obeys_recordFailureThen (fun _ _ => recordsAttempt_of_isTiming) ?_
    intro nanos secs secs' delay hdelay
    let a : FailedAttempt :=
      ⟨row, ctx.webhook, ctx.forwardCfg, request, answer, nanos, secs, secs', delay, past⟩
    have hof : a.Of state job := hloaded.failedAttempt_of htarget hanswer hkind hdelay
    refine ⟨fun waiting hwaiting => ⟨a, hof, rfl, waiting, hwaiting, rfl⟩, ?_⟩
    exact fun _ _ _ => ⟨trivial, fun _ _ => ⟨trivial, fun _ _ => trivial⟩⟩
  cases answer with
  | error cause => exact hfailure _ _ _ _ rfl (by simp)
  | ok resp =>
      show (RetryContext.onResponse ctx resp).Obeys _ _ _ _
      rw [RetryContext.onResponse]
      split
      · rename_i hstatus
        exact hfailure _ _ _ _ rfl (by simpa using hstatus)
      · simp only [RetryContext.forgetDelivered, Sqlite.deleteWebhook, CallProgram.bind_eq,
          CallProgram.pure_eq, CallProgram.bind_assoc]
        refine Sqlite.obeys_bind_statement (fun _ _ => recordsAttempt_of_isTiming)
          (fun _ _ => trivial) ?_ ?_
        · exact fun _ _ _ _ => ⟨trivial, fun _ _ => ⟨trivial, fun _ _ => trivial⟩⟩
        · exact fun _ _ _ _ => ⟨trivial, fun _ _ => ⟨trivial, fun _ _ => trivial⟩⟩

end Deliveries

/-! ## Every job -/

section Jobs

variable {state : AppState}

/-- A peeked row is a due row of the channel. -/
theorem channel_of_answers_peek {channel : WebhookChannel} {now : ℤ} {row : Row}
    (h : state.machine.Answers (.sql (.peekOldestDueByChannel channel now)) (.ok (some row))) :
    row.channel = .text channel := by
  obtain ⟨i, w, hanswer⟩ := h
  have hanswer' : (perform state.db.ext (.sql (.peekOldestDueByChannel channel now)) i w).1 =
      .ok (some row) := hanswer
  obtain ⟨-, hexec, -⟩ := perform_sql_ok hanswer'
  have hmem := (mem_orderBy _ _).mp (List.mem_of_mem_head? hexec)
  have hdue := List.of_mem_filter hmem
  rw [Bool.and_eq_true] at hdue
  simpa [Row.inChannel] using hdue.1

theorem recordsAttempt_cycle (k : ℕ) :
    (state.start (.cycle k)).Obeys state.machine.Answers (state.RecordsAttempt (.cycle k))
      (fun _ _ => True) [] := by
  simp only [start]
  cases hfw : state.forwarders[k]? with
  | none => trivial
  | some fw =>
      obtain ⟨ch, hch, fwd, hfwd, rfl⟩ :=
        exists_channel_of_mem_forwarders (List.mem_of_getElem? hfw)
      dsimp only
      rw [CallProgram.obeys_bind]
      refine obeys_cycle_of_deliver (fun _ _ => recordsAttempt_of_isHousekeeping)
        (fun _ _ _ _ => trivial) (fun _ _ => trivial) ?_ (fun _ _ _ _ => trivial)
      intro past now row webhook request _ hanswer hloaded hparse _
      exact recordsAttempt_forwarder_deliver hfw
        ⟨⟨_, hloaded, rfl⟩, hparse, ch, hch, hfwd, channel_of_answers_peek hanswer⟩

theorem recordsAttempt_retry (channel : String) (id : ℤ) (headers : HeaderMap) :
    (state.start (.request (.retry channel id headers))).Obeys state.machine.Answers
      (state.RecordsAttempt (.request (.retry channel id headers))) (fun _ _ => True) [] := by
  simp only [start, handle]
  rw [CallProgram.obeys_bind]
  refine obeys_orRespond (fun _ _ => trivial) fun _ _ => ?_
  refine obeys_orRespond (fun _ _ => trivial) fun target htarget => ?_
  obtain ⟨hmem, hname, hforward⟩ := channel_of_findForwardTarget htarget
  have htarget' : state.target (.request (.retry channel id headers)) = some target.2 := by
    simp [AppState.target, htarget, Except.toOption]
  simp only [loadWebhookToRetry, Sqlite.getWebhook, CallProgram.bind_eq, CallProgram.bind_assoc,
    CallProgram.pure_eq, CallProgram.bind_pure_left]
  refine Sqlite.obeys_bind_statement (fun _ _ => recordsAttempt_of_isTiming)
    (fun _ _ => trivial) ?_ ?_
  · intro new row hanswer _
    refine obeys_orRespond (fun _ _ => trivial) fun webhook hloaded => ?_
    obtain ⟨hread, hchannel⟩ := (checkLoaded_eq_ok).mp hloaded
    obtain ⟨r, rfl, hr⟩ := Option.bind_eq_some_iff.mp (Except.ok.inj hread)
    refine obeys_orRespond (fun _ _ => trivial) fun request _ => ?_
    refine recordsAttempt_retry_deliver rfl htarget'
      ⟨⟨_, List.mem_cons_self, rfl⟩, hr, target.1, hmem, hforward, ?_⟩
      (id_of_answers_getById hanswer).symm
    rw [hname, ← hchannel]
    exact (parseWebhookRow_eq_some hr).2.1
  · intro new e _ _
    refine obeys_orRespond (fun _ _ => trivial) fun webhook hloaded => ?_
    simp [checkLoaded] at hloaded

/-- **What a delivery records goes back to a failed attempt**, whatever its calls are answered. -/
theorem start_recordsAttempt (job : Job) :
    (state.start job).Obeys state.machine.Answers
      (fun past c => isDelivery job = true → state.RecordsAttempt job past c)
      (fun _ _ => True) [] := by
  cases job with
  | cycle k => exact (recordsAttempt_cycle k).weaken (fun _ _ _ hP _ => hP) fun _ _ _ hQ => hQ
  | refresh k => exact CallProgram.obeys_of_not Bool.false_ne_true (fun _ _ => trivial) _
  | reset id => exact CallProgram.obeys_of_not Bool.false_ne_true (fun _ _ => trivial) _
  | request r =>
      cases r with
      | retry channel id headers =>
          exact (recordsAttempt_retry channel id headers).weaken (fun _ _ _ hP _ => hP)
            fun _ _ _ hQ => hQ
      | _ => exact CallProgram.obeys_of_not Bool.false_ne_true (fun _ _ => trivial) _

end Jobs

/-! ## Runs -/

section Runs

variable {state : AppState} {ok : ServiceState → ServiceEvent → Prop} {s : ServiceState}
  (h : state.machine.Reaches ok state.initial s)

include h

/-- Only deliveries load rows. -/
theorem isDelivery_of_loadedRow {e : ServiceEntry} (he : e ∈ s.history) {row : Row}
    (hrow : loadedRow e.done = some row) : isDelivery e.job = true := by
  obtain ⟨past, hprotocol, -⟩ := protocol_of_mem_history h he
  unfold loadedRow at hrow
  split at hrow
  · rename_i heq
    have hcall := congrArg Sigma.fst heq
    rw [show e.call = _ from hcall] at hprotocol
    obtain ⟨⟨k, fw, hjob, -⟩, -⟩ := hprotocol
    rw [hjob]
    rfl
  · rename_i heq
    have hcall := congrArg Sigma.fst heq
    rw [show e.call = _ from hcall] at hprotocol
    obtain ⟨⟨channel, headers, hjob⟩, -⟩ := hprotocol
    rw [hjob]
    rfl
  · cases hrow

/-- Only deliveries send webhooks. -/
theorem isDelivery_of_attempted {e : ServiceEntry} (he : e ∈ s.history) {id : ℤ}
    (hattempted : attempted id e.done) : isDelivery e.job = true := by
  obtain ⟨webhook, request, answer, hdone, -⟩ := exists_send_of_attempted hattempted
  obtain ⟨past, hprotocol, hpast⟩ := protocol_of_mem_history h he
  have hcall : e.call = .send (some webhook) request := congrArg Sigma.fst hdone
  rw [hcall] at hprotocol
  obtain ⟨-, -, -, -, d, hd, row, hrow, -⟩ := hprotocol
  obtain ⟨e', he', -, hjob, rfl⟩ := hpast d hd
  rw [← hjob]
  exact isDelivery_of_loadedRow h he' hrow

/-- A task that has sent a webhook is a delivery. -/
theorem isDelivery_of_sent {n : ℕ} {t : ServiceTask} (ht : s.tasks[n]? = some t) {d : DoneCall}
    (hd : d ∈ t.past) {id : ℤ} (hattempted : attempted id d) : isDelivery t.job = true := by
  obtain ⟨e, he, -, hjob, rfl⟩ := h.pastsRecorded rfl n t d ht hd
  rw [← hjob]
  exact isDelivery_of_attempted h he hattempted

end Runs

end AppState
