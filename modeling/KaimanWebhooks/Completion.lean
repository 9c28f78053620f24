/-
# Every request is answered

A task of the service makes a bounded number of calls, whatever the database, the targets and the
other tasks do: a statement that stays locked is given up, and nothing else repeats.  After them
the task has returned, or it has panicked, and that only in two ways: a forwarder cannot cut the
body of an unexpected answer, or the jitter of a delay leads past the largest duration.  The first
never happens to a request, and the second to none when the ceilings of the schedules are safe, so
every request is answered.
-/
import KaimanWebhooks.FailedAttempt
import KaimanWebhooks.ForwardSafety
import KaimanWebhooks.Restart
import KaimanWebhooks.Stopping

open CallProgram (Within StopsWithin)

/-! ## Statements and failures -/

/-- The calls of one statement: its attempts, and two clock readings and a pause after each. -/
def statementCalls (policy : LockRetryPolicy) : ℕ := (policy.maxAttempts - 1 + 1) * 4 + 1

section Steps

variable {α β : Type} {db : Sqlite} {Bad : List DoneCall → Prop} {past : List DoneCall} {n : ℕ}

theorem within_statement (hretry : db.retry = LockRetryPolicy.default) (q : Query)
    (read : q.Answer → β) : (db.statement q read).Within (statementCalls db.retry) := by
  have hbackoff : ∀ number nanos, (db.retry.backoffAfter db.ext.float number nanos).isSome := by
    rw [hretry]
    exact backoffAfter_default_isSome db.ext.float
  have hattempt : (Prog.sql q : AppAction _).Within 1 := fun _ => by simp
  have hend := (within_retryOnLocked hattempt hbackoff).bind (n := 0)
    (f := fun result => .pure ((result.mapError toRepositoryError).map read)) fun _ => by simp
  exact hend

/-- A statement in front of a program. -/
theorem stopsWithin_bind_statement (hretry : db.retry = LockRetryPolicy.default) {q : Query}
    {read : q.Answer → β} {f : Except WebhookRepositoryError β → AppAction α}
    (hf : ∀ past result, (f result).StopsWithin Bad n past) :
    ((db.statement q read).bind f).StopsWithin Bad (statementCalls db.retry + n) past :=
  (within_statement hretry q read).stopsWithin.bind hf

/-- **Recording a failure** panics only when the delay needs a jitter that does not fit. -/
theorem stopsWithin_recordFailureThen (hretry : db.retry = LockRetryPolicy.default)
    {backoff : ForwardBackoff} (hsound : backoff.Sound) {kind : FailureKind} {attempts id : ℤ}
    {retryAfter : Option Duration} {message : String}
    {next : Except WebhookRepositoryError Unit → AppAction α}
    (hnext : ∀ past result, (next result).StopsWithin Bad n past)
    (hbad : ∀ nanos : Fin 1000000000, (kind, retryAfter) = (.transient, none) →
      ¬JitterFits db.ext.float backoff (Prog.addI64 attempts 1)
        (clockJitterUnit db.ext.float nanos) → Bad (⟨.subsecNanos, nanos⟩ :: past)) :
    (recordFailureThen db backoff kind attempts retryAfter id message next).StopsWithin Bad
      (statementCalls db.retry + n + 3) past := by
  intro nanos
  dsimp only
  cases hdelay : nextDelay db.ext.float backoff kind (Prog.addI64 attempts 1) retryAfter
      (clockJitterUnit db.ext.float nanos) with
  | none =>
      obtain ⟨hafter, hkind, hfits⟩ := (nextDelay_eq_none_iff hsound).mp hdelay
      rw [CallProgram.stopsWithin_panic]
      exact hbad nanos (by rw [hafter, hkind]) hfits
  | some delay => exact fun secs secs' => stopsWithin_bind_statement hretry hnext

/-- A request is refused, or goes on. -/
theorem stopsWithin_orRespond {check : Except HttpResponse α} {next : α → AppAction HttpResponse}
    (h : ∀ a, check = .ok a → (next a).StopsWithin Bad n past) :
    (AppState.orRespond check next).StopsWithin Bad n past := by
  cases hc : check with
  | error response => simp [AppState.orRespond]
  | ok a => exact h a hc

end Steps

namespace AppState

variable (state : AppState)

/-! ## How a task panics -/

/-- The schedule a job computes delays by. -/
def backoffOf : Job → Option ForwardBackoff
  | .cycle k => state.forwarders[k]?.map Forwarder.backoff
  | .request (.retry channel _ _) =>
      (state.findForwardTarget channel).toOption.map fun target =>
        target.2.resolveBackoff state.config.forwardBackoff
  | _ => none

/-- **The two ways a task panics**, by its job and its calls, newest first. -/
inductive Crashes : Job → List DoneCall → Prop where
  /-- A forwarder records an unexpected answer whose body it cannot cut. -/
  | body {k : ℕ} {fw : Forwarder} {webhook : Webhook} {request : HttpRequest} {resp : WireResponse}
      {past : List DoneCall} : state.forwarders[k]? = some fw →
        resp.status ≠ fw.cfg.expectedStatus → ¬Forwarder.BodyFits resp →
          Crashes (.cycle k) (⟨.send (some webhook) request, .ok resp⟩ :: past)
  /-- A transient failure for which the target named no time is recorded, and the jitter of its
  delay does not fit. -/
  | jitter {job : Job} {backoff : ForwardBackoff} {webhook : Webhook} {request : HttpRequest}
      {answer : PeerAnswer} {nanos : Fin 1000000000} {past : List DoneCall} :
        state.backoffOf job = some backoff → failureOf answer = (.transient, none) →
          ¬JitterFits state.db.ext.float backoff (Prog.addI64 webhook.forwardAttempts 1)
            (clockJitterUnit state.db.ext.float nanos) →
            Crashes job
              (⟨.subsecNanos, nanos⟩ :: ⟨.send (some webhook) request, answer⟩ :: past)

/-- The calls of the longest task, a forwarder pass that records a failure and reports it. -/
def taskCalls : ℕ := 2 * statementCalls state.db.retry + 10

variable {state} (hvalid : state.config.validateConfig state.db.ext = .ok ())
  (hretry : state.db.retry = LockRetryPolicy.default)

/-! ## The forwarder -/

section Forwarders

variable {fw : Forwarder} {k : ℕ} (hfw : state.forwarders[k]? = some fw) {past : List DoneCall}

include hretry hfw in
theorem stopsWithin_refreshQueueSize {Bad : List DoneCall → Prop} :
    fw.refreshQueueSize.StopsWithin Bad (statementCalls state.db.retry + 1) past := by
  have hdb := AppState.db_of_mem_forwarders (List.mem_of_getElem? hfw)
  unfold Forwarder.refreshQueueSize Sqlite.countByChannel
  rw [hdb]
  refine stopsWithin_bind_statement hretry ?_
  rintro past (e | count)
  · simp
  · exact fun _ => by simp

include hvalid hretry hfw in
/-- What follows the answer of the target. -/
theorem stopsWithin_onAnswer {webhook : Webhook} {request : HttpRequest} {id : ℤ}
    (answer : PeerAnswer) :
    (fw.onAnswer id webhook answer).StopsWithin (state.Crashes (.cycle k))
      (statementCalls state.db.retry + 6)
      (⟨.send (some webhook) request, answer⟩ :: past) := by
  have hdb := AppState.db_of_mem_forwarders (List.mem_of_getElem? hfw)
  have hsound := Forwarder.sound_of_mem_forwarders hvalid (List.mem_of_getElem? hfw)
  have hbackoff : state.backoffOf (.cycle k) = some fw.backoff := by simp [backoffOf, hfw]
  have hreport : ∀ attempts message past, (fw.afterRecorded id attempts message).StopsWithin
      (state.Crashes (.cycle k)) 3 past := by
    intro attempts message past
    simp only [Forwarder.afterRecorded, Forwarder.reportStuck]
    split
    · exact fun _ _ _ => by simp
    · exact fun _ _ => by simp
  have hrecord : ∀ failure : Failure, failureOf answer = (failure.kind, failure.retryAfter) →
      ((fw.recordFailure id webhook.forwardAttempts failure).bind
        fun _ => .pure Progress.idle).StopsWithin (state.Crashes (.cycle k))
          (statementCalls state.db.retry + 3 + 3)
          (⟨.send (some webhook) request, answer⟩ :: past) := by
    intro failure hfailure
    rw [Forwarder.recordFailure_eq, recordFailureThen_bind, hdb]
    refine stopsWithin_recordFailureThen hretry hsound ?_ ?_
    · intro past result
      exact (hreport _ _ past).bind (n := 0) fun _ _ => by simp
    · intro nanos hkind hfits
      exact .jitter hbackoff (hfailure.trans hkind) hfits
  cases answer with
  | error cause => exact hrecord _ rfl
  | ok resp =>
      simp only [Forwarder.onAnswer]
      split
      · unfold Forwarder.onDelivered Sqlite.deleteById
        rw [hdb]
        refine (stopsWithin_bind_statement hretry (n := 2) ?_).mono (by omega)
        rintro past (e | u)
        · exact fun _ _ => by simp
        · exact fun _ _ => by simp
      · rename_i hstatus
        split
        · rename_i hcut
          rw [CallProgram.stopsWithin_panic]
          exact .body hfw hstatus (Forwarder.readBodyPreview_eq_none_iff.mp hcut)
        · exact hrecord _ rfl

include hvalid hretry hfw in
/-- **One turn of the loop.** -/
theorem stopsWithin_cycle :
    fw.cycle.StopsWithin (state.Crashes (.cycle k)) state.taskCalls past := by
  have hdb := AppState.db_of_mem_forwarders (List.mem_of_getElem? hfw)
  have hpeeked : ∀ past peeked, (fw.onPeeked peeked).StopsWithin (state.Crashes (.cycle k))
      (statementCalls state.db.retry + 7) past := by
    rintro past (e | (- | webhook))
    · simp [Forwarder.onPeeked]
    · refine ((stopsWithin_refreshQueueSize hretry hfw).bind (n := 0) fun _ _ => ?_).mono
        (by omega)
      simp
    · simp only [Forwarder.onPeeked]
      split
      · simp
      · split
        · simp
        · exact fun answer => stopsWithin_onAnswer hvalid hretry hfw answer
  have hpaused : fw.isPaused.StopsWithin (state.Crashes (.cycle k)) 1 past := fun _ => by simp
  have hnext : ∀ past, fw.forwardNext.StopsWithin (state.Crashes (.cycle k))
      (1 + statementCalls state.db.retry + (statementCalls state.db.retry + 7)) past := by
    intro past
    refine StopsWithin.bind ?_ hpeeked
    rw [Nat.add_comm]
    unfold Forwarder.peek Sqlite.peekOldestDueByChannel
    rw [hdb]
    exact fun _ => (within_statement hretry _ _).stopsWithin
  unfold Forwarder.cycle
  refine (hpaused.bind (n := 2 * statementCalls state.db.retry + 9) ?_).mono
    (by unfold taskCalls; omega)
  intro past paused
  split
  · exact fun _ => by simp
  · refine ((hnext past).bind (n := 1) ?_).mono (by omega)
    rintro past (_ | _)
    · simp
    · exact fun _ => by simp

end Forwarders

/-! ## The handlers -/

section Handlers

variable {Bad : List DoneCall → Prop} {past : List DoneCall}

include hretry in
/-- A statement whose result is answered, at once or after a call or two. -/
theorem stopsWithin_answer {β : Type} {q : Query} {read : q.Answer → β}
    {f : Except WebhookRepositoryError β → AppAction HttpResponse}
    (hf : ∀ past result, (f result).StopsWithin Bad 1 past) :
    ((state.db.statement q read).bind f).StopsWithin Bad state.taskCalls past :=
  (stopsWithin_bind_statement hretry hf).mono (by unfold taskCalls; omega)

include hvalid hretry in
/-- What follows the answer of the target to a manual retry. -/
theorem stopsWithin_onAnswer_retry (ctx : RetryContext) {id : ℤ} {headers : HeaderMap}
    (hstate : ctx.state = state)
    (htarget : state.findForwardTarget ctx.channelName = .ok (ctx.channelCfg, ctx.forwardCfg))
    {request : HttpRequest} (answer : PeerAnswer) :
    (ctx.onAnswer answer).StopsWithin
      (state.Crashes (.request (.retry ctx.channelName id headers)))
      (statementCalls state.db.retry + 5)
      (⟨.send (some ctx.webhook) request, answer⟩ :: past) := by
  have hbackoff : state.backoffOf (.request (.retry ctx.channelName id headers)) =
      some (ctx.forwardCfg.resolveBackoff state.config.forwardBackoff) := by
    simp only [backoffOf, htarget]
    rfl
  obtain ⟨hch, -, hfwd⟩ := channel_of_findForwardTarget htarget
  have hsound := sound_of_validateConfig hvalid hch hfwd
  have hrecord : ∀ kind retryAfter message response, failureOf answer = (kind, retryAfter) →
      ((ctx.recordFailure kind retryAfter message).bind
        fun _ => .pure (response : HttpResponse)).StopsWithin
          (state.Crashes (.request (.retry ctx.channelName id headers)))
          (statementCalls state.db.retry + 2 + 3)
          (⟨.send (some ctx.webhook) request, answer⟩ :: past) := by
    intro kind retryAfter message response hfailure
    rw [RetryContext.recordFailure_eq, recordFailureThen_bind, hstate]
    refine stopsWithin_recordFailureThen hretry hsound ?_ ?_
    · exact fun past result _ _ => by simp
    · intro nanos hkind hfits
      exact .jitter hbackoff (hfailure.trans hkind) hfits
  cases answer with
  | error cause => exact hrecord _ _ _ _ rfl
  | ok resp =>
      simp only [RetryContext.onAnswer, RetryContext.onResponse]
      split
      · exact hrecord _ _ _ _ rfl
      · unfold RetryContext.forgetDelivered Sqlite.deleteWebhook Sqlite.deleteById
        rw [hstate]
        refine ((stopsWithin_bind_statement hretry (n := 2) ?_).bind (n := 0) ?_).mono (by omega)
        · exact fun past result _ _ => by simp
        · exact fun _ _ => by simp

theorem stopsWithin_setPaused (paused : Bool) (channel : String) (headers : HeaderMap) :
    (state.setPausedRoute paused channel headers).StopsWithin Bad state.taskCalls past := by
  refine stopsWithin_orRespond fun _ _ => ?_
  have hflag : (Prog.updateStatus channel (.paused paused) : AppAction Bool).StopsWithin Bad 1
      past := fun _ => by simp
  refine (hflag.bind (n := 0) ?_).mono (by unfold taskCalls; omega)
  rintro past (_ | _) <;> simp

include hvalid hretry in
theorem stopsWithin_retry (channel : String) (id : ℤ) (headers : HeaderMap) :
    (state.retryWebhookRoute channel id headers).StopsWithin
      (state.Crashes (.request (.retry channel id headers))) state.taskCalls past := by
  refine stopsWithin_orRespond fun _ _ => stopsWithin_orRespond fun target htarget => ?_
  have hloads : (state.loadWebhookToRetry channel id).Within
      (statementCalls state.db.retry + 0) :=
    (within_statement hretry _ _).bind fun _ => by simp
  refine (hloads.stopsWithin.bind (n := statementCalls state.db.retry + 6) ?_).mono
    (by unfold taskCalls; omega)
  intro past loaded
  refine stopsWithin_orRespond fun webhook _ => stopsWithin_orRespond fun request _ => ?_
  exact fun answer => stopsWithin_onAnswer_retry hvalid hretry
    ⟨state, channel, id, webhook, target.1, target.2⟩ rfl htarget answer

include hvalid hretry in
/-- **Every handler stops.** -/
theorem stopsWithin_handle (r : Request) :
    (state.handle r).StopsWithin (state.Crashes (.request r)) state.taskCalls past := by
  cases r with
  | receive clientIp channel headers body =>
      refine stopsWithin_orRespond fun _ _ => ?_
      have hstores : ∀ secs : ℕ, (state.db.insert (.new channel (state.forwardedHeaders headers)
          body (Prog.asI64 secs))).Within (statementCalls state.db.retry) :=
        fun _ => within_statement hretry _ _
      have hreceives : (state.db.receiveWebhook channel (state.forwardedHeaders headers)
          body).Within (statementCalls state.db.retry + 1) := hstores
      refine (hreceives.stopsWithin.bind (n := 0) ?_).mono (by unfold taskCalls; omega)
      rintro past (e | _) <;> simp
  | poll channel headers =>
      refine stopsWithin_orRespond fun _ _ => stopsWithin_answer hretry ?_
      rintro past (e | _) <;> simp
  | list channel headers =>
      refine stopsWithin_orRespond fun _ _ => stopsWithin_answer hretry ?_
      rintro past (e | _) <;> simp
  | delete channel id headers =>
      refine stopsWithin_orRespond fun _ _ => stopsWithin_answer hretry ?_
      rintro past (e | _) <;> simp
  | queue channel headers =>
      refine stopsWithin_orRespond fun _ _ => stopsWithin_orRespond fun _ _ =>
        stopsWithin_answer hretry ?_
      rintro past (e | _)
      · simp
      · exact fun _ => by simp
  | pause channel headers => exact stopsWithin_setPaused true channel headers
  | resume channel headers => exact stopsWithin_setPaused false channel headers
  | clear channel headers =>
      refine stopsWithin_orRespond fun _ _ => stopsWithin_answer hretry ?_
      rintro past (e | _)
      · simp
      · exact fun _ => by simp
  | retry channel id headers => exact stopsWithin_retry hvalid hretry channel id headers

end Handlers

/-! ## Every task -/

include hvalid hretry in
/-- **Every job stops.** -/
theorem stopsWithin_start (job : Job) :
    (state.start job).StopsWithin (state.Crashes job) state.taskCalls [] := by
  cases job with
  | refresh k =>
      simp only [start]
      cases hfw : state.forwarders[k]? with
      | none => simp
      | some fw =>
          refine ((stopsWithin_refreshQueueSize hretry hfw).bind (n := 0) fun _ _ => ?_).mono
            (by unfold taskCalls; omega)
          simp
  | cycle k =>
      simp only [start]
      cases hfw : state.forwarders[k]? with
      | none => simp
      | some fw =>
          exact (stopsWithin_cycle hvalid hretry hfw).bind (n := 0) fun _ _ => by simp
  | request r =>
      exact (stopsWithin_handle hvalid hretry r).bind (n := 0) fun _ _ => by simp
  | reset id =>
      refine (((within_statement hretry _ _).stopsWithin).bind (n := 0) fun _ _ => ?_).mono
        (by unfold taskCalls; omega)
      simp

variable (state) in
/-- Every schedule has a ceiling under which due times are 64-bit integers. -/
def CeilingsSafe : Prop :=
  ∀ ch ∈ state.config.channels, ∀ fwd, ch.forward = some fwd →
    (fwd.resolveBackoff state.config.forwardBackoff).max ≤ largestSafeCeiling

variable (state) in
/-- Where a task may stand: it has returned, a request with a response; it has calls left and
makes the next one; or it has panicked in one of the two ways. -/
def Stands (t : ServiceTask) : Prop :=
  match t.rest with
  | .pure answer => ∀ r, t.job = .request r → answer.isSome
  | .call _ _ => t.past.length < state.taskCalls
  | .panic _ => state.Crashes t.job t.past

include hvalid in
/-- A request does not panic when the ceilings are safe. -/
theorem CeilingsSafe.not_crashes (hsafe : state.CeilingsSafe) {r : Request} {past : List DoneCall} :
    ¬state.Crashes (.request r) past := by
  intro hcrash
  cases hcrash with
  | jitter hbackoff _ hfits =>
      cases r with
      | retry channel id headers =>
          obtain ⟨target, htarget, rfl⟩ := Option.map_eq_some_iff.mp hbackoff
          obtain ⟨hch, -, hfwd⟩ :=
            channel_of_findForwardTarget (Except.eq_ok_of_toOption_eq_some htarget)
          exact hfits ((sound_of_validateConfig hvalid hch hfwd).jitterFits (hsafe _ hch _ hfwd))
      | _ => cases hbackoff

/-- A request that returns has a response. -/
theorem start_responds (job : Job) :
    (state.start job).Obeys state.machine.Answers (fun _ _ => True)
      (fun _ answer => ∀ r, job = .request r → answer.isSome) [] := by
  cases job with
  | request r =>
      simp only [start]
      rw [CallProgram.obeys_bind]
      exact CallProgram.obeys_of_forall (fun _ _ => trivial) (by simp) _
  | _ => exact CallProgram.obeys_of_forall (fun _ _ => trivial) (by simp) _

/-- **Every request is answered.**  In every lifetime and every interleaving a task makes a bounded
number of calls, and then it has returned, a request with a response, or it has panicked in one of
the two ways; and no request panics when the ceilings are safe. -/
theorem every_request_is_answered (state : AppState)
    (hvalid : state.config.validateConfig state.db.ext = .ok ())
    (hretry : state.db.retry = LockRetryPolicy.default) {l : ServiceLives} (h : state.Lives l) :
    (∀ t ∈ l.current.tasks, t.past.length ≤ state.taskCalls ∧ state.Stands t) ∧
      (state.CeilingsSafe → ∀ t ∈ l.current.tasks, ∀ r, t.job = .request r →
        (∃ resp, t.rest = .pure (some resp)) ∨
          t.past.length < state.taskCalls ∧ ∃ c next, t.rest = .call c next) := by
  have hreaches := TaskMachine.Outlives.reaches h
  have hstands : ∀ t ∈ l.current.tasks, t.past.length ≤ state.taskCalls ∧ state.Stands t := by
    intro t ht
    obtain ⟨m, hm, hstops⟩ := hreaches.stopsWithin rfl (stopsWithin_start hvalid hretry) t ht
    refine ⟨by omega, ?_⟩
    unfold Stands
    cases hrest : t.rest with
    | pure answer => exact hreaches.returned_allowed rfl start_responds ht hrest
    | call c next =>
        rw [hrest] at hstops
        obtain ⟨m, rfl, -⟩ := hstops.call_pos
        dsimp only
        omega
    | panic message =>
        rw [hrest, CallProgram.stopsWithin_panic] at hstops
        exact hstops
  refine ⟨hstands, fun hsafe t ht r hjob => ?_⟩
  have hstand := (hstands t ht).2
  unfold Stands at hstand
  cases hrest : t.rest with
  | pure answer =>
      rw [hrest] at hstand
      obtain ⟨resp, rfl⟩ := Option.isSome_iff_exists.mp (hstand r hjob)
      exact Or.inl ⟨resp, rfl⟩
  | call c next =>
      rw [hrest] at hstand
      exact Or.inr ⟨hstand, c, next, rfl⟩
  | panic message =>
      rw [hrest, hjob] at hstand
      exact absurd hstand (hsafe.not_crashes hvalid)

/-- The ceilings of the small configuration are an hour. -/
theorem ceilingsSafe_small : small.CeilingsSafe := by
  intro ch hch fwd hfwd
  simp only [small, AppConfig.small, List.mem_cons, List.not_mem_nil, or_false] at hch
  rcases hch with rfl | rfl <;> cases hfwd
  have hour : UInt64.toNat 3600 = 3600 := rfl
  norm_num [WebhookForwardConfig.resolveBackoff, Duration.fromSecs, largestSafeCeiling, small,
    AppConfig.small, hour]

/-- After a restart one request is answered, and the other one is at a call with fewer made than
a task can make. -/
theorem every_request_is_answered_small :
    ∃ l : ServiceLives, small.Lives l ∧ l.restarts = 1 ∧
      (l.current.tasks.map TaskState.hasReturned) = [true, false] ∧
      ∀ t ∈ l.current.tasks, ∀ r, t.job = .request r → (∃ resp, t.rest = .pure (some resp)) ∨
        t.past.length < small.taskCalls ∧ ∃ c next, t.rest = .call c next := by
  have hrun : ∃ s, small.machine.runEvents small.initial killedRun = some s ∧
      ∃ s', small.machine.runEvents (.fresh (small.restarted s.shared))
          (ServiceEvent.task (.request (.poll "orders" .small)) 0
              (List.replicate 2 (Input.calm 2000 200)) ++
            ServiceEvent.task (.request .small) 1 (List.replicate 2 (Input.calm 2001 200))) =
          some s' ∧ (s'.tasks.map TaskState.hasReturned) = [true, false] := by
    decide +kernel
  obtain ⟨s, hs, s', hs', hreturned⟩ := hrun
  obtain ⟨hlives, -⟩ := lives_of_runEvents hs hs'
  exact ⟨_, hlives, rfl, hreturned,
    (every_request_is_answered small Forwarder.validateConfig_small rfl hlives).2
      ceilingsSafe_small⟩

end AppState
