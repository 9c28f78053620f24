/-
# Every task keeps to the protocol

The tasks that send — a forwarder's cycle and a manual retry — settle what they sent: the
row of a webhook whose delivery was accepted is deleted, any other outcome is recorded.
With the handlers that send nothing this covers every job (`start_obeys`).
-/
import KaimanWebhooks.FailureRecord
import KaimanWebhooks.Protocol

/-- A call that neither loads nor sends nor stores anything. -/
def Call.isHousekeeping : Call Query → Bool
  | .readStatus _ => true
  | .updateStatus _ _ => true
  | .sql (.countByChannel _) => true
  | c => c.isTiming

theorem Call.isHousekeeping_of_isTiming {c : Call Query} (h : c.isTiming = true) :
    c.isHousekeeping = true := by
  cases c <;> first | rfl | cases h

/-- Attempts of a statement send nothing. -/
theorem OnlyAttempts.noSend {q : Query} {calls : List DoneCall} (h : OnlyAttempts q calls) :
    AppState.NoSend calls := by
  rintro ⟨c, r⟩ hd
  rcases h _ hd with htiming | hsql
  · exact (AppState.quiet_of_isTiming htiming).2
  · obtain rfl : c = .sql q := hsql
    rfl

namespace AppState

/-! ## Deliveries -/

section Deliveries

variable {state : AppState} {job : Job} {past new : List DoneCall}

theorem settled_of_noSend (h : NoSend past) : state.Settled job past :=
  fun _ hacc => absurd hacc h.not_accepted

/-- Calls of which none was accepted leave nothing to settle. -/
theorem settled_of_not_accepted (h : ∀ id, ∀ d ∈ past, ¬state.accepted job id d) :
    state.Settled job past := by
  rintro id ⟨d, hd, hacc⟩
  exact absurd hacc (h id d hd)

/-- Calls that send nothing leave nothing to settle. -/
theorem Settled.append (h : state.Settled job past) (hnew : NoSend new) :
    state.Settled job (new ++ past) := by
  rintro id ⟨d, hd, hacc⟩
  rcases List.mem_append.mp hd with hd | hd
  · exact absurd ⟨d, hd, hacc⟩ hnew.not_accepted
  · obtain ⟨result, hresult⟩ := h id ⟨d, hd, hacc⟩
    exact ⟨result, List.mem_append_right _ hresult⟩

theorem Settled.cons {d : DoneCall} (h : state.Settled job past) (hd : isSend d = false) :
    state.Settled job (d :: past) := by
  have hnew : NoSend [d] := by simpa [NoSend] using hd
  simpa using h.append hnew

/-- Deleting the one webhook that was accepted settles a task. -/
theorem settled_of_delete {id : ℤ} (h : ∀ id', (∃ d ∈ past, state.accepted job id' d) → id' = id)
    {result : Except SqlxError ℕ} (hresult : (⟨.sql (.deleteById id), result⟩ : DoneCall) ∈ past) :
    state.Settled job past := by
  intro id' hacc
  rw [h id' hacc]
  exact ⟨result, hresult⟩

/-- The calls since `past` sent nothing. -/
def SendFreeSince (past past' : List DoneCall) : Prop := ∃ new, NoSend new ∧ past' = new ++ past

theorem SendFreeSince.refl (past : List DoneCall) : SendFreeSince past past :=
  ⟨[], by simp [NoSend], rfl⟩

theorem SendFreeSince.cons {past' : List DoneCall} {d : DoneCall} (hd : isSend d = false)
    (h : SendFreeSince past past') : SendFreeSince past (d :: past') := by
  obtain ⟨new, hnew, rfl⟩ := h
  exact ⟨d :: new, hnew.cons hd, rfl⟩

theorem SendFreeSince.append {past' new : List DoneCall} (hnew : NoSend new)
    (h : SendFreeSince past past') : SendFreeSince past (new ++ past') := by
  obtain ⟨new', hnew', rfl⟩ := h
  exact ⟨new ++ new', hnew.append hnew', by simp⟩

theorem Settled.since {past' : List DoneCall} (h : state.Settled job past)
    (hsince : SendFreeSince past past') : state.Settled job past' := by
  obtain ⟨new, hnew, rfl⟩ := hsince
  exact h.append hnew

/-- A failure may be recorded after an attempt that was not accepted, however many other
calls were made since. -/
theorem protocol_recordForwardFailure {past' : List DoneCall} {id now next : ℤ} {message : String}
    (hattempt : ∃ d ∈ past, attempted id d) (hfail : ∀ d ∈ past, ¬state.accepted job id d)
    (hsince : SendFreeSince past past') :
    state.Protocol job past' (.sql (.recordForwardFailure now message next id)) := by
  obtain ⟨new, hnew, rfl⟩ := hsince
  obtain ⟨d, hd, hid⟩ := hattempt
  refine ⟨⟨d, List.mem_append_right _ hd, hid⟩, fun d' hd' hacc => ?_⟩
  rcases List.mem_append.mp hd' with hd' | hd'
  · exact hnew.not_accepted ⟨d', hd', hacc⟩
  · exact hfail d' hd' hacc

theorem obeys_afterRecorded {fw : Forwarder} {id attempts : ℤ} {message : String}
    {past' : List DoneCall} (hsince : SendFreeSince past past') :
    (fw.afterRecorded id attempts message).Obeys state.machine.Answers (state.Protocol job)
      (fun past' _ => SendFreeSince past past') past' := by
  simp only [Forwarder.afterRecorded, Forwarder.reportStuck, CallProgram.bind_eq,
    CallProgram.pure_eq, CallProgram.bind_call, CallProgram.bind_pure_left]
  split
  · exact ⟨trivial, fun _ _ => ⟨trivial, fun _ _ => ⟨trivial, fun _ _ =>
      ((hsince.cons rfl).cons rfl).cons rfl⟩⟩⟩
  · exact ⟨trivial, fun _ _ => ⟨trivial, fun _ _ => (hsince.cons rfl).cons rfl⟩⟩

/-- Recording a failure sends nothing, as long as what follows sends nothing. -/
theorem obeys_recordFailure {db : Sqlite} {backoff : ForwardBackoff} {kind : FailureKind}
    {attemptsBefore : ℤ} {retryAfter : Option Duration} {id : ℤ} {message : String}
    {next : Except WebhookRepositoryError Unit → AppAction Unit}
    (hattempt : ∃ d ∈ past, attempted id d) (hfail : ∀ d ∈ past, ¬state.accepted job id d)
    (hnext : ∀ result past', SendFreeSince past past' →
      (next result).Obeys state.machine.Answers (state.Protocol job)
        (fun past' _ => SendFreeSince past past') past') :
    (recordFailureThen db backoff kind attemptsBefore retryAfter id message next).Obeys
      state.machine.Answers (state.Protocol job) (fun past' _ => SendFreeSince past past')
        past := by
  refine obeys_recordFailureThen (fun _ _ => protocol_of_isTiming) ?_
  intro nanos secs secs' delay _
  have hclocks : SendFreeSince past
      (⟨.systemNow, secs'⟩ :: ⟨.systemNow, secs⟩ :: ⟨.subsecNanos, nanos⟩ :: past) :=
    (((SendFreeSince.refl past).cons rfl).cons rfl).cons rfl
  constructor
  · intro waiting hwaiting
    exact protocol_recordForwardFailure hattempt hfail
      (hclocks.append (quiet_of_onlyFailed hwaiting).noSend)
  · intro result waiting hwaiting
    exact hnext result _ (hclocks.append hwaiting.noSend)

theorem obeys_forwarder_recordFailure {fw : Forwarder} {id attempts : ℤ} {failure : Failure}
    (hattempt : ∃ d ∈ past, attempted id d) (hfail : ∀ d ∈ past, ¬state.accepted job id d) :
    (fw.recordFailure id attempts failure).Obeys state.machine.Answers (state.Protocol job)
      (fun past' _ => SendFreeSince past past') past := by
  rw [Forwarder.recordFailure_eq]
  exact obeys_recordFailure hattempt hfail fun _ _ hsince => obeys_afterRecorded hsince

theorem obeys_retry_recordFailure {ctx : RetryContext} {kind : FailureKind}
    {retryAfter : Option Duration} {message : String}
    (hattempt : ∃ d ∈ past, attempted ctx.webhookId d)
    (hfail : ∀ d ∈ past, ¬state.accepted job ctx.webhookId d) :
    (ctx.recordFailure kind retryAfter message).Obeys state.machine.Answers (state.Protocol job)
      (fun past' _ => SendFreeSince past past') past := by
  rw [RetryContext.recordFailure_eq]
  refine obeys_recordFailure hattempt hfail fun _ _ hsince => ?_
  exact ⟨trivial, fun _ _ => ⟨trivial, fun _ _ => (hsince.cons rfl).cons rfl⟩⟩

/-- The past of a task that may send: the row of the webhook was loaded, nothing sent. -/
structure ReadyToSend (state : AppState) (past : List DoneCall) (webhook : Webhook) : Prop where
  noSend : NoSend past
  loaded : ∃ d ∈ past, ∃ row, loadedRow d = some row ∧
    parseWebhookRow state.db.ext row = some webhook

/-- Deleting the one webhook that was accepted, and then a program that leaves nothing to
settle. -/
theorem obeys_delete_accepted {α : Type} {id : ℤ}
    {f : Except WebhookRepositoryError Unit → AppAction α}
    (hacc : ∃ d ∈ past, state.accepted job id d)
    (hone : ∀ id', (∃ d ∈ past, state.accepted job id' d) → id' = id)
    (hf : ∀ removed past', state.Settled job past' →
      (f removed).Obeys state.machine.Answers (state.Protocol job)
        (fun past' _ => state.Settled job past') past') :
    ((state.db.deleteById id).bind f).Obeys state.machine.Answers (state.Protocol job)
      (fun past' _ => state.Settled job past') past := by
  have hone' : ∀ new id', NoSend new → (∃ d ∈ new ++ past, state.accepted job id' d) →
      id' = id := by
    rintro new id' hnew ⟨d, hd, hd'⟩
    rcases List.mem_append.mp hd with hd | hd
    · exact absurd ⟨d, hd, hd'⟩ hnew.not_accepted
    · exact hone id' ⟨d, hd, hd'⟩
  refine obeys_operation ?_ ?_ ?_
  · intro new _
    obtain ⟨d, hd, hd'⟩ := hacc
    exact Or.inr ⟨d, List.mem_append_right _ hd, hd'⟩
  · intro new affected _ hnew
    refine hf _ _ (settled_of_delete (fun id' h => ?_) List.mem_cons_self)
    exact hone' (⟨.sql (.deleteById id), .ok affected⟩ :: new) id' (hnew.noSend.cons rfl) h
  · rintro new e hnew ⟨e', he'⟩
    exact hf _ _ (settled_of_delete (fun id' => hone' new id' hnew.noSend)
      (List.mem_append_left _ he'))

section Send

variable {webhook : Webhook} {id : ℤ} {request : HttpRequest} {answer : PeerAnswer}
  {fwd : WebhookForwardConfig}

/-- Sending the loaded webhook is permitted. -/
theorem protocol_send (hready : ReadyToSend state past webhook) (hposts : Posts webhook request) :
    state.Protocol job past (.send (some webhook) request) :=
  ⟨hready.noSend, webhook, rfl, hposts, hready.loaded⟩

/-- Only the answer of the send itself can have been accepted. -/
theorem accepted_of_send (hsend : NoSend past) {id' : ℤ}
    (h : ∃ d ∈ (⟨.send (some webhook) request, answer⟩ : DoneCall) :: past,
      state.accepted job id' d) :
    state.accepted job id' ⟨.send (some webhook) request, answer⟩ := by
  obtain ⟨d, hd, hacc⟩ := h
  rcases List.mem_cons.mp hd with rfl | hd
  · exact hacc
  · exact absurd ⟨d, hd, hacc⟩ hsend.not_accepted

/-- After an answer that does not count as delivery nothing was accepted. -/
theorem not_accepted_of_send (hsend : NoSend past) (htarget : state.target job = some fwd)
    (hanswer : ∀ resp, answer = .ok resp → resp.status ≠ fwd.expectedStatus) (id' : ℤ) :
    ∀ d ∈ (⟨.send (some webhook) request, answer⟩ : DoneCall) :: past,
      ¬state.accepted job id' d := by
  intro d hd hacc
  have hthis := accepted_of_send hsend ⟨d, hd, hacc⟩
  cases answer with
  | error e => exact hthis
  | ok resp =>
      obtain ⟨-, fwd', htarget', hstatus⟩ := hthis
      rw [htarget, Option.some.injEq] at htarget'
      exact hanswer resp rfl (htarget' ▸ hstatus)

end Send

/-- The delivery of a forwarder settles what it sent. -/
theorem obeys_forwarder_deliver {fw : Forwarder} {webhook : Webhook} {id : ℤ}
    {request : HttpRequest} (hdb : fw.db = state.db) (htarget : state.target job = some fw.cfg)
    (hready : ReadyToSend state past webhook) (hid : webhook.id = some id)
    (hposts : Posts webhook request) :
    (fw.deliver id webhook request).Obeys state.machine.Answers (state.Protocol job)
      (fun past' _ => state.Settled job past') past := by
  refine ⟨protocol_send hready hposts, fun answer _ => ?_⟩
  let sent : DoneCall := ⟨.send (some webhook) request, answer⟩
  have hfailure : ∀ failure : Failure,
      (∀ resp, answer = .ok resp → resp.status ≠ fw.cfg.expectedStatus) →
      ((fw.recordFailure id webhook.forwardAttempts failure).bind fun _ =>
          CallProgram.pure Progress.idle).Obeys state.machine.Answers (state.Protocol job)
        (fun past' _ => state.Settled job past') (sent :: past) := by
    intro failure hanswer
    have hfail : ∀ id', ∀ d ∈ sent :: past, ¬state.accepted job id' d :=
      not_accepted_of_send hready.noSend htarget hanswer
    rw [CallProgram.obeys_bind]
    refine (obeys_forwarder_recordFailure ⟨sent, List.mem_cons_self, hid⟩ (hfail id)).weaken
      (fun _ _ _ hP => hP) ?_
    rintro past' - - hsince
    exact (settled_of_not_accepted hfail).since hsince
  cases answer with
  | error cause => exact hfailure _ (by simp)
  | ok resp =>
      show (Forwarder.onAnswer fw id webhook (.ok resp)).Obeys _ _ _ _
      rw [Forwarder.onAnswer]
      split
      · rename_i hstatus
        rw [Forwarder.onDelivered, hdb]
        refine obeys_delete_accepted ⟨sent, List.mem_cons_self, hid, fw.cfg, htarget, hstatus⟩
          (fun id' h => ?_) ?_
        · have hthis := accepted_of_send hready.noSend h
          exact Option.some.inj (hthis.1.symm.trans hid)
        · intro removed past' h
          refine ⟨trivial, fun _ _ => ⟨trivial, fun _ _ => ?_⟩⟩
          cases removed <;> exact (h.cons rfl).cons rfl
      · rename_i hstatus
        cases readBodyPreview resp with
        | none => trivial
        | some bodyPreview => exact hfailure _ (by simpa using hstatus)

/-- The manual retry settles what it sent. -/
theorem obeys_retry_deliver {ctx : RetryContext} {request : HttpRequest}
    (hstate : ctx.state = state) (htarget : state.target job = some ctx.forwardCfg)
    (hready : ReadyToSend state past ctx.webhook) (hid : ctx.webhook.id = some ctx.webhookId)
    (hposts : Posts ctx.webhook request) :
    (ctx.deliver request).Obeys state.machine.Answers (state.Protocol job)
      (fun past' _ => state.Settled job past') past := by
  refine ⟨protocol_send hready hposts, fun answer _ => ?_⟩
  let sent : DoneCall := ⟨.send (some ctx.webhook) request, answer⟩
  have hfailure : ∀ kind retryAfter message (response : HttpResponse),
      (∀ resp, answer = .ok resp → resp.status ≠ ctx.forwardCfg.expectedStatus) →
      ((ctx.recordFailure kind retryAfter message).bind fun _ =>
          CallProgram.pure response).Obeys state.machine.Answers (state.Protocol job)
        (fun past' _ => state.Settled job past') (sent :: past) := by
    intro kind retryAfter message response hanswer
    have hfail : ∀ id', ∀ d ∈ sent :: past, ¬state.accepted job id' d :=
      not_accepted_of_send hready.noSend htarget hanswer
    rw [CallProgram.obeys_bind]
    refine (obeys_retry_recordFailure ⟨sent, List.mem_cons_self, hid⟩ (hfail _)).weaken
      (fun _ _ _ hP => hP) ?_
    rintro past' - - hsince
    exact (settled_of_not_accepted hfail).since hsince
  cases answer with
  | error cause => exact hfailure _ _ _ _ (by simp)
  | ok resp =>
      show (RetryContext.onResponse ctx resp).Obeys _ _ _ _
      rw [RetryContext.onResponse]
      split
      · rename_i hstatus
        exact hfailure _ _ _ _ (by simpa using hstatus)
      · rename_i hstatus
        simp only [RetryContext.forgetDelivered, Sqlite.deleteWebhook, CallProgram.bind_eq,
          CallProgram.pure_eq, CallProgram.bind_assoc, hstate]
        refine obeys_delete_accepted
          ⟨sent, List.mem_cons_self, hid, ctx.forwardCfg, htarget, not_not.mp hstatus⟩
          (fun id' h => ?_) ?_
        · have hthis := accepted_of_send hready.noSend h
          exact Option.some.inj (hthis.1.symm.trans hid)
        · intro removed past' h
          exact ⟨trivial, fun _ _ => ⟨trivial, fun _ _ => (h.cons rfl).cons rfl⟩⟩

end Deliveries

/-! ## A cycle of a forwarder -/

section Cycle

variable {state : AppState} {fw : Forwarder} {past : List DoneCall}

/-- What a forward request keeps of its webhook. -/
theorem posts_of_forwarder_buildRequest {webhook : Webhook} {request : HttpRequest}
    (h : fw.buildRequest webhook = some request) : Posts webhook request := by
  simp only [Forwarder.buildRequest] at h
  split at h
  · cases h
    exact ⟨rfl, rfl⟩
  · split at h
    · cases h
    · split at h
      · cases h
        exact ⟨rfl, rfl⟩
      · split at h
        · cases h
          exact ⟨rfl, rfl⟩
        · cases h

/-- Every forwarder serves a configured channel with a forward target, over the database of
the service. -/
theorem exists_channel_of_mem_forwarders (h : fw ∈ state.forwarders) :
    ∃ ch ∈ state.config.channels, ∃ fwd, ch.forward = some fwd ∧
      fw = ⟨ch.name, fwd, fwd.resolveBackoff state.config.forwardBackoff, ch.webhookSecret,
        state.db, state.config.ignoredHeaders⟩ := by
  obtain ⟨ch, hch, hfw⟩ := List.mem_filterMap.mp h
  obtain ⟨fwd, hfwd, rfl⟩ := Option.map_eq_some_iff.mp hfw
  exact ⟨ch, hch, fwd, hfwd, rfl⟩

theorem db_of_mem_forwarders (h : fw ∈ state.forwarders) : fw.db = state.db := by
  obtain ⟨ch, -, fwd, -, rfl⟩ := exists_channel_of_mem_forwarders h
  rfl

theorem obeys_refreshQueueSize {job : Job} (h : Quiet past) :
    fw.refreshQueueSize.Obeys state.machine.Answers (state.Protocol job)
      (fun past' _ => NoSend past') past := by
  refine obeys_operation (fun _ _ => trivial) ?_ ?_
  · intro new count _ hnew
    exact ⟨trivial, fun _ _ => ((hnew.append h).noSend.cons rfl).cons rfl⟩
  · intro new e hnew _
    exact (hnew.append h).noSend

section Rule

variable {A : (c : Call Query) → Call.Answer Query.Answer c → Prop}
  {P : List DoneCall → Call Query → Prop} {post : List DoneCall → Prop}
  (hkeep : ∀ past c, Call.isHousekeeping c = true → P past c)
  (hpeek : ∀ (new : List DoneCall) (secs : ℕ) status,
    let past : List DoneCall := new ++ [⟨.systemNow, secs⟩, ⟨.readStatus fw.channel, status⟩]
    Quiet past → P past (.sql (.peekOldestDueByChannel fw.channel (Prog.asI64 secs))))
  (hidle : ∀ past, NoSend past → post past)
  (hdeliver : ∀ past now row webhook request, NoSend past →
    A (.sql (.peekOldestDueByChannel fw.channel now)) (.ok (some row)) →
    (⟨.sql (.peekOldestDueByChannel fw.channel now), .ok (some row)⟩ : DoneCall) ∈ past →
    parseWebhookRow fw.db.ext row = some webhook → fw.buildRequest webhook = some request →
    (fw.deliver row.id webhook request).Obeys A P (fun past' _ => post past') past)

section Calls

variable (htiming : ∀ past c, Call.isTiming c = true → P past c)
  (hcount : ∀ past, P past (.sql (.countByChannel fw.channel)))
  (hsize : ∀ past count, P (⟨.sql (.countByChannel fw.channel), .ok count⟩ :: past)
    (.updateStatus fw.channel (.queueSize count)))

include htiming hcount hsize hpeek

omit hidle hdeliver in
/-- **The rule for a pass**: it reads the clock, delivers the webhook it peeked at, or sends
nothing and is idle. -/
theorem obeys_forwardNext_of_progress {post : Progress → List DoneCall → Prop}
    (hidle : ∀ past, NoSend past → post .idle past)
    (hdeliver : ∀ past now row webhook request, NoSend past →
      A (.sql (.peekOldestDueByChannel fw.channel now)) (.ok (some row)) →
      (⟨.sql (.peekOldestDueByChannel fw.channel now), .ok (some row)⟩ : DoneCall) ∈ past →
      parseWebhookRow fw.db.ext row = some webhook → fw.buildRequest webhook = some request →
      (fw.deliver row.id webhook request).Obeys A P (fun past' progress => post progress past')
        past)
    (status : Option ChannelForwardStatus) :
    fw.forwardNext.Obeys A P (fun past' progress => post progress past')
      [⟨.readStatus fw.channel, status⟩] := by
  simp only [Forwarder.forwardNext, Forwarder.peek, CallProgram.bind_eq, CallProgram.bind_call,
    CallProgram.bind_pure_left]
  refine ⟨htiming _ _ rfl, fun secs _ => ?_⟩
  have hnow : Quiet [⟨.systemNow, secs⟩, ⟨.readStatus fw.channel, status⟩] :=
    (Quiet.nil.cons ⟨rfl, rfl⟩).cons ⟨rfl, rfl⟩
  refine Sqlite.obeys_bind_statement htiming
    (fun new hnew => hpeek _ _ _ ((quiet_of_onlyFailed hnew).append hnow)) ?_ ?_
  · intro new row hanswer hnew
    have hsend : NoSend (⟨.sql (.peekOldestDueByChannel fw.channel (Prog.asI64 secs)), .ok row⟩ ::
        (new ++ [⟨.systemNow, secs⟩, ⟨.readStatus fw.channel, status⟩])) :=
      ((quiet_of_onlyFailed hnew).append hnow).noSend.cons rfl
    cases hparsed : row.bind (parseWebhookRow fw.db.ext) with
    | none =>
        simp only [Forwarder.onPeeked, CallProgram.bind_eq, CallProgram.pure_eq]
        rw [CallProgram.obeys_bind]
        refine Sqlite.obeys_bind_statement htiming (fun _ _ => hcount _) ?_ ?_
        · intro new' count _ hnew'
          exact ⟨hsize _ _, fun _ _ => hidle _
            ((((quiet_of_onlyFailed hnew').noSend.append hsend).cons rfl).cons rfl)⟩
        · intro new' e hnew' _
          exact hidle _ ((quiet_of_onlyFailed hnew').noSend.append hsend)
    | some webhook =>
        obtain ⟨r, rfl, hr⟩ := Option.bind_eq_some_iff.mp hparsed
        have hid := (parseWebhookRow_eq_some hr).1
        simp only [Forwarder.onPeeked, hid]
        cases hrequest : fw.buildRequest webhook with
        | none => exact hidle _ hsend
        | some request =>
            exact hdeliver _ _ r webhook request hsend hanswer List.mem_cons_self hr hrequest
  · intro new e hnew _
    exact hidle _ ((quiet_of_onlyFailed hnew).append hnow).noSend

include hidle hdeliver

/-- The rule for a pass when it does not matter how the pass ends. -/
theorem obeys_forwardNext_of_calls (status : Option ChannelForwardStatus) :
    fw.forwardNext.Obeys A P (fun past' _ => post past') [⟨.readStatus fw.channel, status⟩] :=
  obeys_forwardNext_of_progress hpeek htiming hcount hsize hidle hdeliver status

/-- **The rule for a cycle**: a pass, or a pause, and the sleep after it. -/
theorem obeys_cycle_of_calls (hread : P [] (.readStatus fw.channel))
    (hsleep : ∀ past d, Call.isTiming d.1 = true → post past → post (d :: past)) :
    fw.cycle.Obeys A P (fun past' _ => post past') [] := by
  simp only [Forwarder.cycle, Forwarder.isPaused, CallProgram.bind_eq, CallProgram.bind_call,
    CallProgram.bind_pure_left, CallProgram.pure_eq]
  refine ⟨hread, fun status _ => ?_⟩
  have hstatus : Quiet [⟨.readStatus fw.channel, status⟩] := Quiet.nil.cons ⟨rfl, rfl⟩
  dsimp only
  split
  · exact ⟨htiming _ _ rfl, fun _ _ => hidle _ (hstatus.noSend.cons rfl)⟩
  · rw [CallProgram.obeys_bind]
    refine (obeys_forwardNext_of_calls hpeek hidle hdeliver htiming hcount hsize status).weaken
      (fun _ _ _ hP => hP) ?_
    rintro past' progress - hpost
    cases progress with
    | drained => exact hpost
    | idle => exact ⟨htiming _ _ rfl, fun _ _ => hsleep _ _ rfl hpost⟩

end Calls

include hkeep hpeek hidle hdeliver

/-- The rule for a cycle when all housekeeping is permitted. -/
theorem obeys_cycle_of_deliver
    (hsleep : ∀ past d, Call.isTiming d.1 = true → post past → post (d :: past)) :
    fw.cycle.Obeys A P (fun past' _ => post past') [] :=
  obeys_cycle_of_calls hpeek hidle hdeliver
    (fun past c hc => hkeep past c (Call.isHousekeeping_of_isTiming hc))
    (fun _ => hkeep _ _ rfl) (fun _ _ => hkeep _ _ rfl) (hkeep _ _ rfl) hsleep

end Rule

theorem protocol_of_isHousekeeping {job : Job} {c : Call Query} (h : c.isHousekeeping = true) :
    state.Protocol job past c := by
  cases c with
  | sql q => cases q <;> trivial
  | _ => trivial

/-- A cycle settles what it sent. -/
theorem obeys_cycle {k : ℕ} (hfw : state.forwarders[k]? = some fw) :
    fw.cycle.Obeys state.machine.Answers (state.Protocol (.cycle k))
      (fun past' _ => state.Settled (.cycle k) past') [] := by
  have hdb : fw.db = state.db := db_of_mem_forwarders (List.mem_of_getElem? hfw)
  have htarget : state.target (.cycle k) = some fw.cfg := by simp [target, hfw]
  refine obeys_cycle_of_deliver (fun _ _ => protocol_of_isHousekeeping)
    (fun new secs status h => ⟨⟨k, fw, rfl, hfw, rfl⟩, h⟩) (fun _ => settled_of_noSend) ?_ ?_
  · intro past now row webhook request hsend _ hloaded hparse hrequest
    exact obeys_forwarder_deliver hdb htarget ⟨hsend, _, hloaded, row, rfl, hdb ▸ hparse⟩
      (parseWebhookRow_eq_some hparse).1 (posts_of_forwarder_buildRequest hrequest)
  · intro past d hd hsettled
    exact hsettled.cons (quiet_of_isTiming hd).2

end Cycle

/-! ## A manual retry -/

section Retry

variable {state : AppState}

theorem posts_of_retry_buildRequest {ctx : RetryContext} {request : HttpRequest}
    (h : ctx.buildRequest = .ok request) : Posts ctx.webhook request := by
  simp only [RetryContext.buildRequest] at h
  split at h
  · cases h
    exact ⟨rfl, rfl⟩
  · cases hsign : ctx.sign ctx.webhook.payload with
    | error response => simp [hsign, Except.map] at h
    | ok value =>
        simp only [hsign, Except.map, Except.ok.injEq] at h
        subst h
        exact ⟨rfl, rfl⟩

/-- The row a statement loads by its id has that id. -/
theorem id_of_answers_getById {id : ℤ} {row : Row}
    (h : state.machine.Answers (.sql (.getById id)) (.ok (some row))) : row.id = id := by
  obtain ⟨i, w, hanswer⟩ := h
  have hanswer' : (perform state.db.ext (.sql (.getById id)) i w).1 = .ok (some row) := hanswer
  obtain ⟨-, hexec, -⟩ := perform_sql_ok hanswer'
  have hfind := List.find?_some hexec
  simpa using hfind

theorem obeys_retry (channel : String) (id : ℤ) (headers : HeaderMap) :
    HandlerObeys state (.retry channel id headers) := by
  have hreturned : ∀ past response, state.Settled (.request (.retry channel id headers)) past →
      state.Returned (.request (.retry channel id headers)) past response :=
    fun _ _ hsettled => ⟨hsettled, by simp⟩
  refine obeys_orRespond (fun _ _ => returned_of_noSend Quiet.nil.noSend (by simp)) fun _ _ => ?_
  refine obeys_orRespond (fun _ _ => returned_of_noSend Quiet.nil.noSend (by simp))
    fun target htarget => ?_
  have htarget' : state.target (.request (.retry channel id headers)) = some target.2 := by
    simp [AppState.target, htarget, Except.toOption]
  simp only [loadWebhookToRetry, Sqlite.getWebhook, CallProgram.bind_eq, CallProgram.bind_assoc,
    CallProgram.pure_eq, CallProgram.bind_pure_left]
  refine obeys_operation (fun new hnew => ⟨⟨channel, headers, rfl⟩, hnew.append Quiet.nil⟩) ?_ ?_
  · intro new row hanswer hnew
    have hsend : NoSend (⟨.sql (.getById id), .ok row⟩ :: (new ++ [])) :=
      (hnew.append Quiet.nil).noSend.cons rfl
    refine obeys_orRespond (fun _ _ => returned_of_noSend hsend (by simp)) fun webhook hloaded => ?_
    obtain ⟨hread, -⟩ := (checkLoaded_eq_ok).mp hloaded
    obtain ⟨r, rfl, hr⟩ := Option.bind_eq_some_iff.mp (Except.ok.inj hread)
    refine obeys_orRespond (fun _ _ => returned_of_noSend hsend (by simp))
      fun request hrequest => ?_
    have hid : webhook.id = some id := by
      rw [← id_of_answers_getById hanswer]
      exact (parseWebhookRow_eq_some hr).1
    have hready : ReadyToSend state _ webhook := ⟨hsend, _, List.mem_cons_self, r, rfl, hr⟩
    refine (obeys_retry_deliver rfl htarget' hready hid
      (posts_of_retry_buildRequest hrequest)).weaken (fun _ _ _ hP => hP) ?_
    exact fun past' response _ hsettled => hreturned past' (some response) hsettled
  · intro new e hnew _
    have hsend : NoSend (new ++ []) := (hnew.append Quiet.nil).noSend
    refine obeys_orRespond (fun _ _ => returned_of_noSend hsend (by simp)) fun webhook hloaded => ?_
    simp [checkLoaded] at hloaded

end Retry

/-! ## Every job -/

section Jobs

variable {state : AppState}

theorem handle_obeys (r : Request) : HandlerObeys state r := by
  cases r with
  | receive clientIp channel headers body => exact obeys_receive clientIp channel headers body
  | poll channel headers => exact obeys_poll channel headers
  | list channel headers => exact obeys_list channel headers
  | delete channel id headers => exact obeys_delete channel id headers
  | queue channel headers => exact obeys_queue channel headers
  | pause channel headers => exact obeys_setPaused true channel headers (by simp)
  | resume channel headers => exact obeys_setPaused false channel headers (by simp)
  | clear channel headers => exact obeys_clear channel headers
  | retry channel id headers => exact obeys_retry channel id headers

/-- **Every task keeps to the protocol of its job**, whatever its calls are answered. -/
theorem start_obeys (job : Job) :
    (state.start job).Obeys state.machine.Answers (state.Protocol job) (state.Returned job) [] := by
  have hidle : ∀ {job : Job} {past : List DoneCall}, state.Settled job past →
      (∀ channel headers, job ≠ .request (.poll channel headers)) →
      state.Returned job past none := fun hsettled hpoll =>
    ⟨hsettled, fun _ _ _ hjob => absurd hjob (hpoll _ _)⟩
  cases job with
  | refresh k =>
      simp only [start]
      cases hfw : state.forwarders[k]? with
      | none => exact returned_of_noSend Quiet.nil.noSend (by simp)
      | some fw =>
          simp only
          rw [CallProgram.obeys_bind]
          exact (obeys_refreshQueueSize Quiet.nil).weaken (fun _ _ _ hP => hP)
            fun _ _ _ hsend => returned_of_noSend hsend (by simp)
  | cycle k =>
      simp only [start]
      cases hfw : state.forwarders[k]? with
      | none => exact returned_of_noSend Quiet.nil.noSend (by simp)
      | some fw =>
          simp only
          rw [CallProgram.obeys_bind]
          exact (obeys_cycle hfw).weaken (fun _ _ _ hP => hP)
            fun _ _ _ hsettled => hidle hsettled (by simp)
  | request r =>
      simp only [start]
      rw [CallProgram.obeys_bind]
      exact handle_obeys r
  | reset id =>
      refine obeys_operation (fun _ _ => rfl) ?_ ?_
      · intro new a _ hnew
        exact returned_of_noSend ((hnew.append Quiet.nil).noSend.cons rfl) (by simp)
      · intro new e hnew _
        exact returned_of_noSend (hnew.append Quiet.nil).noSend (by simp)

end Jobs

end AppState
