/-
# Every answered request is one operation on the mailbox

The statements of a request that succeeded are its operations on the mailbox.  A request that is
answered has made at most one of them, and its answer is what that operation observed; a refusal
or an error has made none.  Only a manual retry makes two: it looks its webhook up and later,
after the target answered, discards it or holds it back.  With the refinement of the mailbox this
makes the API linearizable: the operations stand in the history between the start of their
request and its answer.
-/
import KaimanWebhooks.Admission
import KaimanWebhooks.Authorization
import KaimanWebhooks.Refinement

/-! ## What a letter is shown as -/

/-- The webhook that is read from the row of a letter. -/
def webhookOf (ext : External) (p : ℤ × Mail) : Webhook where
  id := some p.1
  channel := p.2.box
  headers := (ext.decodeHeaders p.2.content.1).toOption.getD StringMap.empty
  payload := p.2.content.2
  receivedAt := p.2.arrived
  forwardAttempts := p.2.failures
  lastAttemptAt := p.2.lastFailure.map Prod.fst
  lastAttemptError := p.2.lastFailure.map Prod.snd
  nextAttemptAt := p.2.heldUntil

/-- **The row of a letter can be read.** -/
theorem parseWebhookRow_rowOf (ext : External) (p : ℤ × Mail) :
    parseWebhookRow ext (rowOf p) = some (webhookOf ext p) := by
  obtain ⟨id, box, content, arrived, failures, lastFailure, heldUntil⟩ := p
  cases lastFailure <;> cases heldUntil <;>
    simp [parseWebhookRow, readWebhookRow, rowOf, webhookOf, optionCell, decodeText, decodeBytes,
      decodeInt, decodeOption, bind, Except.bind, pure, Except.pure, Except.map] <;>
    cases ext.decodeHeaders content.1 <;> rfl

theorem filterMap_parse_rowOf (ext : External) (found : List (ℤ × Mail)) :
    (found.map rowOf).filterMap (parseWebhookRow ext) = found.map (webhookOf ext) := by
  rw [List.filterMap_map]
  exact (List.filterMap_congr fun p _ => parseWebhookRow_rowOf ext p).trans
    (congrFun List.filterMap_eq_map' found)

/-! ## The operations of a task -/

/-- A statement that succeeded, with its answer. -/
abbrev Success : Type := (q : Query) × q.Answer

def successOf : DoneCall → Option Success
  | ⟨.sql q, .ok a⟩ => some ⟨q, a⟩
  | _ => none

/-- The statements that succeeded among the calls, in their order. -/
def successes (calls : List DoneCall) : List Success := calls.filterMap successOf

/-- The operations the successful statements are. -/
def AreShown (done : List Success) (ops : List MailOp) : Prop :=
  List.Forall₂ (fun s op => s.1.Shows s.2 op) done ops

theorem areShown_cons {s : Success} {done : List Success} {ops : List MailOp} :
    AreShown (s :: done) ops ↔
      ∃ op ops', s.1.Shows s.2 op ∧ AreShown done ops' ∧ ops = op :: ops' := by
  unfold AreShown
  exact List.forall₂_cons_left_iff

theorem areShown_nil {ops : List MailOp} : AreShown [] ops ↔ ops = [] :=
  List.forall₂_nil_left_iff

theorem successes_cons_ok {q : Query} {a : q.Answer} {past : List DoneCall} :
    successes (⟨.sql q, .ok a⟩ :: past) = ⟨q, a⟩ :: successes past := rfl

theorem successes_of_onlyFailed {q : Query} {new past : List DoneCall} (h : OnlyFailed q new) :
    successes (new ++ past) = successes past := by
  have hnone : new.filterMap successOf = [] := by
    refine List.filterMap_eq_nil_iff.mpr fun d hd => ?_
    rcases h d hd with htiming | ⟨e, rfl⟩
    · rcases d with ⟨c, r⟩
      cases c <;> first | rfl | cases htiming
    · rfl
  rw [successes, List.filterMap_append, hnone, List.nil_append, successes]

namespace AppState

variable (state : AppState)

/-- The items the queue view shows of the letters found. -/
def queueItems (found : List (ℤ × Mail)) : List QueueItemDto :=
  (found.map (webhookOf state.db.ext)).filterMap state.queueItemDto

/-- **What an answer says**: the operations of the request, newest first, and the response they
are answered with. -/
def AnsweredAs (r : Request) (ops : List MailOp) (resp : HttpResponse) : Prop :=
  (ops = [] ∧ 400 ≤ resp.status) ∨
  match r with
  | .receive _ channel headers body => ∃ id receivedAt,
      ops = [.accept id channel
        (state.db.headersJson (state.forwardedHeaders headers), body) receivedAt] ∧
      resp = .text 200 "OK"
  | .poll channel _ => ∃ found, ops = [.collect channel (some 1000) found] ∧
      resp = ⟨200, [], .webhooks ((found.map (webhookOf state.db.ext)).map state.webhookDto)⟩
  | .list channel _ => ∃ found, ops = [.survey channel true found] ∧
      resp = ⟨200, [], .listed
        ((found.map (webhookOf state.db.ext)).filterMap state.webhookListItemDto)⟩
  | .delete _ id _ => ∃ was, ops = [.discard id was] ∧ resp = .noContent
  | .queue channel _ => ∃ found, ∃ status : ChannelForwardStatus,
      ops = [.survey channel false found] ∧
      resp = ⟨200, [], .queue ⟨{ status with
        queueSize := (state.queueItems found).length
        nextAttemptAt := soonestDue (state.queueItems found) }, state.queueItems found⟩⟩
  | .clear channel _ => ∃ n, ops = [.clear channel n] ∧ resp = .noContent
  | .pause _ _ => ops = [] ∧ resp = .noContent
  | .resume _ _ => ops = [] ∧ resp = .noContent
  | .retry channel id _ => ∃ found,
      (ops = [.look id found] ∧ 400 ≤ resp.status) ∨
      ∃ l, found = some l ∧ l.box = channel ∧
        ((∃ code body, resp = RetryContext.result true (some code) none (some body) ∧
            (ops = [.look id found] ∨ ∃ was, ops = [.discard id was, .look id found])) ∨
          ∃ code error body, resp = RetryContext.result false code error body ∧
            (ops = [.look id found] ∨
              ∃ now why again was, ops = [.hold id now why again was, .look id found]))

/-- The calls of a request fit the response it is answered with. -/
def Fits (r : Request) (past : List DoneCall) (resp : HttpResponse) : Prop :=
  ∀ ops, AreShown (successes past) ops → state.AnsweredAs r ops resp

/-- What a handler owes its answers. -/
def HandlerFits (r : Request) : Prop :=
  (state.handle r).Obeys state.machine.Answers (fun _ _ => True) (state.Fits r) []

section Rules

variable {state} {r : Request}

/-- A request that made no operation is refused. -/
theorem fits_of_refused {past : List DoneCall} {resp : HttpResponse} (hpast : successes past = [])
    (hstatus : 400 ≤ resp.status) : state.Fits r past resp := by
  intro ops hshown
  rw [hpast, areShown_nil] at hshown
  exact Or.inl ⟨hshown, hstatus⟩

/-- **The rule for one operation**: it succeeds last or not at all. -/
theorem obeys_atomic {α β : Type} {db : Sqlite} {q : Query} {read : q.Answer → β}
    {f : Except WebhookRepositoryError β → AppAction α} {post : List DoneCall → α → Prop}
    {past : List DoneCall}
    (hok : ∀ past' a, successes past' = ⟨q, a⟩ :: successes past →
      (f (.ok (read a))).Obeys state.machine.Answers (fun _ _ => True) post past')
    (herr : ∀ past' e, successes past' = successes past →
      (f (.error e)).Obeys state.machine.Answers (fun _ _ => True) post past') :
    ((db.statement q read).bind f).Obeys state.machine.Answers (fun _ _ => True) post past := by
  refine Sqlite.obeys_bind_statement (fun _ _ _ => trivial) (fun _ _ => trivial) ?_ ?_
  · intro new a _ hnew
    exact hok _ a (by rw [successes_cons_ok, successes_of_onlyFailed hnew])
  · intro new e hnew _
    exact herr _ e (successes_of_onlyFailed hnew)

/-- The status of an error response. -/
theorem le_status_of_ofError (e : WebhookRepositoryError) :
    400 ≤ (HttpResponse.ofError e).status := by
  unfold HttpResponse.ofError
  split <;> simp [HttpResponse.storageBusy, HttpResponse.text]

theorem le_status_of_authorize {headers : HeaderMap} {channel : String} {resp : HttpResponse}
    (h : state.authorize headers channel = .error resp) : 400 ≤ resp.status := by
  rw [authorize_eq_result] at h
  cases hdecision : state.config.decisionFor headers channel <;>
    rw [hdecision] at h <;> cases h <;> simp [HttpResponse.text]

theorem le_status_of_findForwardTarget {channel : String} {resp : HttpResponse}
    (h : state.findForwardTarget channel = .error resp) : 400 ≤ resp.status := by
  unfold findForwardTarget at h
  split at h
  · cases h
    simp [HttpResponse.text]
  · split at h <;> cases h
    simp [HttpResponse.text]

theorem le_status_of_checkRequest {clientIp : IpAddr} {channel : String} {headers : HeaderMap}
    {body : Bytes} {resp : HttpResponse}
    (h : state.checkRequest clientIp channel headers body = .error resp) : 400 ≤ resp.status := by
  rcases state.checkRequest_cases clientIp channel headers body with ⟨-, hok⟩ | ⟨resp', he, href⟩
  · cases h.symm.trans hok
  · cases h.symm.trans he
    generalize resp.status = status at href ⊢
    cases href <;> simp

/-- **A handler of one operation**: refused by its checks, it makes none. -/
theorem fits_of_operation {β : Type} {q : Query} {read : q.Answer → β}
    {f : Except WebhookRepositoryError β → AppAction HttpResponse} {past : List DoneCall}
    (hpast : successes past = [])
    (hok : ∀ past' a, successes past' = [⟨q, a⟩] →
      (f (.ok (read a))).Obeys state.machine.Answers (fun _ _ => True) (state.Fits r) past')
    (herr : ∀ e, f (.error e) = .pure (.ofError e)) :
    ((state.db.statement q read).bind f).Obeys state.machine.Answers (fun _ _ => True)
      (state.Fits r) past := by
  refine obeys_atomic (fun past' a h => hok past' a (hpast ▸ h)) fun past' e h => ?_
  rw [herr e]
  exact fits_of_refused (h.trans hpast) (le_status_of_ofError e)

/-- The one operation of a request fits its answer. -/
theorem fits_of_success {past : List DoneCall} {q : Query} {a : q.Answer} {resp : HttpResponse}
    (hpast : successes past = [⟨q, a⟩])
    (h : ∀ op, q.Shows a op → state.AnsweredAs r [op] resp) : state.Fits r past resp := by
  intro ops hshown
  rw [hpast, areShown_cons] at hshown
  obtain ⟨op, _, hop, hnil, rfl⟩ := hshown
  rw [areShown_nil.mp hnil]
  exact h op hop

end Rules

/-! ## The handlers -/

section Handlers

variable {state}

theorem fits_receive (clientIp : IpAddr) (channel : String) (headers : HeaderMap) (body : Bytes) :
    state.HandlerFits (.receive clientIp channel headers body) := by
  refine obeys_orRespond (fun _ h => fits_of_refused rfl (le_status_of_checkRequest h))
    fun _ _ => ?_
  simp only [Sqlite.receiveWebhook, Sqlite.insert, CallProgram.bind_eq, CallProgram.bind_call,
    CallProgram.bind_pure_left]
  refine ⟨trivial, fun secs _ => fits_of_operation rfl ?_ fun _ => rfl⟩
  refine fun past' a hpast => fits_of_success hpast ?_
  rintro op rfl
  exact Or.inr ⟨a, _, rfl, rfl⟩

theorem fits_poll (channel : String) (headers : HeaderMap) :
    state.HandlerFits (.poll channel headers) := by
  refine obeys_orRespond (fun _ h => fits_of_refused rfl (le_status_of_authorize h)) fun _ _ => ?_
  refine fits_of_operation rfl (fun past' rows hpast => fits_of_success hpast ?_) fun _ => rfl
  rintro op ⟨found, rfl, rfl⟩
  rw [filterMap_parse_rowOf]
  exact Or.inr ⟨found, rfl, rfl⟩

theorem fits_list (channel : String) (headers : HeaderMap) :
    state.HandlerFits (.list channel headers) := by
  refine obeys_orRespond (fun _ h => fits_of_refused rfl (le_status_of_authorize h)) fun _ _ => ?_
  refine fits_of_operation rfl (fun past' rows hpast => fits_of_success hpast ?_) fun _ => rfl
  rintro op ⟨found, rfl, rfl⟩
  rw [filterMap_parse_rowOf]
  exact Or.inr ⟨found, rfl, rfl⟩

theorem fits_delete (channel : String) (id : ℤ) (headers : HeaderMap) :
    state.HandlerFits (.delete channel id headers) := by
  refine obeys_orRespond (fun _ h => fits_of_refused rfl (le_status_of_authorize h)) fun _ _ => ?_
  refine fits_of_operation rfl (fun past' rows hpast => fits_of_success hpast ?_) fun _ => rfl
  rintro op ⟨was, -, rfl⟩
  exact Or.inr ⟨was, rfl, rfl⟩

theorem fits_queue (channel : String) (headers : HeaderMap) :
    state.HandlerFits (.queue channel headers) := by
  refine obeys_orRespond (fun _ h => fits_of_refused rfl (le_status_of_authorize h)) fun _ _ => ?_
  refine obeys_orRespond (fun _ h => fits_of_refused rfl (le_status_of_findForwardTarget h))
    fun _ _ => ?_
  refine fits_of_operation rfl (fun past' rows hpast => ?_) fun _ => rfl
  -- the status is read after the statement
  refine ⟨trivial, fun status _ => fits_of_success hpast ?_⟩
  rintro op ⟨found, rfl, rfl⟩
  rw [filterMap_parse_rowOf]
  exact Or.inr ⟨found, status.getD .new, rfl, rfl⟩

theorem fits_clear (channel : String) (headers : HeaderMap) :
    state.HandlerFits (.clear channel headers) := by
  refine obeys_orRespond (fun _ h => fits_of_refused rfl (le_status_of_authorize h)) fun _ _ => ?_
  refine fits_of_operation rfl (fun past' rows hpast => ?_) fun _ => rfl
  refine ⟨trivial, fun registered _ => fits_of_success hpast ?_⟩
  rintro op rfl
  exact Or.inr ⟨_, rfl, rfl⟩

theorem fits_setPaused (paused : Bool) (channel : String) (headers : HeaderMap) {r : Request}
    (hr : ∀ resp : HttpResponse, resp = .noContent → state.AnsweredAs r [] resp) :
    (state.setPausedRoute paused channel headers).Obeys state.machine.Answers (fun _ _ => True)
      (state.Fits r) [] := by
  refine obeys_orRespond (fun _ h => fits_of_refused rfl (le_status_of_authorize h)) fun _ _ => ?_
  refine ⟨trivial, fun registered _ => ?_⟩
  cases registered with
  | false => exact fits_of_refused rfl (by simp [HttpResponse.text])
  | true =>
      rintro ops ⟨⟩
      exact hr _ rfl

end Handlers

/-! ## The manual retry -/

section Retry

variable {state} {channel : String} {id : ℤ} {headers : HeaderMap}

/-- The letter a manual retry has looked up. -/
theorem exists_mail_of_look {row : Option Row} {found : Option Mail} {webhook : Webhook}
    (hrow : row = found.map fun l => rowOf (id, l))
    (hread : row.bind (parseWebhookRow state.db.ext) = some webhook) :
    ∃ l, found = some l ∧ l.box = webhook.channel := by
  subst hrow
  cases found with
  | none => cases hread
  | some l =>
      rw [Option.map_some, Option.bind_some, parseWebhookRow_rowOf] at hread
      cases hread
      exact ⟨l, rfl, rfl⟩

/-- Recording a failure stores it or leaves everything as it is. -/
theorem obeys_recorded {ctx : RetryContext} {kind : FailureKind} {retryAfter : Option Duration}
    {message : String} {f : Unit → AppAction HttpResponse}
    {post : List DoneCall → HttpResponse → Prop} {past : List DoneCall}
    (hf : ∀ past', (successes past' = successes past ∨ ∃ now next n,
      successes past' = ⟨.recordForwardFailure now message next ctx.webhookId, n⟩ ::
        successes past) →
      (f ()).Obeys state.machine.Answers (fun _ _ => True) post past') :
    ((ctx.recordFailure kind retryAfter message).bind f).Obeys state.machine.Answers
      (fun _ _ => True) post past := by
  rw [RetryContext.recordFailure_eq, recordFailureThen_bind]
  unfold recordFailureThen
  refine ⟨trivial, fun nanos _ => ?_⟩
  dsimp only
  split
  · trivial
  · refine ⟨trivial, fun secs _ => ⟨trivial, fun secs' _ => obeys_atomic ?_ ?_⟩⟩
    · intro past' n hpast
      exact ⟨trivial, fun _ _ => ⟨trivial, fun _ _ => hf _ (Or.inr ⟨_, _, n, hpast⟩)⟩⟩
    · intro past' e hpast
      exact ⟨trivial, fun _ _ => ⟨trivial, fun _ _ => hf _ (Or.inl hpast)⟩⟩

/-- Forgetting a delivered webhook discards it or leaves everything as it is. -/
theorem obeys_forgotten {ctx : RetryContext} {f : Unit → AppAction HttpResponse}
    {post : List DoneCall → HttpResponse → Prop} {past : List DoneCall}
    (hf : ∀ past', (successes past' = successes past ∨ ∃ n,
      successes past' = ⟨.deleteById ctx.webhookId, n⟩ :: successes past) →
      (f ()).Obeys state.machine.Answers (fun _ _ => True) post past') :
    (ctx.forgetDelivered.bind f).Obeys state.machine.Answers (fun _ _ => True) post past := by
  simp only [RetryContext.forgetDelivered, Sqlite.deleteWebhook, Sqlite.deleteById,
    CallProgram.bind_eq, CallProgram.pure_eq, CallProgram.bind_assoc]
  refine obeys_atomic ?_ ?_
  · intro past' n hpast
    exact ⟨trivial, fun _ _ => ⟨trivial, fun _ _ => hf _ (Or.inr ⟨n, hpast⟩)⟩⟩
  · intro past' e hpast
    exact ⟨trivial, fun _ _ => ⟨trivial, fun _ _ => hf _ (Or.inl hpast)⟩⟩

variable {row : Option Row} {webhook : Webhook} {past : List DoneCall}
  (hread : row.bind (parseWebhookRow state.db.ext) = some webhook)
  (hchannel : webhook.channel = channel)

include hread hchannel

/-- What was looked up stands before everything else a retry did. -/
theorem exists_look_of_areShown (done : List Success) {ops : List MailOp}
    (hshown : AreShown (done ++ [⟨.getById id, row⟩]) ops) :
    ∃ l ops', l.box = channel ∧ AreShown done ops' ∧ ops = ops' ++ [.look id (some l)] := by
  induction done generalizing ops with
  | nil =>
      obtain ⟨op, ops', ⟨found, hrow, rfl⟩, hnil, rfl⟩ := areShown_cons.mp hshown
      obtain ⟨l, rfl, hbox⟩ := exists_mail_of_look hrow hread
      exact ⟨l, [], hbox.trans hchannel, areShown_nil.mpr rfl, by rw [areShown_nil.mp hnil]; rfl⟩
  | cons s done ih =>
      obtain ⟨op, ops', hop, hrest, rfl⟩ := areShown_cons.mp hshown
      obtain ⟨l, ops'', hbox, hdone, rfl⟩ := ih hrest
      exact ⟨l, op :: ops'', hbox, areShown_cons.mpr ⟨op, ops'', hop, hdone, rfl⟩, rfl⟩

/-- A retry that failed held its webhook back, if the failure could be stored. -/
theorem fits_failed {message : String} {code : Option ℕ} {error body : Option String}
    (hpast : successes past = [⟨.getById id, row⟩] ∨ ∃ now next n,
      successes past = [⟨.recordForwardFailure now message next id, n⟩, ⟨.getById id, row⟩]) :
    state.Fits (.retry channel id headers) past (RetryContext.result false code error body) := by
  intro ops hshown
  rcases hpast with hpast | ⟨now, next, n, hpast⟩
  · rw [hpast] at hshown
    obtain ⟨l, ops', hbox, hnil, rfl⟩ := exists_look_of_areShown hread hchannel [] hshown
    rw [areShown_nil.mp hnil]
    exact Or.inr ⟨some l, Or.inr ⟨l, rfl, hbox, Or.inr ⟨code, error, body, rfl, Or.inl rfl⟩⟩⟩
  · rw [hpast] at hshown
    obtain ⟨l, ops', hbox, hone, rfl⟩ := exists_look_of_areShown hread hchannel
      [⟨.recordForwardFailure now message next id, n⟩] hshown
    obtain ⟨op, _, ⟨was, -, rfl⟩, hnil, rfl⟩ := areShown_cons.mp hone
    rw [areShown_nil.mp hnil]
    exact Or.inr ⟨some l, Or.inr ⟨l, rfl, hbox, Or.inr ⟨code, error, body, rfl,
      Or.inr ⟨now, message, next, was, rfl⟩⟩⟩⟩

/-- A retry that was accepted discarded its webhook, if it could be deleted. -/
theorem fits_delivered {code : ℕ} {body : String}
    (hpast : successes past = [⟨.getById id, row⟩] ∨ ∃ n,
      successes past = [⟨.deleteById id, n⟩, ⟨.getById id, row⟩]) :
    state.Fits (.retry channel id headers) past
      (RetryContext.result true (some code) none (some body)) := by
  intro ops hshown
  rcases hpast with hpast | ⟨n, hpast⟩
  · rw [hpast] at hshown
    obtain ⟨l, ops', hbox, hnil, rfl⟩ := exists_look_of_areShown hread hchannel [] hshown
    rw [areShown_nil.mp hnil]
    exact Or.inr ⟨some l, Or.inr ⟨l, rfl, hbox, Or.inl ⟨code, body, rfl, Or.inl rfl⟩⟩⟩
  · rw [hpast] at hshown
    obtain ⟨l, ops', hbox, hone, rfl⟩ := exists_look_of_areShown hread hchannel
      [⟨.deleteById id, n⟩] hshown
    obtain ⟨op, _, ⟨was, -, rfl⟩, hnil, rfl⟩ := areShown_cons.mp hone
    rw [areShown_nil.mp hnil]
    exact Or.inr ⟨some l, Or.inr ⟨l, rfl, hbox, Or.inl ⟨code, body, rfl, Or.inr ⟨was, rfl⟩⟩⟩⟩

/-- The delivery of a webhook that was looked up. -/
theorem fits_deliver {ctx : RetryContext} (request : HttpRequest) (hid : ctx.webhookId = id)
    (hpast : successes past = [⟨.getById id, row⟩]) :
    (ctx.deliver request).Obeys state.machine.Answers (fun _ _ => True)
      (state.Fits (.retry channel id headers)) past := by
  subst hid
  refine ⟨trivial, fun answer _ => ?_⟩
  have hsent : successes (⟨.send (some ctx.webhook) request, answer⟩ :: past) =
      [⟨.getById ctx.webhookId, row⟩] := hpast
  have hfailed : ∀ kind retryAfter message code error body,
      ((ctx.recordFailure kind retryAfter message).bind fun _ =>
        CallProgram.pure (RetryContext.result false code error body)).Obeys state.machine.Answers
          (fun _ _ => True) (state.Fits (.retry channel ctx.webhookId headers))
          (⟨.send (some ctx.webhook) request, answer⟩ :: past) := by
    intro kind retryAfter message code error body
    refine obeys_recorded fun past' hpast' => ?_
    rw [hsent] at hpast'
    exact fits_failed hread hchannel hpast'
  cases answer with
  | error cause => exact hfailed _ _ _ _ _ _
  | ok resp =>
      show (RetryContext.onResponse ctx resp).Obeys _ _ _ _
      rw [RetryContext.onResponse]
      split
      · exact hfailed _ _ _ _ _ _
      · refine obeys_forgotten fun past' hpast' => ?_
        rw [hsent] at hpast'
        exact fits_delivered hread hchannel hpast'

end Retry

/-- The status of a refusal to build the request. -/
theorem le_status_of_buildRequest {ctx : RetryContext} {resp : HttpResponse}
    (h : ctx.buildRequest = .error resp) : 400 ≤ resp.status := by
  unfold RetryContext.buildRequest at h
  split at h
  · cases h
  · cases hsign : ctx.sign ctx.webhook.payload with
    | ok value => simp [hsign, Except.map] at h
    | error resp' =>
        simp only [hsign, Except.map, Except.error.injEq] at h
        subst h
        unfold RetryContext.sign at hsign
        split at hsign
        · cases hsign
          simp [HttpResponse.text]
        · dsimp only at hsign
          split at hsign
          · cases hsign
          · split at hsign <;> cases hsign
            simp [HttpResponse.text]

theorem le_status_of_checkLoaded {channel : String}
    {loaded : Except WebhookRepositoryError (Option Webhook)} {resp : HttpResponse}
    (h : checkLoaded channel loaded = .error resp) : 400 ≤ resp.status := by
  unfold checkLoaded at h
  split at h
  · cases h
    exact le_status_of_ofError _
  · cases h
    simp [HttpResponse.text]
  · split at h <;> cases h
    simp [HttpResponse.text]

theorem fits_retry (channel : String) (id : ℤ) (headers : HeaderMap) :
    state.HandlerFits (.retry channel id headers) := by
  refine obeys_orRespond (fun _ h => fits_of_refused rfl (le_status_of_authorize h)) fun _ _ => ?_
  refine obeys_orRespond (fun _ h => fits_of_refused rfl (le_status_of_findForwardTarget h))
    fun target _ => ?_
  simp only [loadWebhookToRetry, Sqlite.getWebhook, Sqlite.getById, CallProgram.bind_eq,
    CallProgram.bind_assoc, CallProgram.pure_eq, CallProgram.bind_pure_left]
  refine obeys_atomic (fun past' row hpast => ?_) fun past' e hpast => ?_
  · have hlooked : ∀ resp : HttpResponse, 400 ≤ resp.status →
        state.Fits (.retry channel id headers) past' resp := by
      intro resp hstatus
      refine fits_of_success hpast ?_
      rintro op ⟨found, -, rfl⟩
      exact Or.inr ⟨found, Or.inl ⟨rfl, hstatus⟩⟩
    refine obeys_orRespond (fun _ h => hlooked _ (le_status_of_checkLoaded h))
      fun webhook hloaded => ?_
    obtain ⟨hread, hchannel⟩ := checkLoaded_eq_ok.mp hloaded
    refine obeys_orRespond (fun _ h => hlooked _ (le_status_of_buildRequest h)) fun request _ => ?_
    exact fits_deliver (Except.ok.inj hread) hchannel request rfl hpast
  · exact fits_of_refused hpast (le_status_of_ofError e)

/-- Every handler fits its answers. -/
theorem handle_fits (r : Request) : state.HandlerFits r := by
  cases r with
  | receive clientIp channel headers body => exact fits_receive clientIp channel headers body
  | poll channel headers => exact fits_poll channel headers
  | list channel headers => exact fits_list channel headers
  | delete channel id headers => exact fits_delete channel id headers
  | queue channel headers => exact fits_queue channel headers
  | pause channel headers =>
      exact fits_setPaused true channel headers fun _ hresp => Or.inr ⟨rfl, hresp⟩
  | resume channel headers =>
      exact fits_setPaused false channel headers fun _ hresp => Or.inr ⟨rfl, hresp⟩
  | clear channel headers => exact fits_clear channel headers
  | retry channel id headers => exact fits_retry state channel id headers

/-- A task that is no request has nothing to answer. -/
theorem start_fits (job : Job) :
    (state.start job).Obeys state.machine.Answers (fun _ _ => True)
      (fun past answer => ∀ r resp, job = .request r → answer = some resp →
        state.Fits r past resp) [] := by
  cases job with
  | request r =>
      simp only [start]
      rw [CallProgram.obeys_bind]
      refine (handle_fits state r).weaken (fun _ _ _ hP => hP) ?_
      rintro past resp - hfits r' resp' hr hresp
      cases hr
      cases hresp
      exact hfits
  | refresh k => exact CallProgram.obeys_of_forall (fun _ _ => trivial) (by simp) _
  | cycle k => exact CallProgram.obeys_of_forall (fun _ _ => trivial) (by simp) _
  | reset id => exact CallProgram.obeys_of_forall (fun _ _ => trivial) (by simp) _

end AppState

/-! ## Requests in a history -/

/-- The operations of a task, newest first: those of its statements that succeeded. -/
def taskOps (n : ℕ) (es : List ServiceEntry) (ops : List MailOp) : List MailOp :=
  ((es.zip ops).filter fun p => p.1.task = n && (successOf p.1.done).isSome).map Prod.snd

/-- A statement that succeeded is the operation it shows. -/
theorem shows_of_successOf {d : DoneCall} {op : MailOp} {s : Success} (h : Shows d op)
    (hs : successOf d = some s) : s.1.Shows s.2 op := by
  unfold successOf at hs
  split at hs
  · cases hs
    exact h
  · cases hs

/-- The operations of a task are its statements that succeeded. -/
theorem Simulates.areShown {es older : List ServiceEntry} {ops : List MailOp}
    (h : Simulates (es ++ older) ops) (n : ℕ) :
    AreShown (successes ((es.filter fun e => e.task = n).map Entry.done)) (taskOps n es ops) := by
  induction es generalizing ops with
  | nil => exact areShown_nil.mpr rfl
  | cons e es ih =>
      cases h with
      | @cons _ _ op ops hrest _ hshows _ _ =>
          have htail := ih hrest
          unfold taskOps at htail ⊢
          rw [List.zip_cons_cons]
          by_cases htask : e.task = n
          · cases hs : successOf e.done with
            | none => simpa [successes, htask, hs] using htail
            | some s =>
                have hone := shows_of_successOf hshows hs
                simpa [successes, htask, hs] using
                  areShown_cons.mpr ⟨op, _, hone, htail, rfl⟩
          · simpa [htask] using htail

namespace AppState

/-- An answered request of the running process has the operations its answer tells of. -/
theorem Lives.answeredAs {state : AppState} {l : ServiceLives} (h : state.Lives l)
    {ops : List MailOp} (hsimulates : Simulates l.history ops) {n : ℕ} {t : ServiceTask}
    {r : Request} {resp : HttpResponse} (ht : l.current.tasks[n]? = some t)
    (hjob : t.job = .request r) (hrest : t.rest = .pure (some resp)) :
    state.AnsweredAs r (taskOps n l.current.history ops) resp := by
  have hreaches := TaskMachine.Outlives.reaches h
  have hfits := hreaches.returned_allowed rfl (start_fits state) (List.mem_of_getElem? ht) hrest
  rw [hreaches.past_eq rfl rfl ht] at hfits
  exact hfits r resp hjob rfl _ (hsimulates.areShown n)

/-- **Every answered request is one operation on the mailbox.**  Over any number of restarts the
history of the service is a lawful history of the mailbox; and in it every request that any of the
processes answered, `past` being the lives at or after the answer, has the operations its answer
tells of, each between its start and its answer. -/
theorem answered_requests_are_operations (state : AppState) {l : ServiceLives}
    (h : state.Lives l) :
    (∃ ops, Simulates l.history ops) ∧
    ∀ ops, Simulates l.history ops → Mailbox.Lawful ops ∧
      ∀ (past : ServiceLives) newer, state.Lives past → l.history = newer ++ past.history →
        ∀ n t r resp, past.current.tasks[n]? = some t → t.job = .request r →
          t.rest = .pure (some resp) →
            state.AnsweredAs r (taskOps n past.current.history (ops.drop newer.length)) resp := by
  obtain ⟨ops, hsimulates, -⟩ := h.exists_simulates
  refine ⟨⟨ops, hsimulates⟩, fun ops hsimulates => ⟨hsimulates.lawful, ?_⟩⟩
  intro past newer hpast hhistory n t r resp ht hjob hrest
  rw [hhistory] at hsimulates
  obtain ⟨ops₁, ops₂, rfl, hlength, hearlier⟩ := hsimulates.of_append
  rw [List.drop_left' hlength]
  exact hpast.answeredAs hearlier ht hjob hrest

/-- A process stores a webhook, sends it and is killed; the next one polls it, stores another one
and polls that.  The receive of the first process and the three requests of the second are
operations of one history. -/
theorem answered_requests_are_operations_small :
    ∃ (l past : ServiceLives) (newer : List ServiceEntry) (ops : List MailOp), small.Lives l ∧
      small.Lives past ∧ l.history = newer ++ past.history ∧ l.restarts = 1 ∧
      past.restarts = 0 ∧ answeredStatuses past.current = [200] ∧
      answeredStatuses l.current = [200, 200, 200] ∧ Mailbox.Lawful ops ∧
      (∀ n t r resp, past.current.tasks[n]? = some t → t.job = .request r →
        t.rest = .pure (some resp) →
          small.AnsweredAs r (taskOps n past.current.history (ops.drop newer.length)) resp) ∧
      ∀ n t r resp, l.current.tasks[n]? = some t → t.job = .request r →
        t.rest = .pure (some resp) →
          small.AnsweredAs r (taskOps n l.current.history ops) resp := by
  have hrun : ∃ s, small.machine.runEvents small.initial killedRun = some s ∧
      answeredStatuses s = [200] ∧
      ∃ s', small.machine.runEvents (.fresh (small.restarted s.shared)) pollingRun = some s' ∧
        answeredStatuses s' = [200, 200, 200] := by
    decide +kernel
  obtain ⟨s, hs, hanswered, s', hs', hanswered'⟩ := hrun
  obtain ⟨hlives, hall⟩ := lives_of_runEvents hs hs'
  have hpast : small.Lives ⟨[], small.initial.shared, s⟩ :=
    .first (TaskMachine.reaches_of_runEvents hs fun _ _ _ => trivial)
  obtain ⟨⟨ops, hsimulates⟩, hfor⟩ := answered_requests_are_operations small hlives
  obtain ⟨hlawful, hanswers⟩ := hfor ops hsimulates
  have hhistory : Lifetimes.history ⟨[s.history], small.restarted s.shared, s'⟩ =
      s'.history ++ Lifetimes.history ⟨[], small.initial.shared, s⟩ := by
    simp [Lifetimes.history]
  exact ⟨_, _, s'.history, ops, hlives, hpast, hhistory, rfl, rfl, hanswered, hanswered', hlawful,
    hanswers _ _ hpast hhistory, hanswers _ [] hlives rfl⟩

end AppState
