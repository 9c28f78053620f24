/-
# The protocol of the tasks

Which calls a task of the service may make, given the calls it has made, and what holds
when it returns.  Every handler and every turn of a forwarder keeps to this protocol
whatever its calls are answered (`start_obeys`), so it holds of every task in every
interleaving.
-/
import KaimanWebhooks.Service

/-! ## Loading, sending, accepting -/

/-- The row a call loaded in order to attempt its delivery. -/
def loadedRow : DoneCall → Option Row
  | ⟨.sql (.peekOldestDueByChannel _ _), .ok row⟩ => row
  | ⟨.sql (.getById _), .ok row⟩ => row
  | _ => none

/-- What a peek that found a row was answered. -/
theorem eq_ok_of_loadedRow {channel : WebhookChannel} {now : ℤ}
    {answer : Call.Answer Query.Answer (.sql (.peekOldestDueByChannel channel now))} {row : Row}
    (h : loadedRow ⟨.sql (.peekOldestDueByChannel channel now), answer⟩ = some row) :
    answer = .ok (some row) := by
  cases answer with
  | error e => cases h
  | ok found =>
      obtain rfl : found = some row := h
      rfl

/-- The call sent a request. -/
def isSend : DoneCall → Bool
  | ⟨.send _ _, _⟩ => true
  | _ => false

namespace AppState

variable (state : AppState)

/-- The target whose `expectedStatus` a job goes by. -/
def target : Job → Option WebhookForwardConfig
  | .cycle k => (state.forwarders[k]?).map Forwarder.cfg
  | .request (.retry channel _ _) => (state.findForwardTarget channel).toOption.map Prod.snd
  | _ => none

/-- The call sent a request built from the webhook with an id, and the answer counts as
delivery. -/
def accepted (job : Job) (id : ℤ) : DoneCall → Prop
  | ⟨.send (some webhook) _, .ok resp⟩ =>
      webhook.id = some id ∧ ∃ fwd, state.target job = some fwd ∧ resp.status = fwd.expectedStatus
  | _ => False

/-- The call sent a request built from the webhook with an id. -/
def attempted (id : ℤ) : DoneCall → Prop
  | ⟨.send (some webhook) _, _⟩ => webhook.id = some id
  | _ => False

/-- A request built from a webhook is a POST of its payload. -/
def Posts (webhook : Webhook) (request : HttpRequest) : Prop :=
  request.method = .post ∧ request.body = webhook.payload

/-- **The protocol of a job**: which calls it may make after the calls `past`.

Only the handlers of the routes of that name store, poll, clear and name an id to delete.
A webhook is sent by the task that loaded its row, at most once; its row is deleted after
an answer that counts as delivery, and updated after any other outcome. -/
def Protocol (job : Job) (past : List DoneCall) : Call Query → Prop
  | .sql (.insert channel headersJson payload _) =>
      ∃ clientIp headers, job = .request (.receive clientIp channel headers payload) ∧
        headersJson = state.db.headersJson (state.forwardedHeaders headers)
  | .sql (.readAndDeleteByChannel channel limit) =>
      limit = Sqlite.readLimit ∧ ∃ headers, job = .request (.poll channel headers)
  | .sql (.peekOldestDueByChannel channel _) =>
      (∃ k fw, job = .cycle k ∧ state.forwarders[k]? = some fw ∧ fw.channel = channel) ∧
        ∀ d ∈ past, loadedRow d = none ∧ isSend d = false
  | .sql (.getById id) =>
      (∃ channel headers, job = .request (.retry channel id headers)) ∧
        ∀ d ∈ past, loadedRow d = none ∧ isSend d = false
  | .sql (.deleteById id) =>
      (∃ channel headers, job = .request (.delete channel id headers)) ∨
        ∃ d ∈ past, state.accepted job id d
  | .sql (.recordForwardFailure _ _ _ id) =>
      (∃ d ∈ past, attempted id d) ∧ ∀ d ∈ past, ¬state.accepted job id d
  | .sql (.clearByChannel channel) => ∃ headers, job = .request (.clear channel headers)
  | .sql (.resetForwardAttempts id) => job = .reset id
  | .send about request =>
      (∀ d ∈ past, isSend d = false) ∧
        ∃ webhook, about = some webhook ∧ Posts webhook request ∧
          ∃ d ∈ past, ∃ row, loadedRow d = some row ∧
            parseWebhookRow state.db.ext row = some webhook
  | _ => True

/-- Every webhook whose delivery was accepted has been followed by an attempt to delete its
row. -/
def Settled (job : Job) (past : List DoneCall) : Prop :=
  ∀ id, (∃ d ∈ past, state.accepted job id d) →
    ∃ result, (⟨.sql (.deleteById id), result⟩ : DoneCall) ∈ past

/-- What holds when a task returns: a webhook whose delivery was accepted was not left
without an attempt to delete its row, and a poll that was answered 200 handed out what its
statement returned. -/
def Returned (job : Job) (past : List DoneCall) (response : Option HttpResponse) : Prop :=
  state.Settled job past ∧
  (∀ channel headers resp, job = .request (.poll channel headers) → response = some resp →
    resp.status = 200 →
      ∃ rows,
        (⟨.sql (.readAndDeleteByChannel channel Sqlite.readLimit), .ok rows⟩ : DoneCall) ∈ past ∧
        resp = ⟨200, [], .webhooks ((rows.filterMap (parseWebhookRow state.db.ext)).map
          state.webhookDto)⟩)

/-! ## Calls that neither load nor send -/

/-- None of the calls loaded a row or sent a request. -/
def Quiet (calls : List DoneCall) : Prop :=
  ∀ d ∈ calls, loadedRow d = none ∧ isSend d = false

/-- None of the calls sent a request. -/
def NoSend (calls : List DoneCall) : Prop := ∀ d ∈ calls, isSend d = false

section Calls

variable {state : AppState} {job : Job} {past new : List DoneCall}

/-- What was accepted was sent. -/
theorem exists_send_of_accepted {id : ℤ} {d : DoneCall} (h : state.accepted job id d) :
    ∃ webhook request resp fwd, d = ⟨.send (some webhook) request, .ok resp⟩ ∧
      webhook.id = some id ∧ state.target job = some fwd ∧ resp.status = fwd.expectedStatus := by
  unfold accepted at h
  split at h
  · obtain ⟨hid, fwd, htarget, hstatus⟩ := h
    exact ⟨_, _, _, fwd, rfl, hid, htarget, hstatus⟩
  · exact h.elim

theorem exists_send_of_attempted {id : ℤ} {d : DoneCall} (h : attempted id d) :
    ∃ webhook request answer, d = ⟨.send (some webhook) request, answer⟩ ∧
      webhook.id = some id := by
  unfold attempted at h
  split at h
  · exact ⟨_, _, _, rfl, h⟩
  · exact h.elim

theorem isSend_of_accepted {id : ℤ} {d : DoneCall} (h : state.accepted job id d) :
    isSend d = true := by
  obtain ⟨_, _, _, _, rfl, -⟩ := exists_send_of_accepted h
  rfl

/-- Clock readings and pauses are always permitted. -/
theorem protocol_of_isTiming {c : Call Query} (h : c.isTiming = true) :
    state.Protocol job past c := by
  cases c <;> trivial

theorem quiet_of_isTiming {d : DoneCall} (h : d.1.isTiming = true) :
    loadedRow d = none ∧ isSend d = false := by
  rcases d with ⟨c, r⟩
  cases c <;> first | exact ⟨rfl, rfl⟩ | cases h

theorem quiet_of_onlyFailed {q : Query} (h : OnlyFailed q new) : Quiet new := by
  intro d hd
  rcases h d hd with htiming | ⟨e, rfl⟩
  · exact quiet_of_isTiming htiming
  · cases q <;> exact ⟨rfl, rfl⟩

theorem Quiet.nil : Quiet [] := by simp [Quiet]

theorem Quiet.noSend (h : Quiet past) : NoSend past := fun d hd => (h d hd).2

theorem Quiet.append (h₁ : Quiet new) (h₂ : Quiet past) : Quiet (new ++ past) := fun d hd =>
  (List.mem_append.mp hd).elim (h₁ d) (h₂ d)

theorem Quiet.cons {d : DoneCall} (hd : loadedRow d = none ∧ isSend d = false) (h : Quiet past) :
    Quiet (d :: past) := List.forall_mem_cons.mpr ⟨hd, h⟩

theorem NoSend.cons {d : DoneCall} (hd : isSend d = false) (h : NoSend past) :
    NoSend (d :: past) := List.forall_mem_cons.mpr ⟨hd, h⟩

theorem NoSend.append (h₁ : NoSend new) (h₂ : NoSend past) : NoSend (new ++ past) := fun d hd =>
  (List.mem_append.mp hd).elim (h₁ d) (h₂ d)

theorem NoSend.not_accepted (h : NoSend past) {id : ℤ} : ¬∃ d ∈ past, state.accepted job id d := by
  rintro ⟨d, hd, hacc⟩
  have hsend := h d hd
  rw [isSend_of_accepted hacc] at hsend
  cases hsend

/-! ## One operation -/

/-- **The rule for one operation of the adapter** within a program: it makes quiet calls and
then, if it succeeds, the one successful attempt of its statement. -/
theorem obeys_operation {α β : Type} {db : Sqlite} {q : Query} {read : q.Answer → β}
    {f : Except WebhookRepositoryError β → AppAction α} {post : List DoneCall → α → Prop}
    (hsql : ∀ new, Quiet new → state.Protocol job (new ++ past) (.sql q))
    (hok : ∀ new a, state.machine.Answers (.sql q) (.ok a) → Quiet new →
      (f (.ok (read a))).Obeys state.machine.Answers (state.Protocol job) post
        (⟨.sql q, .ok a⟩ :: (new ++ past)))
    (herr : ∀ new e, Quiet new → (∃ e', (⟨.sql q, .error e'⟩ : DoneCall) ∈ new) →
      (f (.error e)).Obeys state.machine.Answers (state.Protocol job) post (new ++ past)) :
    ((db.statement q read).bind f).Obeys state.machine.Answers (state.Protocol job) post past := by
  apply Sqlite.obeys_bind_statement (fun _ _ => protocol_of_isTiming)
  · exact fun new hnew => hsql new (quiet_of_onlyFailed hnew)
  · exact fun new a ha hnew => hok new a ha (quiet_of_onlyFailed hnew)
  · exact fun new e hnew hfailed => herr new e (quiet_of_onlyFailed hnew) hfailed

/-- A task that sent nothing owes nothing when it returns, unless it is a poll. -/
theorem returned_of_noSend {response : Option HttpResponse} (hsend : NoSend past)
    (hpoll : ∀ channel headers, job ≠ .request (.poll channel headers)) :
    state.Returned job past response :=
  ⟨fun _ h => absurd h hsend.not_accepted, fun _ _ _ hjob => absurd hjob (hpoll _ _)⟩

end Calls

/-! ## The handlers that send nothing -/

section Handlers

variable {state : AppState}

/-- A check that fails answers at once. -/
theorem obeys_orRespond {α : Type} {P : List DoneCall → Call Query → Prop}
    {post : List DoneCall → HttpResponse → Prop} {past : List DoneCall}
    {check : Except HttpResponse α} {next : α → AppAction HttpResponse}
    (herr : ∀ response, check = .error response → post past response)
    (hok : ∀ a, check = .ok a → (next a).Obeys state.machine.Answers P post past) :
    (orRespond check next).Obeys state.machine.Answers P post past := by
  cases hc : check with
  | error response => exact herr response hc
  | ok a => exact hok a hc

/-- An operation whose result is answered at once. -/
theorem obeys_answer {β : Type} {job : Job} {past : List DoneCall} {q : Query}
    {read : q.Answer → β} {f : Except WebhookRepositoryError β → AppAction HttpResponse}
    (hf : ∀ result, ∃ response, f result = .pure response) (hpast : Quiet past)
    (hpoll : ∀ channel headers, job ≠ .request (.poll channel headers))
    (hsql : ∀ new, Quiet new → state.Protocol job new (.sql q)) :
    ((state.db.statement q read).bind f).Obeys state.machine.Answers (state.Protocol job)
      (fun past response => state.Returned job past (some response)) past := by
  refine obeys_operation (fun new hnew => hsql _ (hnew.append hpast)) ?_ ?_
  · intro new a _ hnew
    obtain ⟨response, hresponse⟩ := hf (.ok (read a))
    rw [hresponse]
    exact returned_of_noSend ((hnew.append hpast).noSend.cons rfl) hpoll
  · intro new e hnew _
    obtain ⟨response, hresponse⟩ := hf (.error e)
    rw [hresponse]
    exact returned_of_noSend (hnew.append hpast).noSend hpoll

/-- What a handler owes the protocol, for a request `r`. -/
def HandlerObeys (state : AppState) (r : Request) : Prop :=
  (state.handle r).Obeys state.machine.Answers (state.Protocol (.request r))
    (fun past response => state.Returned (.request r) past (some response)) []

theorem obeys_receive (clientIp : IpAddr) (channel : String) (headers : HeaderMap) (body : Bytes) :
    HandlerObeys state (.receive clientIp channel headers body) := by
  refine obeys_orRespond (fun _ _ => returned_of_noSend Quiet.nil.noSend (by simp)) fun _ _ => ?_
  simp only [Sqlite.receiveWebhook, Sqlite.insert, CallProgram.bind_eq, CallProgram.bind_call,
    CallProgram.bind_pure_left]
  refine ⟨trivial, fun secs _ => ?_⟩
  exact obeys_answer (fun result => by cases result <;> exact ⟨_, rfl⟩)
    (Quiet.nil.cons ⟨rfl, rfl⟩) (by simp) (fun _ _ => ⟨clientIp, headers, rfl, rfl⟩)

theorem obeys_list (channel : String) (headers : HeaderMap) :
    HandlerObeys state (.list channel headers) :=
  obeys_orRespond (fun _ _ => returned_of_noSend Quiet.nil.noSend (by simp)) fun _ _ =>
    obeys_answer (fun result => by cases result <;> exact ⟨_, rfl⟩) Quiet.nil (by simp)
      (fun _ _ => trivial)

theorem obeys_delete (channel : String) (id : ℤ) (headers : HeaderMap) :
    HandlerObeys state (.delete channel id headers) :=
  obeys_orRespond (fun _ _ => returned_of_noSend Quiet.nil.noSend (by simp)) fun _ _ =>
    obeys_answer (fun result => by cases result <;> exact ⟨_, rfl⟩) Quiet.nil (by simp)
      (fun _ _ => Or.inl ⟨channel, headers, rfl⟩)

theorem obeys_poll (channel : String) (headers : HeaderMap) :
    HandlerObeys state (.poll channel headers) := by
  have hfailed : ∀ past response, NoSend past → response.status ≠ 200 →
      state.Returned (.request (.poll channel headers)) past (some response) := by
    intro past response hsend hstatus
    refine ⟨fun _ h => absurd h hsend.not_accepted, ?_⟩
    rintro _ _ _ - ⟨⟩ hok
    exact absurd hok hstatus
  refine obeys_orRespond ?_ fun _ _ => ?_
  · intro response hcheck
    refine hfailed _ _ Quiet.nil.noSend ?_
    rw [authorizeInPlace_eq] at hcheck
    simp only [authorize, authorizeChannel] at hcheck
    split at hcheck
    · cases hcheck
      simp [HttpResponse.text]
    · split at hcheck
      · split at hcheck <;> cases hcheck
        simp [HttpResponse.text]
      · split_ifs at hcheck <;> cases hcheck <;> simp [HttpResponse.text]
  · refine obeys_operation (fun _ _ => ⟨rfl, headers, rfl⟩) ?_ ?_
    · intro new rows _ hnew
      refine ⟨fun _ h => absurd h ((hnew.append Quiet.nil).noSend.cons rfl).not_accepted, ?_⟩
      rintro channel' headers' _ hjob ⟨⟩ -
      cases hjob
      exact ⟨rows, List.mem_cons_self, rfl⟩
    · intro new e hnew _
      refine hfailed _ _ (hnew.append Quiet.nil).noSend ?_
      cases e <;> simp [HttpResponse.ofError, HttpResponse.storageBusy, HttpResponse.text,
        WebhookRepositoryError.isBusy]

theorem obeys_queue (channel : String) (headers : HeaderMap) :
    HandlerObeys state (.queue channel headers) := by
  refine obeys_orRespond (fun _ _ => returned_of_noSend Quiet.nil.noSend (by simp)) fun _ _ => ?_
  refine obeys_orRespond (fun _ _ => returned_of_noSend Quiet.nil.noSend (by simp)) fun _ _ => ?_
  refine obeys_operation (fun _ _ => trivial) ?_ ?_
  · intro new rows _ hnew
    refine ⟨trivial, fun status _ => ?_⟩
    exact returned_of_noSend (((hnew.append Quiet.nil).noSend.cons rfl).cons rfl) (by simp)
  · intro new e hnew _
    exact returned_of_noSend (hnew.append Quiet.nil).noSend (by simp)

theorem obeys_setPaused (paused : Bool) (channel : String) (headers : HeaderMap) {r : Request}
    (hr : ∀ channel headers, r ≠ .poll channel headers) :
    (state.setPausedRoute paused channel headers).Obeys state.machine.Answers
      (state.Protocol (.request r))
      (fun past response => state.Returned (.request r) past (some response)) [] := by
  have hpoll : ∀ channel headers, Job.request r ≠ .request (.poll channel headers) :=
    fun _ _ h => hr _ _ (Job.request.inj h)
  refine obeys_orRespond (fun _ _ => returned_of_noSend Quiet.nil.noSend hpoll) fun _ _ => ?_
  refine ⟨trivial, fun registered _ => ?_⟩
  cases registered <;> exact returned_of_noSend (Quiet.nil.noSend.cons rfl) hpoll

theorem obeys_clear (channel : String) (headers : HeaderMap) :
    HandlerObeys state (.clear channel headers) := by
  refine obeys_orRespond (fun _ _ => returned_of_noSend Quiet.nil.noSend (by simp)) fun _ _ => ?_
  refine obeys_operation (fun _ _ => ⟨headers, rfl⟩) ?_ ?_
  · intro new affected _ hnew
    refine ⟨trivial, fun registered _ => ?_⟩
    exact returned_of_noSend (((hnew.append Quiet.nil).noSend.cons rfl).cons rfl) (by simp)
  · intro new e hnew _
    exact returned_of_noSend (hnew.append Quiet.nil).noSend (by simp)

end Handlers

end AppState
