/-
# Every effect is authorised

A request makes no call before its check has passed, and what its calls do to the table stays
within what the check was about.  Over any number of restarts and whatever the order of all calls,
a row appears only for a receive request of its channel that passed every check, and it is changed
or removed only by a task of its channel, with one exception: the deletion of an id, which asks for
the token of any channel.  A late delete or failure record of a forwarder or a manual retry is no
exception, for ids are not used again.
-/
import KaimanWebhooks.FailedAttempt
import KaimanWebhooks.Restart

/-! ## The rows of a statement -/

/-- The statement is about the row: about its channel, or about its id. -/
def Query.Touches (r : Row) : Query → Prop
  | .readAndDeleteByChannel channel _ => r.channel = .text channel
  | .clearByChannel channel => r.channel = .text channel
  | .deleteById id => r.id = id
  | .recordForwardFailure _ _ _ id => r.id = id
  | .resetForwardAttempts id => r.id = id
  | _ => False

/-- A row that is there no longer was touched. -/
theorem Query.touches_of_notMem {q : Query} {choice : ScanChoice} {t : Table} {r : Row}
    (hr : r ∈ t.rows) (hgone : r ∉ (q.execute choice t).2.rows) : q.Touches r := by
  have hupdate : ∀ (id : ℤ) (f : Row → Row) (hf : ∀ r, (f r).id = r.id),
      r ∉ (t.update id f hf).rows → r.id = id := by
    intro id f hf hgone
    by_contra hid
    have hkept := Table.mem_rows_update_of_mem hr id f hf
    rw [if_neg hid] at hkept
    exact hgone hkept
  cases q with
  | readAndDeleteByChannel channel limit =>
      have hpicked : r.id ∈ (t.picked choice channel limit).map Row.id := by
        by_contra hnot
        exact hgone (Table.mem_rows_keep.mpr ⟨hr, by simpa using hnot⟩)
      obtain ⟨r', hr', hid⟩ := List.mem_map.mp hpicked
      obtain ⟨hmem, hchannel⟩ := List.mem_filter.mp (t.mem_of_mem_picked hr')
      rw [t.eq_of_id_eq hmem hr hid] at hchannel
      have hrow : r.channel = .text channel := of_decide_eq_true hchannel
      exact hrow
  | clearByChannel channel =>
      by_contra hnot
      have hchannel : ¬r.channel = .text channel := hnot
      exact hgone (Table.mem_rows_keep.mpr ⟨hr, by simpa [Row.inChannel] using hchannel⟩)
  | deleteById id =>
      by_contra hnot
      have hid : ¬r.id = id := hnot
      exact hgone (Table.mem_rows_keep.mpr ⟨hr, by simpa using hid⟩)
  | recordForwardFailure now message next id =>
      exact hupdate id _ (Row.failed_id choice.coerce now message next) hgone
  | resetForwardAttempts id => exact hupdate id _ Row.reset_id hgone
  | insert channel headers payload receivedAt => exact absurd (List.mem_append_left _ hr) hgone
  | _ => exact absurd hr hgone

namespace AppState

variable (state : AppState)

/-! ## What a job may do -/

/-- The request passed the check its handler starts with. -/
def Authorised : Request → Prop
  | .receive clientIp channel headers body =>
      state.checkRequest clientIp channel headers body = .ok ()
  | .poll channel headers => state.authorize headers channel = .ok ()
  | .list channel headers => state.authorize headers channel = .ok ()
  | .delete channel _ headers => state.authorize headers channel = .ok ()
  | .queue channel headers => state.authorize headers channel = .ok ()
  | .pause channel headers => state.authorize headers channel = .ok ()
  | .resume channel headers => state.authorize headers channel = .ok ()
  | .clear channel headers => state.authorize headers channel = .ok ()
  | .retry channel _ headers => state.authorize headers channel = .ok ()

/-- **The rows a job may change or remove.** -/
def MayTouch (r : Row) : Job → Prop
  | .cycle k => ∃ fw, state.forwarders[k]? = some fw ∧ r.channel = .text fw.channel
  | .request (.poll channel _) => r.channel = .text channel
  | .request (.clear channel _) => r.channel = .text channel
  | .request (.retry channel _ _) => r.channel = .text channel
  | .request (.delete _ id _) => r.id = id
  | .reset id => r.id = id
  | _ => False

/-- The job sends webhooks of the channel. -/
def Serves (channel : WebhookChannel) : Job → Prop
  | .cycle k => ∃ fw, state.forwarders[k]? = some fw ∧ fw.channel = channel
  | .request (.retry c _ _) => c = channel
  | _ => False

/-- What the calls of a job keep to: no request goes on unchecked, and what is sent first is a
webhook of the channel served. -/
def KeepsOwn (job : Job) (past : List DoneCall) (c : Call Query) : Prop :=
  (∀ r, job = .request r → state.Authorised r) ∧
    ∀ about request, c = .send about request →
      (∃ d ∈ past, isSend d = true) ∨
        ∃ webhook, about = some webhook ∧ state.Serves webhook.channel job

variable {state}

/-! ## Every job -/

section Jobs

variable {job : Job} {past : List DoneCall}

/-- A call that sends nothing is checked, and no more. -/
theorem keepsOwn_of_ne_send {c : Call Query} (hauthorised : ∀ r, job = .request r →
    state.Authorised r) (hc : ∀ about request, c ≠ .send about request) :
    state.KeepsOwn job past c :=
  ⟨hauthorised, fun about request hsend => absurd hsend (hc about request)⟩

/-- Housekeeping is no more than checked. -/
theorem keepsOwn_of_isHousekeeping (hauthorised : ∀ r, job = .request r → state.Authorised r)
    (past : List DoneCall) (c : Call Query) (hc : c.isHousekeeping = true) :
    state.KeepsOwn job past c := by
  refine keepsOwn_of_ne_send hauthorised ?_
  rintro about request rfl
  cases hc

theorem keepsOwn_of_isTiming (hauthorised : ∀ r, job = .request r → state.Authorised r)
    (past : List DoneCall) (c : Call Query) (hc : c.isTiming = true) :
    state.KeepsOwn job past c :=
  keepsOwn_of_isHousekeeping hauthorised past c (Call.isHousekeeping_of_isTiming hc)

/-- After a request was sent a checked job may do anything. -/
theorem obeys_of_sent {α : Type} (hauthorised : ∀ r, job = .request r → state.Authorised r)
    {d : DoneCall} (hd : isSend d = true) (p : AppAction α) :
    p.Obeys state.machine.Answers (state.KeepsOwn job) (fun _ _ => True) (d :: past) := by
  refine (CallProgram.obeys_of_forall (P := fun _ _ => True) (Q := fun _ _ => True)
    (fun _ _ => trivial) (fun _ _ => trivial) p).weaken ?_ fun _ _ _ _ => trivial
  intro past' c hsuffix _
  exact ⟨hauthorised, fun _ _ _ => Or.inl ⟨d, hsuffix.mem List.mem_cons_self, hd⟩⟩

/-- A handler that sends nothing. -/
theorem keepsOwn_orRespond {α : Type} {r : Request} {check : Except HttpResponse α}
    {next : α → AppAction HttpResponse}
    (hcheck : ∀ a, check = .ok a → state.Authorised r)
    (hnext : ∀ a, check = .ok a → (next a).Obeys state.machine.Answers
      (fun _ c => ∀ about request, c ≠ .send about request) (fun _ _ => True) []) :
    (orRespond check next).Obeys state.machine.Answers (state.KeepsOwn (.request r))
      (fun _ _ => True) [] := by
  refine obeys_orRespond (fun _ _ => trivial) fun a ha => ?_
  refine (hnext a ha).weaken (fun _ c _ hc => ?_) fun _ _ _ _ => trivial
  refine keepsOwn_of_ne_send (fun r' hr' => ?_) hc
  cases hr'
  exact hcheck a ha

/-- A statement whose result is answered sends nothing. -/
theorem sendsNothing_answer {β : Type} {q : Query} {read : q.Answer → β}
    {f : Except WebhookRepositoryError β → AppAction HttpResponse}
    (hf : ∀ past result, (f result).Obeys state.machine.Answers
      (fun _ c => ∀ about request, c ≠ .send about request) (fun _ _ => True) past) :
    ((state.db.statement q read).bind f).Obeys state.machine.Answers
      (fun _ c => ∀ about request, c ≠ .send about request) (fun _ _ => True) past := by
  refine Sqlite.obeys_bind_statement ?_ (fun _ _ => by simp) (fun _ _ _ _ => hf _ _)
    fun _ _ _ _ => hf _ _
  rintro past c hc about request rfl
  cases hc

theorem keepsOwn_setPaused (paused : Bool) {r : Request} {channel : String} {headers : HeaderMap}
    (hr : state.authorize headers channel = .ok () → state.Authorised r) :
    (state.setPausedRoute paused channel headers).Obeys state.machine.Answers
      (state.KeepsOwn (.request r)) (fun _ _ => True) [] := by
  refine keepsOwn_orRespond (fun _ hcheck => hr hcheck) fun _ _ => ?_
  refine ⟨fun _ _ => by simp, fun registered _ => ?_⟩
  cases registered <;> trivial

theorem keepsOwn_retry (channel : String) (id : ℤ) (headers : HeaderMap) :
    (state.retryWebhookRoute channel id headers).Obeys state.machine.Answers
      (state.KeepsOwn (.request (.retry channel id headers))) (fun _ _ => True) [] := by
  refine obeys_orRespond (fun _ _ => trivial) fun _ hauthorized => ?_
  have hauthorised : ∀ r, Job.request (.retry channel id headers) = .request r →
      state.Authorised r := by
    intro r hr
    cases hr
    exact hauthorized
  refine obeys_orRespond (fun _ _ => trivial) fun target _ => ?_
  simp only [loadWebhookToRetry, Sqlite.getWebhook, CallProgram.bind_eq, CallProgram.bind_assoc,
    CallProgram.pure_eq, CallProgram.bind_pure_left]
  refine Sqlite.obeys_bind_statement (keepsOwn_of_isTiming hauthorised)
    (fun _ _ => keepsOwn_of_ne_send hauthorised (by simp)) ?_ ?_
  · intro new row _ _
    refine obeys_orRespond (fun _ _ => trivial) fun webhook hloaded => ?_
    refine obeys_orRespond (fun _ _ => trivial) fun request _ => ?_
    refine ⟨⟨hauthorised, ?_⟩, fun answer _ => obeys_of_sent hauthorised rfl _⟩
    rintro about request hsend
    cases hsend
    exact Or.inr ⟨webhook, rfl, (checkLoaded_eq_ok.mp hloaded).2.symm⟩
  · intro new e _ _
    refine obeys_orRespond (fun _ _ => trivial) fun webhook hloaded => ?_
    simp [checkLoaded] at hloaded

/-- No handler goes on unchecked. -/
theorem keepsOwn_handle (r : Request) :
    (state.handle r).Obeys state.machine.Answers (state.KeepsOwn (.request r)) (fun _ _ => True)
      [] := by
  cases r with
  | receive clientIp channel headers body =>
      refine keepsOwn_orRespond (fun _ hcheck => hcheck) fun _ _ => ?_
      simp only [Sqlite.receiveWebhook, Sqlite.insert, CallProgram.bind_eq, CallProgram.bind_call,
        CallProgram.bind_pure_left]
      refine ⟨by simp, fun secs _ => sendsNothing_answer ?_⟩
      rintro past (e | _) <;> trivial
  | poll channel headers =>
      refine keepsOwn_orRespond (fun _ hcheck => hcheck) fun _ _ => sendsNothing_answer ?_
      rintro past (e | _) <;> trivial
  | list channel headers =>
      refine keepsOwn_orRespond (fun _ hcheck => hcheck) fun _ _ => sendsNothing_answer ?_
      rintro past (e | _) <;> trivial
  | delete channel id headers =>
      refine keepsOwn_orRespond (fun _ hcheck => hcheck) fun _ _ => sendsNothing_answer ?_
      rintro past (e | _) <;> trivial
  | queue channel headers =>
      refine keepsOwn_orRespond (fun _ hcheck => hcheck) fun _ _ => ?_
      refine obeys_orRespond (fun _ _ => trivial) fun _ _ => sendsNothing_answer ?_
      rintro past (e | _)
      · trivial
      · exact ⟨by simp, fun _ _ => trivial⟩
  | pause channel headers => exact keepsOwn_setPaused true fun h => h
  | resume channel headers => exact keepsOwn_setPaused false fun h => h
  | clear channel headers =>
      refine keepsOwn_orRespond (fun _ hcheck => hcheck) fun _ _ => sendsNothing_answer ?_
      rintro past (e | _)
      · trivial
      · exact ⟨by simp, fun _ _ => trivial⟩
  | retry channel id headers => exact keepsOwn_retry channel id headers

/-- **Every job keeps to its own**, whatever its calls are answered. -/
theorem start_keepsOwn (job : Job) :
    (state.start job).Obeys state.machine.Answers (state.KeepsOwn job) (fun _ _ => True) [] := by
  cases job with
  | refresh k =>
      simp only [start]
      cases state.forwarders[k]? with
      | none => trivial
      | some fw =>
          dsimp only
          rw [CallProgram.obeys_bind]
          have hnone : ∀ r, Job.refresh k = .request r → state.Authorised r := by simp
          refine Sqlite.obeys_bind_statement (keepsOwn_of_isTiming hnone)
            (fun _ _ => ⟨hnone, by simp⟩) ?_ ?_
          · exact fun _ _ _ _ => ⟨⟨hnone, by simp⟩, fun _ _ => trivial⟩
          · exact fun _ _ _ _ => trivial
  | cycle k =>
      simp only [start]
      cases hfw : state.forwarders[k]? with
      | none => trivial
      | some fw =>
          dsimp only
          rw [CallProgram.obeys_bind]
          have hnone : ∀ r, Job.cycle k = .request r → state.Authorised r := by simp
          refine obeys_cycle_of_deliver (keepsOwn_of_isHousekeeping hnone)
            (fun _ _ _ _ => ⟨hnone, fun _ _ => by simp⟩) (fun _ _ => trivial) ?_
            fun _ _ _ _ => trivial
          intro past now row webhook request _ hanswer _ hparse _
          have hrow := (parseWebhookRow_eq_some hparse).2.1
          rw [channel_of_answers_peek hanswer] at hrow
          refine ⟨⟨hnone, ?_⟩, fun answer _ => obeys_of_sent hnone rfl _⟩
          rintro about request' hsend
          cases hsend
          exact Or.inr ⟨webhook, rfl, fw, hfw, SqlValue.text.inj hrow⟩
  | request r =>
      simp only [start]
      rw [CallProgram.obeys_bind]
      exact (keepsOwn_handle r).weaken (fun _ _ _ hP => hP) fun _ _ _ _ => trivial
  | reset id =>
      have hnone : ∀ r, Job.reset id = .request r → state.Authorised r := by simp
      exact Sqlite.obeys_bind_statement (keepsOwn_of_isTiming hnone) (fun _ _ => ⟨hnone, by simp⟩)
        (fun _ _ _ _ => trivial) fun _ _ _ _ => trivial

end Jobs

/-! ## The effects of a history -/

section Effects

variable {l : ServiceLives} (h : state.Lives l) {e : ServiceEntry} (he : e ∈ l.history)

/-- A job may touch the rows of the channel it serves. -/
theorem mayTouch_of_serves {r : Row} {channel : WebhookChannel} {job : Job}
    (hserves : state.Serves channel job) (hr : r.channel = .text channel) :
    state.MayTouch r job := by
  cases job with
  | cycle k =>
      obtain ⟨fw, hfw, rfl⟩ := hserves
      exact ⟨fw, hfw, hr⟩
  | request request =>
      cases request with
      | retry c id headers =>
          obtain rfl : c = channel := hserves
          exact hr
      | _ => exact hserves.elim
  | _ => exact hserves.elim

include h he

/-- Both protocols at once. -/
theorem exists_past :
    ∃ past, (state.Protocol e.job past e.call ∧ state.KeepsOwn e.job past e.call) ∧
      ∀ d ∈ past, ∃ e' ∈ l.history, e'.task = e.task ∧ e'.job = e.job ∧ e'.done = d :=
  TaskMachine.Outlives.protocol_of_mem h (fun job => (start_obeys job).and (start_keepsOwn job)) he

/-- A webhook that was sent belongs to the channel its task serves. -/
theorem serves_of_sent {webhook : Webhook} {request : HttpRequest} {answer : PeerAnswer}
    (hdone : e.done = (⟨.send (some webhook) request, answer⟩ : DoneCall)) :
    state.Serves webhook.channel e.job := by
  obtain ⟨past, ⟨hprotocol, -, hown⟩, -⟩ := exists_past h he
  have hcall : e.call = .send (some webhook) request := congrArg Sigma.fst hdone
  rw [hcall] at hprotocol
  rcases hown _ _ hcall with ⟨d, hd, hsent⟩ | ⟨webhook', hwebhook, hserves⟩
  · rw [hprotocol.1 d hd] at hsent
    cases hsent
  · cases hwebhook
    exact hserves

/-- **A row with the id of a webhook that was sent** is the row it was read from. -/
theorem channel_of_sent {webhook : Webhook} {request : HttpRequest} {answer : PeerAnswer}
    (hdone : e.done = (⟨.send (some webhook) request, answer⟩ : DoneCall)) {e' : ServiceEntry}
    (he' : e' ∈ l.history) {r : Row} (hr : r ∈ e'.before.table.rows)
    (hid : webhook.id = some r.id) : r.channel = .text webhook.channel := by
  obtain ⟨-, row, hparse, hloaded⟩ := h.accounted.exists_row_of_sent he hdone
  rw [id_of_parseWebhookRow hparse hid] at hloaded
  have hsame := h.accounted.ledger.content_eq hloaded (h.accounted.found e' he' r hr).1
  have hchannel : row.channel = r.channel := congrArg Content.channel hsame
  rw [← hchannel]
  exact (parseWebhookRow_eq_some hparse).2.1

/-- **What a statement touches is its task's to touch.** -/
theorem mayTouch_of_touches {q : Query} (hcall : e.call = .sql q) {r : Row}
    (hr : r ∈ e.before.table.rows) (htouches : q.Touches r) : state.MayTouch r e.job := by
  obtain ⟨past, ⟨hprotocol, -⟩, hpast⟩ := exists_past h he
  have hsent : ∀ d ∈ past, ∀ webhook request answer,
      d = (⟨.send (some webhook) request, answer⟩ : DoneCall) → webhook.id = some r.id →
        state.MayTouch r e.job := by
    rintro d hd webhook request answer rfl hid
    obtain ⟨e', he', -, hjob, hdone⟩ := hpast _ hd
    have hserves := serves_of_sent h he' hdone
    rw [hjob] at hserves
    exact mayTouch_of_serves hserves (channel_of_sent h he' hdone he hr hid)
  rw [hcall] at hprotocol
  cases q with
  | readAndDeleteByChannel channel limit =>
      obtain ⟨-, headers, hjob⟩ := hprotocol
      rw [hjob]
      exact htouches
  | clearByChannel channel =>
      obtain ⟨headers, hjob⟩ := hprotocol
      rw [hjob]
      exact htouches
  | deleteById id =>
      obtain rfl : r.id = id := htouches
      rcases hprotocol with ⟨channel, headers, hjob⟩ | ⟨d, hd, haccepted⟩
      · rw [hjob]
        rfl
      · obtain ⟨webhook, request, resp, -, hdone, hid, -⟩ := exists_send_of_accepted haccepted
        exact hsent d hd webhook request _ hdone hid
  | recordForwardFailure now message next id =>
      obtain rfl : r.id = id := htouches
      obtain ⟨⟨d, hd, hattempted⟩, -⟩ := hprotocol
      obtain ⟨webhook, request, answer, hdone, hid⟩ := exists_send_of_attempted hattempted
      exact hsent d hd webhook request answer hdone hid
  | resetForwardAttempts id =>
      obtain rfl : r.id = id := htouches
      have hjob : e.job = .reset r.id := hprotocol
      rw [hjob]
      rfl
  | _ => exact htouches.elim

end Effects

/-- **Every effect is authorised.**  Over any number of restarts and in every interleaving: a
request that makes a call passed its check; a row that a call changes or removes is one its task
may touch; and a row that is new was stored by a receive request of its channel. -/
theorem every_effect_is_authorised (state : AppState) {l : ServiceLives} (h : state.Lives l)
    {e : ServiceEntry} (he : e ∈ l.history) :
    (∀ r, e.job = .request r → state.Authorised r) ∧
      (∀ r ∈ e.before.table.rows, r ∉ e.after.table.rows → state.MayTouch r e.job) ∧
      ∀ r ∈ e.after.table.rows, (∀ r₀ ∈ e.before.table.rows, r₀.id ≠ r.id) →
        ∃ clientIp channel headers body, e.job = .request (.receive clientIp channel headers body) ∧
          r.channel = .text channel ∧ r.payload = .blob body := by
  obtain ⟨past, ⟨hprotocol, hauthorised, -⟩, -⟩ := exists_past h he
  refine ⟨hauthorised, ?_, ?_⟩
  · intro r hr hgone
    rcases (h.accounted.performed e he).cases with ⟨htable, -⟩ | ⟨q, choice, hdone, hafter⟩
    · rw [htable] at hgone
      exact absurd hr hgone
    · rw [hafter] at hgone
      exact mayTouch_of_touches h he (congrArg Sigma.fst hdone) hr
        (Query.touches_of_notMem hr hgone)
  · intro r hr hnew
    rcases (h.accounted.performed e he).mem_after hr with ⟨r₀, hr₀, hid, -⟩ | hstored
    · exact absurd hid.symm (hnew r₀ hr₀)
    · obtain ⟨channel, headersJson, payload, receivedAt, hdone, hcontent⟩ :=
        exists_sql_of_storedRow hstored
      have hcall : e.call = .sql (.insert channel headersJson payload receivedAt) :=
        congrArg Sigma.fst hdone
      rw [hcall] at hprotocol
      obtain ⟨clientIp, headers, hjob, -⟩ := hprotocol
      exact ⟨clientIp, channel, headers, payload, hjob, congrArg Content.channel hcontent,
        congrArg Content.payload hcontent⟩

/-- A webhook that was stored before a restart is polled after it: the poll was authorised, and
it might touch the row it removed. -/
theorem every_effect_is_authorised_small :
    ∃ l : ServiceLives, small.Lives l ∧ l.restarts = 1 ∧ ∃ e ∈ l.history,
      e.job = .request (.poll "orders" .small) ∧ small.Authorised (.poll "orders" .small) ∧
        ∃ r ∈ e.before.table.rows, r ∉ e.after.table.rows ∧ small.MayTouch r e.job := by
  have hrun : ∃ s, small.machine.runEvents small.initial killedRun = some s ∧
      ∃ s', small.machine.runEvents (.fresh (small.restarted s.shared))
          (ServiceEvent.task (.request (.poll "orders" .small)) 0
            (List.replicate 2 (Input.calm 2000 200))) = some s' ∧
        ∃ e ∈ s'.history, e.job = .request (.poll "orders" .small) ∧
          ∃ r ∈ e.before.table.rows, r ∉ e.after.table.rows := by
    decide +kernel
  obtain ⟨s, hs, s', hs', e, he, hjob, r, hr, hgone⟩ := hrun
  obtain ⟨hlives, hall⟩ := lives_of_runEvents hs hs'
  have hmem : e ∈ Lifetimes.history ⟨[s.history], small.restarted s.shared, s'⟩ := by
    rw [hall]
    exact List.mem_append_left _ he
  obtain ⟨hauthorised, htouched, -⟩ := every_effect_is_authorised small hlives hmem
  exact ⟨_, hlives, rfl, e, hmem, hjob, hauthorised _ hjob, r, hr, hgone, htouched r hr hgone⟩

end AppState
