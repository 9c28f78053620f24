/-
# The status of a forwarder tells the truth

The status a channel shows is a handful of cells that forwarders and handlers overwrite without a
lock around what they report.  Whatever the order of all calls, every cell goes back to the
history: a time of success to an answer that counts as delivery and a clock reading after it, a
time of failure with its message to a failed attempt, the pause flag to the last request that set
it, and a queue size to a count the database gave.
-/
import KaimanWebhooks.ManualRetry
import KaimanWebhooks.Parity
import KaimanWebhooks.Restart

/-! ## What an update says -/

/-- How the task of a job words a failed attempt. -/
def Words : Job → PeerAnswer → String → Prop
  | .cycle _, answer, message => PeerAnswer.forwarderMessage answer = some message
  | _, answer, message => PeerAnswer.retryMessage answer = message

namespace AppState

variable (state : AppState)

/-- A webhook of the channel was sent and answered like this, and after that the clock was read;
the calls are newest first. -/
def SentBefore (job : Job) (channel : WebhookChannel) (now : ℤ)
    (answered : WebhookForwardConfig → PeerAnswer → Prop) (past : List DoneCall) : Prop :=
  ∃ (secs : ℕ) (older : List DoneCall) (webhook : Webhook) (request : HttpRequest)
    (answer : PeerAnswer) (fwd : WebhookForwardConfig),
    past = ⟨.systemNow, secs⟩ :: older ∧ now = Prog.asI64 secs ∧
      (⟨.send (some webhook) request, answer⟩ : DoneCall) ∈ older ∧ webhook.channel = channel ∧
      state.target job = some fwd ∧ answered fwd answer

/-- The answer counts as delivery. -/
def CountsAsDelivery (fwd : WebhookForwardConfig) (answer : PeerAnswer) : Prop :=
  ∃ resp, answer = .ok resp ∧ resp.status = fwd.expectedStatus

/-- **What has to be behind an update of a status**, by the job and the calls it has made. -/
def Backs (job : Job) (past : List DoneCall) : Call Query → Prop
  | .updateStatus channel (.queueSize count) =>
      ∃ older, past = ⟨.sql (.countByChannel channel), .ok count⟩ :: older
  | .updateStatus channel (.delivered now) => state.SentBefore job channel now CountsAsDelivery past
  | .updateStatus channel (.failed now message) =>
      state.SentBefore job channel now
        (fun fwd answer => fwd.Fails answer ∧ Words job answer message) past
  | .updateStatus channel (.paused flag) =>
      ∃ headers, state.authorize headers channel = .ok () ∧
        job = .request (if flag then .pause channel headers else .resume channel headers)
  | .updateStatus channel .cleared =>
      ∃ headers, state.authorize headers channel = .ok () ∧ job = .request (.clear channel headers)
  | _ => True

/-! ## Deliveries -/

section Deliveries

variable {state} {past : List DoneCall} {webhook : Webhook} {request : HttpRequest}
  {channel : WebhookChannel}

theorem backs_of_isTiming {job : Job} (past : List DoneCall) (c : Call Query)
    (h : c.isTiming = true) : state.Backs job past c := by
  cases c <;> trivial

/-- A clock reading after a send, whatever came between. -/
theorem sentBefore_of_mem (request : HttpRequest) {job : Job} {answer : PeerAnswer}
    {fwd : WebhookForwardConfig} {answered : WebhookForwardConfig → PeerAnswer → Prop} {secs : ℕ}
    {older : List DoneCall}
    (htarget : state.target job = some fwd) (hchannel : webhook.channel = channel)
    (hanswered : answered fwd answer)
    (hsent : (⟨.send (some webhook) request, answer⟩ : DoneCall) ∈ older) :
    state.SentBefore job channel (Prog.asI64 secs) answered (⟨.systemNow, secs⟩ :: older) :=
  ⟨secs, older, webhook, request, answer, fwd, rfl, rfl, hsent, hchannel, htarget, hanswered⟩

/-- A pass of a forwarder updates the status of its channel with what it was answered. -/
theorem backs_forwarder_deliver {k : ℕ} {fw : Forwarder} (hfw : state.forwarders[k]? = some fw)
    (hchannel : webhook.channel = fw.channel) {id : ℤ} :
    (fw.deliver id webhook request).Obeys state.machine.Answers (state.Backs (.cycle k))
      (fun _ _ => True) past := by
  refine ⟨trivial, fun answer _ => ?_⟩
  have htarget : state.target (.cycle k) = some fw.cfg := by simp [target, hfw]
  have hfailure : ∀ failure : Failure, fw.cfg.Fails answer →
      Words (.cycle k) answer failure.message →
      ((fw.recordFailure id webhook.forwardAttempts failure).bind fun _ =>
          CallProgram.pure Progress.idle).Obeys state.machine.Answers (state.Backs (.cycle k))
        (fun _ _ => True) (⟨.send (some webhook) request, answer⟩ :: past) := by
    intro failure hfails hwords
    rw [Forwarder.recordFailure_eq, recordFailureThen_bind]
    refine obeys_recordFailureThen backs_of_isTiming ?_
    intro nanos secs secs' delay _
    refine ⟨fun _ _ => trivial, fun result waiting _ => ?_⟩
    simp only [Forwarder.afterRecorded, Forwarder.reportStuck, CallProgram.bind_eq,
      CallProgram.pure_eq, CallProgram.bind_call, CallProgram.bind_pure_left]
    split
    · refine ⟨trivial, fun _ _ => ⟨trivial, fun _ _ => ⟨?_, fun _ _ => trivial⟩⟩⟩
      exact sentBefore_of_mem request htarget hchannel ⟨hfails, hwords⟩ (by simp)
    · refine ⟨trivial, fun _ _ => ⟨?_, fun _ _ => trivial⟩⟩
      exact sentBefore_of_mem request htarget hchannel ⟨hfails, hwords⟩ (by simp)
  cases answer with
  | error cause => exact hfailure _ (by simp [WebhookForwardConfig.Fails]) rfl
  | ok resp =>
      show (Forwarder.onAnswer fw id webhook (.ok resp)).Obeys _ _ _ _
      rw [Forwarder.onAnswer]
      split
      · rename_i hstatus
        rw [Forwarder.onDelivered]
        have hdelivers : CountsAsDelivery fw.cfg (.ok resp) := ⟨resp, rfl, hstatus⟩
        refine Sqlite.obeys_bind_statement backs_of_isTiming (fun _ _ => trivial) ?_ ?_
        · refine fun new _ _ _ => ⟨trivial, fun _ _ => ⟨?_, fun _ _ => trivial⟩⟩
          exact sentBefore_of_mem request htarget hchannel hdelivers (by simp)
        · refine fun new _ _ _ => ⟨trivial, fun _ _ => ⟨?_, fun _ _ => trivial⟩⟩
          exact sentBefore_of_mem request htarget hchannel hdelivers (by simp)
      · rename_i hstatus
        cases hpreview : readBodyPreview resp with
        | none => trivial
        | some bodyPreview =>
            refine hfailure _ (by simpa [WebhookForwardConfig.Fails] using hstatus) ?_
            simp [Words, PeerAnswer.forwarderMessage, hpreview]

/-- A manual retry updates the status of its channel with what it was answered. -/
theorem backs_retry_deliver {ctx : RetryContext} {headers : HeaderMap} {id : ℤ}
    (htarget : state.target (.request (.retry ctx.channelName id headers)) =
      some ctx.forwardCfg) (hchannel : ctx.webhook.channel = ctx.channelName) :
    (ctx.deliver request).Obeys state.machine.Answers
      (state.Backs (.request (.retry ctx.channelName id headers))) (fun _ _ => True) past := by
  refine ⟨trivial, fun answer _ => ?_⟩
  have hfailure : ∀ kind retryAfter message (response : HttpResponse),
      ctx.forwardCfg.Fails answer → PeerAnswer.retryMessage answer = message →
      ((ctx.recordFailure kind retryAfter message).bind fun _ =>
          CallProgram.pure response).Obeys state.machine.Answers
        (state.Backs (.request (.retry ctx.channelName id headers))) (fun _ _ => True)
        (⟨.send (some ctx.webhook) request, answer⟩ :: past) := by
    intro kind retryAfter message response hfails hwords
    rw [RetryContext.recordFailure_eq, recordFailureThen_bind]
    refine obeys_recordFailureThen backs_of_isTiming ?_
    intro nanos secs secs' delay _
    refine ⟨fun _ _ => trivial, fun result waiting _ => ?_⟩
    refine ⟨trivial, fun _ _ => ⟨?_, fun _ _ => trivial⟩⟩
    exact sentBefore_of_mem request htarget hchannel ⟨hfails, hwords⟩ (by simp)
  cases answer with
  | error cause => exact hfailure _ _ _ _ (by simp [WebhookForwardConfig.Fails]) rfl
  | ok resp =>
      show (RetryContext.onResponse ctx resp).Obeys _ _ _ _
      rw [RetryContext.onResponse]
      split
      · rename_i hstatus
        exact hfailure _ _ _ _ (by simpa [WebhookForwardConfig.Fails] using hstatus) rfl
      · rename_i hstatus
        have hdelivers : CountsAsDelivery ctx.forwardCfg (.ok resp) :=
          ⟨resp, rfl, not_not.mp hstatus⟩
        simp only [RetryContext.forgetDelivered, Sqlite.deleteWebhook, CallProgram.bind_eq,
          CallProgram.pure_eq, CallProgram.bind_assoc]
        refine Sqlite.obeys_bind_statement backs_of_isTiming (fun _ _ => trivial) ?_ ?_
        · refine fun new _ _ _ => ⟨trivial, fun _ _ => ⟨?_, fun _ _ => trivial⟩⟩
          exact sentBefore_of_mem request htarget hchannel hdelivers (by simp)
        · refine fun new _ _ _ => ⟨trivial, fun _ _ => ⟨?_, fun _ _ => trivial⟩⟩
          exact sentBefore_of_mem request htarget hchannel hdelivers (by simp)

end Deliveries

/-! ## Every job -/

section Jobs

variable {state}

/-- A statement whose result is answered updates no status. -/
theorem backs_answer {β : Type} {job : Job} {past : List DoneCall} {q : Query}
    {read : q.Answer → β} {f : Except WebhookRepositoryError β → AppAction HttpResponse}
    (hf : ∀ result, ∃ response, f result = .pure response) :
    ((state.db.statement q read).bind f).Obeys state.machine.Answers (state.Backs job)
      (fun _ _ => True) past := by
  have hend : ∀ past result, (f result).Obeys state.machine.Answers (state.Backs job)
      (fun _ _ => True) past := by
    intro past result
    obtain ⟨response, hresponse⟩ := hf result
    rw [hresponse]
    trivial
  exact Sqlite.obeys_bind_statement backs_of_isTiming (fun _ _ => trivial)
    (fun _ _ _ _ => hend _ _) fun _ _ _ _ => hend _ _

theorem backs_setPaused (paused : Bool) (channel : String) (headers : HeaderMap) :
    (state.setPausedRoute paused channel headers).Obeys state.machine.Answers
      (state.Backs (.request (if paused then .pause channel headers else .resume channel headers)))
      (fun _ _ => True) [] := by
  refine obeys_orRespond (fun _ _ => trivial) fun _ hauthorized => ?_
  refine ⟨⟨headers, hauthorized, rfl⟩, fun registered _ => ?_⟩
  cases registered <;> trivial

theorem backs_retry (channel : String) (id : ℤ) (headers : HeaderMap) :
    (state.retryWebhookRoute channel id headers).Obeys state.machine.Answers
      (state.Backs (.request (.retry channel id headers))) (fun _ _ => True) [] := by
  refine obeys_orRespond (fun _ _ => trivial) fun _ _ => ?_
  refine obeys_orRespond (fun _ _ => trivial) fun target htarget => ?_
  have htarget' : state.target (.request (.retry channel id headers)) = some target.2 := by
    simp [AppState.target, htarget, Except.toOption]
  simp only [loadWebhookToRetry, Sqlite.getWebhook, CallProgram.bind_eq, CallProgram.bind_assoc,
    CallProgram.pure_eq, CallProgram.bind_pure_left]
  refine Sqlite.obeys_bind_statement backs_of_isTiming (fun _ _ => trivial) ?_ ?_
  · intro new row _ _
    refine obeys_orRespond (fun _ _ => trivial) fun webhook hloaded => ?_
    refine obeys_orRespond (fun _ _ => trivial) fun request _ => ?_
    exact backs_retry_deliver htarget' (checkLoaded_eq_ok.mp hloaded).2
  · intro new e _ _
    refine obeys_orRespond (fun _ _ => trivial) fun webhook hloaded => ?_
    simp [checkLoaded] at hloaded

/-- The handlers update a status only with what they did. -/
theorem backs_handle (r : Request) :
    (state.handle r).Obeys state.machine.Answers (state.Backs (.request r)) (fun _ _ => True)
      [] := by
  cases r with
  | receive clientIp channel headers body =>
      refine obeys_orRespond (fun _ _ => trivial) fun _ _ => ?_
      simp only [Sqlite.receiveWebhook, Sqlite.insert, CallProgram.bind_eq, CallProgram.bind_call,
        CallProgram.bind_pure_left]
      refine ⟨trivial, fun secs _ => backs_answer fun result => ?_⟩
      cases result <;> exact ⟨_, rfl⟩
  | poll channel headers =>
      refine obeys_orRespond (fun _ _ => trivial) fun _ _ => backs_answer fun result => ?_
      cases result <;> exact ⟨_, rfl⟩
  | list channel headers =>
      refine obeys_orRespond (fun _ _ => trivial) fun _ _ => backs_answer fun result => ?_
      cases result <;> exact ⟨_, rfl⟩
  | delete channel id headers =>
      refine obeys_orRespond (fun _ _ => trivial) fun _ _ => backs_answer fun result => ?_
      cases result <;> exact ⟨_, rfl⟩
  | queue channel headers =>
      refine obeys_orRespond (fun _ _ => trivial) fun _ _ => ?_
      refine obeys_orRespond (fun _ _ => trivial) fun _ _ => ?_
      refine Sqlite.obeys_bind_statement backs_of_isTiming (fun _ _ => trivial) ?_ ?_
      · exact fun _ _ _ _ => ⟨trivial, fun _ _ => trivial⟩
      · exact fun _ _ _ _ => trivial
  | pause channel headers => exact backs_setPaused true channel headers
  | resume channel headers => exact backs_setPaused false channel headers
  | clear channel headers =>
      refine obeys_orRespond (fun _ _ => trivial) fun _ hauthorized => ?_
      refine Sqlite.obeys_bind_statement backs_of_isTiming (fun _ _ => trivial) ?_ ?_
      · exact fun _ _ _ _ => ⟨⟨headers, hauthorized, rfl⟩, fun _ _ => trivial⟩
      · exact fun _ _ _ _ => trivial
  | retry channel id headers => exact backs_retry channel id headers

/-- **Every update of a status is backed**, whatever the calls are answered. -/
theorem start_backs (job : Job) :
    (state.start job).Obeys state.machine.Answers (state.Backs job) (fun _ _ => True) [] := by
  cases job with
  | refresh k =>
      simp only [start]
      cases state.forwarders[k]? with
      | none => trivial
      | some fw =>
          dsimp only
          rw [CallProgram.obeys_bind]
          refine Sqlite.obeys_bind_statement backs_of_isTiming (fun _ _ => trivial) ?_ ?_
          · exact fun _ _ _ _ => ⟨⟨_, rfl⟩, fun _ _ => trivial⟩
          · exact fun _ _ _ _ => trivial
  | cycle k =>
      simp only [start]
      cases hfw : state.forwarders[k]? with
      | none => trivial
      | some fw =>
          dsimp only
          rw [CallProgram.obeys_bind]
          refine obeys_cycle_of_calls (fun _ _ _ _ => trivial) (fun _ _ => trivial) ?_
            backs_of_isTiming (fun _ => trivial) (fun _ _ => ⟨_, rfl⟩) trivial
            fun _ _ _ _ => trivial
          intro past now row webhook request _ hanswer _ hparse _
          refine backs_forwarder_deliver hfw ?_
          have hrow := (parseWebhookRow_eq_some hparse).2.1
          rw [channel_of_answers_peek hanswer] at hrow
          exact (SqlValue.text.inj hrow).symm
  | request r =>
      simp only [start]
      rw [CallProgram.obeys_bind]
      exact (backs_handle r).weaken (fun _ _ _ hP => hP) fun _ _ _ _ => trivial
  | reset id =>
      exact Sqlite.obeys_bind_statement backs_of_isTiming (fun _ _ => trivial)
        (fun _ _ _ _ => trivial) fun _ _ _ _ => trivial

end Jobs

/-! ## What the history shows -/

/-- The flag that a pause or a resume of the channel sets. -/
def flagSet (channel : WebhookChannel) : DoneCall → Option Bool
  | ⟨.updateStatus c (.paused flag), _⟩ => if c = channel then some flag else none
  | _ => none

/-- A task sent a webhook of the channel, was answered like this, and read the clock after it; a
history is newest first. -/
def Reported (history : List ServiceEntry) (channel : WebhookChannel) (now : ℤ)
    (answered : Job → WebhookForwardConfig → PeerAnswer → Prop) : Prop :=
  ∃ clock sent : ServiceEntry, [clock, sent].Sublist history ∧ clock.task = sent.task ∧
    (∃ secs : ℕ, clock.done = ⟨.systemNow, secs⟩ ∧ now = Prog.asI64 secs) ∧
    ∃ webhook request answer fwd, sent.done = ⟨.send (some webhook) request, answer⟩ ∧
      webhook.channel = channel ∧ state.target sent.job = some fwd ∧ answered sent.job fwd answer

/-- **The cells of a status go back to the history.** -/
structure TellsTruth (history : List ServiceEntry) (channel : WebhookChannel)
    (status : ChannelForwardStatus) : Prop where
  success : ∀ now, status.lastSuccessAt = some now →
    state.Reported history channel now fun _ => CountsAsDelivery
  failure : ∀ now, status.lastErrorAt = some now → ∃ message,
    status.lastErrorMessage = some message ∧
      state.Reported history channel now fun job fwd answer =>
        fwd.Fails answer ∧ Words job answer message
  silent : status.lastErrorAt = none → status.lastErrorMessage = none
  paused : status.paused = (history.findSome? fun e => flagSet channel e.done).getD false
  size : 0 ≤ status.queueSize ∧ (status.queueSize = 0 ∨
    ∃ e ∈ history, ∃ count, e.done = (⟨.sql (.countByChannel channel), .ok count⟩ : DoneCall) ∧
      status.queueSize ≤ count)
  due : status.nextAttemptAt = none

section Runs

variable {state} {history : List ServiceEntry} {channel : WebhookChannel} {now : ℤ}
  {status : ChannelForwardStatus} {e : ServiceEntry}

theorem Reported.cons {answered : Job → WebhookForwardConfig → PeerAnswer → Prop}
    (h : state.Reported history channel now answered) (e : ServiceEntry) :
    state.Reported (e :: history) channel now answered := by
  obtain ⟨clock, sent, hsub, hrest⟩ := h
  exact ⟨clock, sent, hsub.cons e, hrest⟩

/-- One more call leaves every cell backed but the flag, which is as the calls have it. -/
theorem TellsTruth.flagged (h : state.TellsTruth history channel status) {flag : Bool}
    (hflag : flag = ((e :: history).findSome? fun e => flagSet channel e.done).getD false) :
    state.TellsTruth (e :: history) channel { status with paused := flag } where
  success now hnow := (h.success now hnow).cons e
  failure now hnow := by
    obtain ⟨message, hmessage, hreported⟩ := h.failure now hnow
    exact ⟨message, hmessage, hreported.cons e⟩
  silent := h.silent
  paused := hflag
  size := by
    refine ⟨h.size.1, h.size.2.imp_right ?_⟩
    rintro ⟨e', he', hrest⟩
    exact ⟨e', List.mem_cons_of_mem _ he', hrest⟩
  due := h.due

/-- A status that is left alone tells the truth still. -/
theorem TellsTruth.cons (h : state.TellsTruth history channel status)
    (hflag : flagSet channel e.done = none) : state.TellsTruth (e :: history) channel status := by
  refine h.flagged ?_
  rw [List.findSome?_cons, hflag]
  exact h.paused

/-- An update that is backed keeps the status true. -/
theorem TellsTruth.update (h : state.TellsTruth history channel status) {u : StatusUpdate}
    {answer : Call.Answer Query.Answer (.updateStatus channel u)}
    (hdone : e.done = ⟨.updateStatus channel u, answer⟩)
    (hsuccess : ∀ now, u = .delivered now →
      state.Reported history channel now fun _ => CountsAsDelivery)
    (hfailure : ∀ now message, u = .failed now message →
      state.Reported history channel now fun job fwd answer =>
        fwd.Fails answer ∧ Words job answer message)
    (hsize : ∀ count, u = .queueSize count → 0 ≤ count ∧ ∃ e ∈ history,
      e.done = (⟨.sql (.countByChannel channel), .ok count⟩ : DoneCall)) :
    state.TellsTruth (e :: history) channel (u.apply status) := by
  cases u with
  | queueSize count =>
      obtain ⟨hcount, e', he', hcounted⟩ := hsize count rfl
      have hkept := h.cons (e := e) (by rw [hdone]; rfl)
      refine ⟨hkept.success, hkept.failure, hkept.silent, hkept.paused, ⟨hcount, Or.inr ?_⟩,
        hkept.due⟩
      exact ⟨e', List.mem_cons_of_mem _ he', count, hcounted, le_rfl⟩
  | delivered now =>
      have hkept := h.cons (e := e) (by rw [hdone]; rfl)
      refine ⟨?_, hkept.failure, hkept.silent, hkept.paused, ⟨le_max_right _ _, ?_⟩, hkept.due⟩
      · rintro now' hnow
        cases hnow
        exact (hsuccess now rfl).cons e
      · have hle : max (status.queueSize - 1) 0 ≤ status.queueSize :=
          max_le (by omega) h.size.1
        rcases hkept.size.2 with hzero | ⟨e', he', count, hcounted, hcount⟩
        · exact Or.inl (le_antisymm (hle.trans hzero.le) (le_max_right _ _))
        · exact Or.inr ⟨e', he', count, hcounted, hle.trans hcount⟩
  | failed now message =>
      have hkept := h.cons (e := e) (by rw [hdone]; rfl)
      refine ⟨hkept.success, ?_, nofun, hkept.paused, hkept.size, hkept.due⟩
      rintro now' hnow
      cases hnow
      exact ⟨message, rfl, (hfailure now message rfl).cons e⟩
  | paused flag =>
      have hflag : flagSet channel e.done = some flag := by rw [hdone]; simp [flagSet]
      refine h.flagged ?_
      rw [List.findSome?_cons, hflag]
      rfl
  | cleared =>
      have hkept := h.cons (e := e) (by rw [hdone]; rfl)
      exact ⟨hkept.success, hkept.failure, hkept.silent, hkept.paused, ⟨le_rfl, Or.inl rfl⟩,
        hkept.due⟩

/-- What is behind an update shows in the history. -/
theorem reported_of_sentBefore {ok : ServiceState → ServiceEvent → Prop} {w : World}
    {s : ServiceState} (h : state.machine.Reaches ok (.fresh w) s) {n : ℕ} {t : ServiceTask}
    (ht : s.tasks[n]? = some t) {answered : Job → WebhookForwardConfig → PeerAnswer → Prop}
    (hsent : state.SentBefore t.job channel now (answered t.job) t.past) :
    state.Reported s.history channel now answered := by
  obtain ⟨secs, older, webhook, request, answer, fwd, hpast, hnow, hmem, hrest⟩ := hsent
  rw [h.past_eq rfl rfl ht] at hpast
  obtain ⟨clock, entries, hentries, hclock, rfl⟩ := List.map_eq_cons_iff.mp hpast
  obtain ⟨sent, hsent, hdone⟩ := List.mem_map.mp hmem
  have hfilter : ∀ e ∈ clock :: entries, e ∈ s.history ∧ e.task = n := by
    intro e he
    have hmem := List.mem_filter.mp (hentries ▸ he)
    exact ⟨hmem.1, of_decide_eq_true hmem.2⟩
  obtain ⟨hsentMem, hsentTask⟩ := hfilter sent (List.mem_cons_of_mem _ hsent)
  have hsub : [clock, sent].Sublist s.history :=
    ((List.singleton_sublist.mpr hsent).cons_cons clock).trans
      (hentries ▸ List.filter_sublist)
  obtain ⟨t', ht', hjob, -⟩ := h.historyRecorded rfl sent hsentMem
  rw [hsentTask] at ht'
  obtain rfl : t' = t := Option.some.inj (ht'.symm.trans ht)
  refine ⟨clock, sent, hsub, ?_, ⟨secs, hclock, hnow⟩, webhook, request, answer, fwd, hdone, ?_⟩
  · rw [hsentTask, (hfilter clock List.mem_cons_self).2]
  · rw [← hjob]
    exact hrest

/-- A count is no negative number. -/
theorem nonneg_of_counted {ok : ServiceState → ServiceEvent → Prop} {w : World} {s : ServiceState}
    (h : state.machine.Reaches ok (.fresh w) s) (he : e ∈ s.history) {count : ℤ}
    (hdone : e.done = (⟨.sql (.countByChannel channel), .ok count⟩ : DoneCall)) : 0 ≤ count := by
  obtain ⟨s₁, newer, hmade⟩ := h.exists_madeIn rfl he
  obtain ⟨i, -, -, -, -, -, -, hperform⟩ := hmade.event
  have hperformed : Performed state.db.ext e := ⟨i, hperform⟩
  rcases hperformed.cases with ⟨-, hquiet⟩ | ⟨q, choice, hexecuted, -⟩
  · exact absurd hdone (hquiet _ _)
  · rw [hdone] at hexecuted
    cases hexecuted
    exact Int.natCast_nonneg _

/-- **The statuses stay true.** -/
theorem tellsTruth_of_reaches {ok : ServiceState → ServiceEvent → Prop} {w : World}
    {s : ServiceState} (h : state.machine.Reaches ok (.fresh w) s)
    (hw : w.statuses = state.initialStatuses) :
    ∀ channel status, s.shared.statuses channel = some status →
      state.TellsTruth s.history channel status := by
  refine h.invariant_along (fun s : ServiceState => ∀ channel status,
    s.shared.statuses channel = some status → state.TellsTruth s.history channel status) ?_
    (fun _ _ _ hs _ _ => hs) ?_
  · intro channel status hstatus
    have hnew : status = .new := by
      have hinit : state.initialStatuses channel = some status := hw ▸ hstatus
      unfold initialStatuses at hinit
      split at hinit <;> cases hinit
      rfl
    rw [hnew]
    exact ⟨nofun, nofun, fun _ => rfl, rfl, ⟨le_rfl, Or.inl rfl⟩, rfl⟩
  · intro s n i t c next hreach hs _ ht hrest channel status hstatus
    have hbacks := hreach.next_permitted rfl start_backs (List.mem_of_getElem? ht) hrest
    have hsame : ∀ status', s.shared.statuses channel = some status' → status = status' →
        flagSet channel (state.machine.entry s n t c i).done = none →
          state.TellsTruth (state.machine.entry s n t c i :: s.history) channel status := by
      rintro status' hstatus' rfl hflag
      exact (hs channel status hstatus').cons hflag
    cases c with
    | updateStatus c u =>
        change (if channel = c then (s.shared.statuses c).map u.apply
          else s.shared.statuses channel) = some status at hstatus
        split at hstatus
        · rename_i hc
          subst hc
          obtain ⟨status', hstatus', rfl⟩ := Option.map_eq_some_iff.mp hstatus
          refine (hs channel status' hstatus').update rfl ?_ ?_ ?_
          · rintro now rfl
            exact reported_of_sentBefore hreach ht hbacks
          · rintro now message rfl
            exact reported_of_sentBefore hreach ht hbacks
          · rintro count rfl
            obtain ⟨older, hpast⟩ := hbacks
            obtain ⟨e, he, -, -, hdone⟩ := hreach.pastsRecorded rfl n t _ ht
              (hpast ▸ List.mem_cons_self)
            exact ⟨nonneg_of_counted hreach he hdone, e, he, hdone⟩
        · rename_i hc
          refine hsame status hstatus rfl ?_
          have hdone : flagSet channel (⟨.updateStatus c u,
              (state.machine.perform (.updateStatus c u) i s.shared).1⟩ : DoneCall) = none := by
            cases u <;> simp [flagSet, Ne.symm hc]
          exact hdone
    | sql q =>
        have hkept : (perform state.db.ext (.sql q) i s.shared).2.statuses channel =
            s.shared.statuses channel := by
          simp only [perform]
          cases i.fault <;> rfl
        exact hsame status (hkept ▸ hstatus) rfl rfl
    | _ => exact hsame status hstatus rfl rfl

/-- Every process registers the statuses anew. -/
theorem Lives.statuses_boot {l : ServiceLives} (h : state.Lives l) :
    l.boot.statuses = state.initialStatuses := by
  cases h <;> rfl

/-- No status comes or goes. -/
theorem isSome_statuses {ok : ServiceState → ServiceEvent → Prop} {w : World} {s : ServiceState}
    (h : state.machine.Reaches ok (.fresh w) s) :
    (s.shared.statuses channel).isSome = (w.statuses channel).isSome := by
  refine h.invariant_shared (fun w' : World => (w'.statuses channel).isSome =
    (w.statuses channel).isSome) rfl ?_
  intro s n i t c k hs _ _ _
  rw [← hs]
  cases c with
  | updateStatus c u =>
      show (if channel = c then (s.shared.statuses c).map u.apply
        else s.shared.statuses channel).isSome = _
      split
      · rename_i hc
        rw [hc, Option.isSome_map]
      · rfl
  | sql q =>
      show ((perform state.db.ext (.sql q) i s.shared).2.statuses channel).isSome = _
      simp only [perform]
      cases i.fault <;> rfl
  | _ => rfl

/-- What sets a flag is an update of the pause flag. -/
theorem call_of_flagSet {d : DoneCall} {flag : Bool}
    (h : flagSet channel d = some flag) : d.1 = .updateStatus channel (.paused flag) := by
  unfold flagSet at h
  split at h
  · split at h
    · rename_i hc
      cases h
      rw [hc]
    · cases h
  · cases h

/-- Only the forwarded channels have a status. -/
theorem isSome_initialStatuses :
    (state.initialStatuses channel).isSome ↔ ∃ fw ∈ state.forwarders, fw.channel = channel := by
  unfold initialStatuses
  split
  · rename_i h
    simpa using h
  · rename_i h
    simpa using h

end Runs

/-- **The statuses tell the truth.**  In every lifetime and every interleaving just the forwarded
channels have a status, its cells go back to the history of the lifetime, and only an authorised
request set its pause flag. -/
theorem statuses_tell_the_truth (state : AppState) {l : ServiceLives} (h : state.Lives l)
    (channel : WebhookChannel) :
    ((l.current.shared.statuses channel).isSome ↔
        ∃ fw ∈ state.forwarders, fw.channel = channel) ∧
      (∀ status, l.current.shared.statuses channel = some status →
        state.TellsTruth l.current.history channel status) ∧
      ∀ e ∈ l.current.history, ∀ flag, flagSet channel e.done = some flag →
        ∃ headers, state.authorize headers channel = .ok () ∧
          e.job = .request (if flag then .pause channel headers else .resume channel headers) := by
  have hreaches := TaskMachine.Outlives.reaches h
  refine ⟨?_, tellsTruth_of_reaches hreaches h.statuses_boot channel, ?_⟩
  · rw [isSome_statuses hreaches, h.statuses_boot]
    exact isSome_initialStatuses
  · intro e he flag hflag
    obtain ⟨past, hbacks, -⟩ := hreaches.protocol_of_mem rfl rfl start_backs he
    have hcall : e.call = .updateStatus channel (.paused flag) := call_of_flagSet hflag
    rw [hcall] at hbacks
    exact hbacks

/-- A webhook is received, fails once and is delivered, and then the channel is paused. -/
def pausedRun : List ServiceEvent :=
  ServiceEvent.task (.request .small) 0 (List.replicate 3 (Input.calm 1000 200)) ++
    ServiceEvent.task (.refresh 0) 1 (List.replicate 3 (Input.calm 1000 200)) ++
    ServiceEvent.task (.cycle 0) 2 (List.replicate 13 (Input.calm 1001 500)) ++
    ServiceEvent.task (.cycle 0) 3 (List.replicate 9 (Input.calm 5000 200)) ++
    ServiceEvent.task (.request (.pause "orders" .small)) 4 [Input.calm 6000 200]

/-- After a failure, a delivery and a pause each cell of the status goes back to the call that
set it. -/
theorem statuses_tell_the_truth_small :
    ∃ l : ServiceLives, small.Lives l ∧
      l.current.shared.statuses "orders" =
        some ⟨true, 0, some 5000, some 1001, some "HTTP 500: ", none⟩ ∧
      small.TellsTruth l.current.history "orders"
        ⟨true, 0, some 5000, some 1001, some "HTTP 500: ", none⟩ := by
  have hrun : ∃ s, small.machine.runEvents small.initial pausedRun = some s ∧
      s.shared.statuses "orders" =
        some ⟨true, 0, some 5000, some 1001, some "HTTP 500: ", none⟩ := by
    decide +kernel
  obtain ⟨s, hs, hstatus⟩ := hrun
  have hreaches : small.machine.Reaches (fun _ _ => True) (.fresh small.initial.shared) s :=
    TaskMachine.reaches_of_runEvents hs fun _ _ _ => trivial
  have hlives : small.Lives ⟨[], small.initial.shared, s⟩ := .first hreaches
  exact ⟨_, hlives, hstatus, (statuses_tell_the_truth small hlives "orders").2.1 _ hstatus⟩

end AppState
