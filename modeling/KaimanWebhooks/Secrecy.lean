/-
# Secrets stay inside

Nothing but the check of a delivery and the signature of a forward may depend on the values of
secrets.  Two services that differ in these values alone are run side by side on the same events:
as long as they let in the same deliveries, they answer every request alike, keep the same rows and
statuses, and send the same requests up to the value of the signature header.
-/
import KaimanWebhooks.Lifetimes
import KaimanWebhooks.Lockstep
import KaimanWebhooks.Secrets

/-! ## What is looked up -/

/-- What is found first in two related lists. -/
theorem List.Forall₂.rel_find? {α β : Type} {r : α → β → Prop} {l : List α} {l' : List β}
    (h : List.Forall₂ r l l') {p : α → Bool} {q : β → Bool} (hpq : ∀ x y, r x y → p x = q y) :
    Option.Rel r (l.find? p) (l'.find? q) := by
  induction h with
  | nil => exact .none
  | @cons x y _ _ hxy _ ih =>
      rw [List.find?_cons, List.find?_cons, hpq x y hxy]
      cases q y with
      | true => exact .some hxy
      | false => exact ih

namespace AppState.SameButSecrets

variable {a b : AppState} (h : a.SameButSecrets b)

include h

/-- The channels of both, one by one. -/
theorem channels : List.Forall₂ (fun ch ch' => ch.hideSecrets = ch'.hideSecrets)
    a.config.channels b.config.channels := by
  have hmap := (AppConfig.mk.inj h.config).1
  rw [← List.forall₂_eq_eq_eq, List.forall₂_map_left_iff, List.forall₂_map_right_iff] at hmap
  exact hmap

theorem rel_findChannelByToken (bearer : String) :
    Option.Rel (fun ch ch' => ch.hideSecrets = ch'.hideSecrets)
      (a.config.findChannelByToken bearer) (b.config.findChannelByToken bearer) := by
  refine h.channels.rel_find? fun ch ch' hch => ?_
  have htoken := (WebhookChannelConfig.mk.inj hch).2.1
  rw [htoken]

theorem rel_findChannelByName (name : String) :
    Option.Rel (fun ch ch' => ch.hideSecrets = ch'.hideSecrets)
      (a.config.findChannelByName name) (b.config.findChannelByName name) := by
  refine h.channels.rel_find? fun ch ch' hch => ?_
  have hname := (WebhookChannelConfig.mk.inj hch).1
  rw [hname]

theorem isUiToken_eq : a.config.isUiToken = b.config.isUiToken := by
  unfold AppConfig.isUiToken
  rw [(AppConfig.mk.inj h.config).2.2.2.2.1]

/-- Both show the configuration to the same callers, and the same one. -/
theorem getConfigRoute_eq (headers : HeaderMap) :
    a.getConfigRoute headers = b.getConfigRoute headers := by
  have hpublic : a.config.publicDto = b.config.publicDto := by
    rw [← AppConfig.publicDto_hideSecrets, h.config, AppConfig.publicDto_hideSecrets]
  unfold getConfigRoute
  cases extractBearer headers with
  | none => rfl
  | some bearer =>
      have htoken := h.rel_findChannelByToken bearer
      dsimp only
      rw [h.isUiToken_eq, hpublic]
      generalize a.config.findChannelByToken bearer = found at htoken ⊢
      generalize b.config.findChannelByToken bearer = found' at htoken ⊢
      cases htoken <;> rfl

/-- Both let in the same callers. -/
theorem authorize_eq (headers : HeaderMap) (channelName : String) :
    a.authorize headers channelName = b.authorize headers channelName := by
  unfold authorize
  cases extractBearer headers with
  | none => rfl
  | some bearer =>
      dsimp only
      have htoken := h.rel_findChannelByToken bearer
      have hname := h.rel_findChannelByName channelName
      unfold authorizeChannel
      rw [h.isUiToken_eq]
      generalize a.config.findChannelByToken bearer = found at htoken ⊢
      generalize b.config.findChannelByToken bearer = found' at htoken ⊢
      generalize a.config.findChannelByName channelName = named at hname ⊢
      generalize b.config.findChannelByName channelName = named' at hname ⊢
      cases htoken with
      | some hch =>
          have hsame := (WebhookChannelConfig.mk.inj hch).1
          dsimp only
          rw [hsame]
      | none => cases hname <;> rfl

/-- Both find a forward target, or answer the same. -/
theorem findForwardTarget_cases (channelName : String) :
    (∃ response, a.findForwardTarget channelName = .error response ∧
      b.findForwardTarget channelName = .error response) ∨
    ∃ ch ch' fwd fwd', a.findForwardTarget channelName = .ok (ch, fwd) ∧
      b.findForwardTarget channelName = .ok (ch', fwd') ∧
        ch.hideSecrets = ch'.hideSecrets ∧ fwd.hideSecret = fwd'.hideSecret := by
  have hname := h.rel_findChannelByName channelName
  unfold findForwardTarget
  generalize a.config.findChannelByName channelName = named at hname ⊢
  generalize b.config.findChannelByName channelName = named' at hname ⊢
  cases hname with
  | none => exact Or.inl ⟨_, rfl, rfl⟩
  | @some ch ch' hch =>
      have hforward := rel_forward hch
      dsimp only
      generalize ch.forward = target at hforward ⊢
      generalize ch'.forward = target' at hforward ⊢
      cases hforward with
      | none => exact Or.inl ⟨_, rfl, rfl⟩
      | @some fwd fwd' hfwd => exact Or.inr ⟨ch, ch', fwd, fwd', rfl, rfl, hch, hfwd⟩

/-- The forwarders of both, one by one. -/
theorem forwarders : List.Forall₂ (fun fw fw' => ∃ ch ∈ a.config.channels, ∃ ch' fwd fwd',
      ch.forward = some fwd ∧ ch.hideSecrets = ch'.hideSecrets ∧
        fwd.hideSecret = fwd'.hideSecret ∧ fw = a.forwarderOf ch fwd ∧
        fw' = b.forwarderOf ch' fwd') a.forwarders b.forwarders := by
  have hchannels := (List.forall₂_and_left (p := (· ∈ a.config.channels)) a.config.channels
    b.config.channels).mpr ⟨fun _ hmem => hmem, h.channels⟩
  rw [forwarders_eq, forwarders_eq]
  refine List.rel_filterMap (fun ch ch' hboth => ?_) hchannels
  obtain ⟨hmem, hch⟩ := hboth
  have hforward := rel_forward hch
  generalize htarget : ch.forward = target at hforward ⊢
  generalize ch'.forward = target' at hforward ⊢
  cases hforward with
  | none => exact .none
  | @some fwd fwd' hfwd =>
      exact .some ⟨ch, hmem, ch', fwd, fwd', htarget, hch, hfwd, rfl, rfl⟩

end AppState.SameButSecrets

/-! ## The forwarders of both -/

/-- The forwarders differ in nothing but the signatures of what they send. -/
structure Forwarder.Twins (fw fw' : Forwarder) : Prop where
  channel : fw.channel = fw'.channel
  backoff : fw.backoff = fw'.backoff
  db : fw.db = fw'.db
  intervalSeconds : fw.cfg.intervalSeconds = fw'.cfg.intervalSeconds
  expectedStatus : fw.cfg.expectedStatus = fw'.cfg.expectedStatus
  request : ∀ webhook,
    Option.Rel (SignedLike fw.db.ext) (fw.buildRequest webhook) (fw'.buildRequest webhook)

namespace Forwarder.Twins

variable {fw fw' : Forwarder} (h : fw.Twins fw')

include h

theorem refreshQueueSize_eq : fw.refreshQueueSize = fw'.refreshQueueSize := by
  unfold refreshQueueSize
  rw [h.channel, h.db]

theorem onAnswer_eq (id : ℤ) (webhook : Webhook) (answer : PeerAnswer) :
    fw.onAnswer id webhook answer = fw'.onAnswer id webhook answer := by
  cases answer <;>
    simp only [onAnswer, onDelivered, recordFailure, afterRecorded, reportStuck, h.channel,
      h.backoff, h.db, h.expectedStatus]

/-- Two requests of one webhook are answered alike. -/
theorem lockstep_deliver (id : ℤ) (webhook : Webhook) {request request' : HttpRequest}
    (hlike : SignedLike fw.db.ext request request') :
    CallProgram.Lockstep (Call.SameButSignature fw.db.ext) Eq (fw.deliver id webhook request)
      (fw'.deliver id webhook request') := by
  refine .call (Or.inr ⟨some webhook, request, request', rfl, rfl, hlike⟩) ?_
  intro answer answer' hanswer
  obtain rfl : answer = answer' := eq_of_heq hanswer
  show CallProgram.Lockstep _ Eq (fw.onAnswer id webhook answer) (fw'.onAnswer id webhook answer)
  rw [h.onAnswer_eq]
  exact CallProgram.lockstep_refl (Call.SameButSignature.refl _) _

theorem lockstep_onPeeked (peeked : Except WebhookRepositoryError (Option Webhook)) :
    CallProgram.Lockstep (Call.SameButSignature fw.db.ext) Eq (fw.onPeeked peeked)
      (fw'.onPeeked peeked) := by
  rcases peeked with e | (- | webhook)
  · exact .pure rfl
  · simp only [onPeeked]
    rw [h.refreshQueueSize_eq]
    exact CallProgram.lockstep_refl (Call.SameButSignature.refl _) _
  · simp only [onPeeked]
    cases webhook.id with
    | none => exact .pure rfl
    | some id =>
        have hrequest := h.request webhook
        dsimp only
        generalize fw.buildRequest webhook = built at hrequest ⊢
        generalize fw'.buildRequest webhook = built' at hrequest ⊢
        cases hrequest with
        | none => exact .pure rfl
        | some hlike => exact h.lockstep_deliver id webhook hlike

/-- **A turn of both forwarders.** -/
theorem lockstep_cycle :
    CallProgram.Lockstep (Call.SameButSignature fw.db.ext) Eq fw.cycle fw'.cycle := by
  have hsame := Call.SameButSignature.refl fw.db.ext
  have hpeek : fw'.peek = fw.peek := by
    unfold peek
    rw [h.channel, h.db]
  have hpaused : fw'.isPaused = fw.isPaused := by
    unfold isPaused
    rw [h.channel]
  unfold cycle
  rw [hpaused, ← h.intervalSeconds]
  refine CallProgram.lockstep_bind_of_eq hsame fw.isPaused fun paused => ?_
  cases paused with
  | true => exact CallProgram.lockstep_refl hsame _
  | false =>
      have hpass : CallProgram.Lockstep (Call.SameButSignature fw.db.ext) Eq fw.forwardNext
          fw'.forwardNext := by
        unfold forwardNext
        rw [hpeek]
        exact CallProgram.lockstep_bind_of_eq hsame fw.peek h.lockstep_onPeeked
      refine hpass.bind fun progress progress' hprogress => ?_
      obtain rfl := hprogress
      exact CallProgram.lockstep_refl hsame _

end Forwarder.Twins

/-! ## The tasks of both -/

/-- Both services let this delivery in, or refuse it with the same answer. -/
def AppState.AdmitsAlike (a b : AppState) : Job → Prop
  | .request (.receive clientIp channel headers body) =>
      a.checkRequest clientIp channel headers body = b.checkRequest clientIp channel headers body
  | _ => True

namespace AppState.SameButSecrets

variable {a b : AppState} (h : a.SameButSecrets b)
  (hsigns : a.config.SignsAllOrNone a.db.ext)

/-- The same check, then handlers in lockstep. -/
theorem lockstep_orRespond {α : Type} {check check' : Except HttpResponse α}
    (hcheck : check = check') {next next' : α → AppAction HttpResponse}
    (hnext : ∀ x, CallProgram.Lockstep (Call.SameButSignature a.db.ext) Eq (next x) (next' x)) :
    CallProgram.Lockstep (Call.SameButSignature a.db.ext) Eq (orRespond check next)
      (orRespond check' next') := by
  subst hcheck
  cases check with
  | error response => exact .pure rfl
  | ok x => exact hnext x

include h hsigns

/-- The manual retry of both. -/
theorem lockstep_retry (channelName : String) (id : ℤ) (headers : HeaderMap) :
    CallProgram.Lockstep (Call.SameButSignature a.db.ext) Eq
      (a.retryWebhookRoute channelName id headers)
      (b.retryWebhookRoute channelName id headers) := by
  have hsame := Call.SameButSignature.refl a.db.ext
  refine lockstep_orRespond (h.authorize_eq headers channelName) fun _ => ?_
  unfold retryFor
  rcases h.findForwardTarget_cases channelName with
    ⟨response, hfind, hfind'⟩ | ⟨ch, ch', fwd, fwd', hfind, hfind', hch, hfwd⟩
  · rw [hfind, hfind']
    exact .pure rfl
  rw [hfind, hfind']
  have hload : b.loadWebhookToRetry channelName id = a.loadWebhookToRetry channelName id := by
    unfold loadWebhookToRetry
    rw [h.db]
  simp only [orRespond, hload, CallProgram.bind_eq]
  refine CallProgram.lockstep_bind_of_eq hsame _ fun loaded => ?_
  cases loaded with
  | error response => exact .pure rfl
  | ok webhook =>
      dsimp only [retryLoaded]
      obtain ⟨hmem, -, hforward⟩ := channel_of_findForwardTarget hfind
      rcases h.retry_buildRequest hch hfwd (hsigns ch hmem fwd hforward) channelName id webhook with
        ⟨response, hbuild, hbuild'⟩ | ⟨request, request', hbuild, hbuild', hlike⟩
      · rw [hbuild, hbuild']
        exact .pure rfl
      rw [hbuild, hbuild']
      refine .call (Or.inr ⟨some webhook, request, request', rfl, rfl, hlike⟩) ?_
      intro answer answer' hanswer
      obtain rfl : answer = answer' := eq_of_heq hanswer
      have hbackoff : fwd.resolveBackoff a.config.forwardBackoff =
          fwd'.resolveBackoff b.config.forwardBackoff := by
        rw [resolveBackoff_eq hfwd, (AppConfig.mk.inj h.config).2.2.2.2.2]
      have hstatus := (WebhookForwardConfig.mk.inj hfwd).2.2.1
      have hanswered : RetryContext.onAnswer ⟨a, channelName, id, webhook, ch, fwd⟩ answer =
          RetryContext.onAnswer ⟨b, channelName, id, webhook, ch', fwd'⟩ answer := by
        cases answer <;>
          simp only [RetryContext.onAnswer, RetryContext.onTransportError, RetryContext.onResponse,
            RetryContext.recordFailure, RetryContext.forgetDelivered, h.db, hbackoff, hstatus]
      show CallProgram.Lockstep _ Eq
        (RetryContext.onAnswer ⟨a, channelName, id, webhook, ch, fwd⟩ answer)
        (RetryContext.onAnswer ⟨b, channelName, id, webhook, ch', fwd'⟩ answer)
      rw [hanswered]
      exact CallProgram.lockstep_refl hsame _

/-- **The handlers of both.** -/
theorem lockstep_handle (r : Request) (hr : a.AdmitsAlike b (.request r)) :
    CallProgram.Lockstep (Call.SameButSignature a.db.ext) Eq (a.handle r) (b.handle r) := by
  have hrefl : ∀ p : AppAction HttpResponse,
      CallProgram.Lockstep (Call.SameButSignature a.db.ext) Eq p p :=
    CallProgram.lockstep_refl (Call.SameButSignature.refl a.db.ext)
  have hpayload : a.payloadJson = b.payloadJson := by
    funext payload
    unfold payloadJson
    rw [h.db]
  cases r with
  | receive clientIp channel headers body =>
      refine lockstep_orRespond hr fun _ => ?_
      have hheaders : a.forwardedHeaders headers = b.forwardedHeaders headers := by
        unfold forwardedHeaders
        rw [(AppConfig.mk.inj h.config).2.2.1]
      rw [h.db, hheaders]
      exact h.db ▸ hrefl _
  | poll channel headers =>
      refine lockstep_orRespond (h.authorize_eq headers channel) fun _ => ?_
      unfold pollFor webhookDto
      rw [hpayload, h.db]
      exact h.db ▸ hrefl _
  | list channel headers =>
      refine lockstep_orRespond (h.authorize_eq headers channel) fun _ => ?_
      unfold listFor webhookListItemDto
      rw [hpayload, h.db]
      exact h.db ▸ hrefl _
  | delete channel id headers =>
      refine lockstep_orRespond (h.authorize_eq headers channel) fun _ => ?_
      unfold deleteFor
      rw [h.db]
      exact h.db ▸ hrefl _
  | queue channel headers =>
      refine lockstep_orRespond (h.authorize_eq headers channel) fun _ => ?_
      unfold viewFor queueItemDto
      rw [hpayload, h.db]
      rcases h.findForwardTarget_cases channel with
        ⟨response, hfind, hfind'⟩ | ⟨ch, ch', fwd, fwd', hfind, hfind', -, -⟩
      · rw [hfind, hfind']
        exact .pure rfl
      · rw [hfind, hfind']
        exact h.db ▸ hrefl _
  | pause channel headers =>
      exact lockstep_orRespond (h.authorize_eq headers channel) fun _ => hrefl _
  | resume channel headers =>
      exact lockstep_orRespond (h.authorize_eq headers channel) fun _ => hrefl _
  | clear channel headers =>
      refine lockstep_orRespond (h.authorize_eq headers channel) fun _ => ?_
      unfold clearFor
      rw [h.db]
      exact h.db ▸ hrefl _
  | retry channel id headers => exact h.lockstep_retry hsigns channel id headers

/-- Forwarders of both for alike channels are twins. -/
theorem twins {ch ch' : WebhookChannelConfig} (hmem : ch ∈ a.config.channels)
    {fwd fwd' : WebhookForwardConfig} (hforward : ch.forward = some fwd)
    (hch : ch.hideSecrets = ch'.hideSecrets) (hfwd : fwd.hideSecret = fwd'.hideSecret) :
    (a.forwarderOf ch fwd).Twins (b.forwarderOf ch' fwd') where
  channel := (WebhookChannelConfig.mk.inj hch).1
  backoff := by
    show fwd.resolveBackoff a.config.forwardBackoff = fwd'.resolveBackoff b.config.forwardBackoff
    rw [resolveBackoff_eq hfwd, (AppConfig.mk.inj h.config).2.2.2.2.2]
  db := h.db
  intervalSeconds := (WebhookForwardConfig.mk.inj hfwd).2.1
  expectedStatus := (WebhookForwardConfig.mk.inj hfwd).2.2.1
  request := fun webhook => by
    rw [buildRequest_forwarderOf, buildRequest_forwarderOf]
    exact h.rel_signedRequest hch hfwd (hsigns ch hmem fwd hforward) webhook

/-- The forwarders of one number, in both services. -/
theorem rel_twins (k : ℕ) :
    Option.Rel (fun fw fw' => fw.db.ext = a.db.ext ∧ fw.Twins fw') a.forwarders[k]?
      b.forwarders[k]? := by
  refine List.Forall₂.rel_getElem? (h.forwarders.imp fun fw fw' htwins => ?_) k
  obtain ⟨ch, hmem, ch', fwd, fwd', hforward, hch, hfwd, rfl, rfl⟩ := htwins
  exact ⟨rfl, h.twins hsigns hmem hforward hch hfwd⟩

/-- **The jobs of both.** -/
theorem lockstep_start (job : Job) (hjob : a.AdmitsAlike b job) :
    CallProgram.Lockstep (Call.SameButSignature a.db.ext) Eq (a.start job) (b.start job) := by
  have hsame := Call.SameButSignature.refl a.db.ext
  cases job with
  | refresh k =>
      have htwins := h.rel_twins hsigns k
      simp only [start]
      generalize a.forwarders[k]? = found at htwins ⊢
      generalize b.forwarders[k]? = found' at htwins ⊢
      cases htwins with
      | none => exact .pure rfl
      | some htwin =>
          dsimp only
          rw [htwin.2.refreshQueueSize_eq]
          exact CallProgram.lockstep_refl hsame _
  | cycle k =>
      have htwins := h.rel_twins hsigns k
      simp only [start]
      generalize a.forwarders[k]? = found at htwins ⊢
      generalize b.forwarders[k]? = found' at htwins ⊢
      cases htwins with
      | none => exact .pure rfl
      | some htwin =>
          have hcycle := htwin.2.lockstep_cycle
          rw [htwin.1] at hcycle
          exact hcycle.bind fun _ _ _ => .pure rfl
  | request r =>
      refine (h.lockstep_handle hsigns r hjob).bind fun response response' hresponse => ?_
      exact .pure (congrArg some hresponse)
  | reset id =>
      simp only [start]
      rw [h.db]
      exact h.db ▸ CallProgram.lockstep_refl hsame _

end AppState.SameButSecrets

/-! ## Both services side by side -/

theorem List.Forall₂.all_eq {α β : Type} {r : α → β → Prop} {l : List α} {l' : List β}
    (h : List.Forall₂ r l l') {p : α → Bool} {q : β → Bool} (hpq : ∀ x y, r x y → p x = q y) :
    l.all p = l'.all q := by
  induction h with
  | nil => rfl
  | cons hxy _ ih => rw [List.all_cons, List.all_cons, hpq _ _ hxy, ih]

/-- Alike tasks have both returned or have both not. -/
theorem TaskState.Alike.hasReturned_eq {C J α : Type} {R : C → Type} {same : C → C → Prop}
    {t t' : TaskState C R α J} (h : t.Alike same t') : t.hasReturned = t'.hasReturned := by
  rw [Bool.eq_iff_iff, hasReturned_iff, hasReturned_iff]
  exact exists_congr fun result => h.rest.eq_pure_iff result

/-- Alike systems let the same jobs start. -/
theorem mayStart_of_alike {same : Call Query → Call Query → Prop} {s s' : ServiceState}
    (h : TaskSystem.Alike same s s') (job : Job) : mayStart s job = mayStart s' job := by
  cases job with
  | request r => rfl
  | reset id => rfl
  | refresh k =>
      refine h.tasks.all_eq fun t t' ht => ?_
      rw [ht.job]
  | cycle k =>
      have hrefreshed : (s.tasks.any fun t => t.job = .refresh k) =
          s'.tasks.any fun t => t.job = .refresh k := by
        rw [List.any_eq_not_all_not, List.any_eq_not_all_not]
        refine congrArg _ (h.tasks.all_eq fun t t' ht => ?_)
        rw [ht.job]
      have hreturned : (s.tasks.all fun t => t.job.forwarder ≠ some k || t.hasReturned) =
          s'.tasks.all fun t => t.job.forwarder ≠ some k || t.hasReturned := by
        refine h.tasks.all_eq fun t t' ht => ?_
        rw [ht.job, ht.hasReturned_eq]
      exact congrArg₂ (· && ·) hrefreshed hreturned

namespace AppState

/-- The forwarders are registered under the same names. -/
theorem SameButSecrets.initialStatuses_eq {a b : AppState} (h : a.SameButSecrets b) :
    a.initialStatuses = b.initialStatuses := by
  funext channel
  have hany : a.forwarders.all (fun fw => !decide (fw.channel = channel)) =
      b.forwarders.all fun fw => !decide (fw.channel = channel) := by
    refine h.forwarders.all_eq fun fw fw' htwins => ?_
    obtain ⟨ch, -, ch', fwd, fwd', -, hch, -, rfl, rfl⟩ := htwins
    rw [forwarderOf, forwarderOf, (WebhookChannelConfig.mk.inj hch).1]
  unfold initialStatuses
  rw [List.any_eq_not_all_not, List.any_eq_not_all_not, hany]

/-- **Both machines are in lockstep** while they let in the same deliveries. -/
theorem SameButSecrets.inLockstep {a b : AppState} (h : a.SameButSecrets b)
    (hsigns : a.config.SignsAllOrNone a.db.ext) (hclient : a.db.ext.ObjectsAlike) :
    TaskMachine.InLockstep (Call.SameButSignature a.db.ext) (a.AdmitsAlike b) a.machine
      b.machine where
  perform := fun c c' i w hc => by
    show HEq (perform a.db.ext c i w).1 (perform b.db.ext c' i w).1 ∧
      (perform a.db.ext c i w).2 = (perform b.db.ext c' i w).2
    rw [← h.db]
    exact perform_sameButSignature hclient i w hc
  start := h.lockstep_start hsigns
  mayStart := fun _ _ job hs => mayStart_of_alike hs job

/-- What is shown of a configuration: the verdict of startup, the public configuration with those
who may see it, the gauges, and which headers are redacted. -/
structure ShownAlike (a b : AppState) : Prop where
  startup : a.config.validateConfig a.db.ext = b.config.validateConfig b.db.ext
  configRoute : ∀ headers, a.getConfigRoute headers = b.getConfigRoute headers
  gauges : recordChannelSecurityGauges a.config.channels .empty =
    recordChannelSecurityGauges b.config.channels .empty
  redacted : ∀ lower, collectSensitiveHeaders lower a.config.channels =
    collectSensitiveHeaders lower b.config.channels

theorem SameButSecrets.shownAlike {a b : AppState} (h : a.SameButSecrets b) : a.ShownAlike b where
  startup := by
    rw [← AppConfig.validateConfig_hideSecrets, h.config, AppConfig.validateConfig_hideSecrets,
      h.db]
  configRoute := h.getConfigRoute_eq
  gauges := by
    rw [← recordChannelSecurityGauges_hideSecrets, (AppConfig.mk.inj h.config).1,
      recordChannelSecurityGauges_hideSecrets]
  redacted := fun lower => by
    rw [← collectSensitiveHeaders_hideSecrets, (AppConfig.mk.inj h.config).1,
      collectSensitiveHeaders_hideSecrets]

/-- How the tasks ended that have ended: with which response, or in which panic. -/
def outcomes (s : ServiceState) : List (Option (CallProgram.Outcome (Option HttpResponse))) :=
  s.tasks.map fun t =>
    match t.rest with
    | .pure response => some (.done response)
    | .panic message => some (.panicked message)
    | .call _ _ => none

/-- The same rows, statuses and requests on the wire, the same responses, and the same history of
calls up to signatures, with the same answers. -/
structure LooksLike (ext : External) (s s' : ServiceState) : Prop where
  shared : s.shared = s'.shared
  outcomes : outcomes s = outcomes s'
  history : List.Forall₂ (Entry.Alike (Call.SameButSignature ext)) s.history s'.history

theorem looksLike_of_alike {ext : External} {s s' : ServiceState}
    (h : s.Alike (Call.SameButSignature ext) s') : LooksLike ext s s' where
  shared := h.shared
  outcomes := by
    have htasks := h.tasks
    unfold AppState.outcomes
    rw [← List.forall₂_eq_eq_eq, List.forall₂_map_left_iff, List.forall₂_map_right_iff]
    refine htasks.imp fun t t' ht => ?_
    have hrest := ht.rest
    generalize t.rest = rest at hrest ⊢
    generalize t'.rest = rest' at hrest ⊢
    cases hrest with
    | pure hsame => rw [hsame]
    | call _ _ => rfl
    | panic message => rfl
  history := h.history

/-- **Secrets stay inside.**  Two services that differ in nothing but the values of their secrets
show the same configuration; and on the same events, as long as they let in the same deliveries,
the same things are possible, and everything they store, show, answer and call is the same up to
the signatures they send.  What could tell the secrets apart is shut out: a sign template that
renders some digests only, and a client that objects to some signatures only. -/
theorem secrets_stay_inside (a b : AppState) (h : a.SameButSecrets b)
    (hsigns : a.config.SignsAllOrNone a.db.ext) (hclient : a.db.ext.ObjectsAlike) :
    a.ShownAlike b ∧ a.initial = b.initial ∧
      ∀ (w : World) (events : List ServiceEvent),
        (∀ job, .spawn job ∈ events → a.AdmitsAlike b job) →
          Option.Rel (LooksLike a.db.ext) (a.machine.runEvents (.fresh w) events)
            (b.machine.runEvents (.fresh w) events) := by
  refine ⟨h.shownAlike, ?_, fun w events hevents => ?_⟩
  · unfold initial
    rw [h.initialStatuses_eq]
  · have hfresh : (TaskSystem.fresh w : ServiceState).Alike (Call.SameButSignature a.db.ext)
        (.fresh w) := ⟨rfl, .nil, .nil⟩
    have hrun := (h.inLockstep hsigns hclient).rel_runEvents hfresh hevents
    generalize a.machine.runEvents (.fresh w) events = s at hrun ⊢
    generalize b.machine.runEvents (.fresh w) events = s' at hrun ⊢
    cases hrun with
    | none => exact .none
    | some halike => exact .some (looksLike_of_alike halike)

/-! ## Two services with a secret each -/

theorem keyed_rendersPlain : External.keyed.RendersPlain := fun _ _ _ _ => rfl

/-- A service that signs its forwards with this secret. -/
def signingWith (secret : String) : AppState where
  config :=
    { AppConfig.small with
      channels :=
        [⟨"orders", "orders-token", none, none, .plain, none, none,
          some ⟨"http://target/hook", 60, 200, 15, some "x-signature", some secret,
            some "sha256=\x7b\x7b signature \x7d\x7d", none⟩,
          none, none, true, none⟩] }
  db := ⟨External.keyed, LockRetryPolicy.default⟩

/-- A webhook comes in and is forwarded. -/
def forwardedEvents : List ServiceEvent :=
  ServiceEvent.task (.request .small) 0 (List.replicate 3 (Input.calm 1000 200)) ++
    ServiceEvent.task (.refresh 0) 1 (List.replicate 3 (Input.calm 1000 200)) ++
      ServiceEvent.task (.cycle 0) 2 (List.replicate 9 (Input.calm 1000 200))

/-- The webhook is forwarded under two signatures, and that is all there is to see. -/
theorem secrets_stay_inside_signing :
    ∃ s s', (signingWith "key").machine.runEvents (.fresh (signingWith "key").initial.shared)
        forwardedEvents = some s ∧
      (signingWith "seal").machine.runEvents (.fresh (signingWith "key").initial.shared)
        forwardedEvents = some s' ∧
      LooksLike External.keyed s s' ∧ sentHeaders s ≠ sentHeaders s' := by
  have hadmits : ∀ job, .spawn job ∈ forwardedEvents →
      (signingWith "key").AdmitsAlike (signingWith "seal") job := by
    intro job hjob
    have hcases : job = .request .small ∨ job = .refresh 0 ∨ job = .cycle 0 := by
      simpa [forwardedEvents, ServiceEvent.task] using hjob
    have hadmitted : ∀ secret, (signingWith secret).checkRequest (.v4 0) "orders"
        [("content-type", HeaderValue.ofText "application/json".toList)] [123, 125] = .ok () :=
      fun secret => rfl
    rcases hcases with rfl | rfl | rfl
    · exact (hadmitted "key").trans (hadmitted "seal").symm
    · trivial
    · trivial
  have hsigns : (signingWith "key").config.SignsAllOrNone External.keyed := by
    rintro ch hch fwd hfwd template htemplate
    obtain rfl := List.mem_singleton.mp hch
    cases hfwd
    cases htemplate
    exact keyed_rendersPlain.signsAllOrNone (by decide +kernel)
  have hlook := (secrets_stay_inside (signingWith "key") (signingWith "seal") ⟨rfl, rfl⟩
    hsigns fun _ _ _ => rfl).2.2 (signingWith "key").initial.shared forwardedEvents
    hadmits
  have hruns : ((signingWith "key").machine.runEvents
      (.fresh (signingWith "key").initial.shared) forwardedEvents).isSome := by
    decide +kernel
  have hsent : ((signingWith "key").machine.runEvents
      (.fresh (signingWith "key").initial.shared) forwardedEvents).map sentHeaders ≠
        ((signingWith "seal").machine.runEvents
          (.fresh (signingWith "key").initial.shared) forwardedEvents).map sentHeaders := by
    decide +kernel
  obtain ⟨s, hs⟩ := Option.isSome_iff_exists.mp hruns
  rw [hs] at hlook hsent
  cases hs' : (signingWith "seal").machine.runEvents
      (.fresh (signingWith "key").initial.shared) forwardedEvents with
  | none =>
      rw [hs'] at hlook
      cases hlook
  | some s' =>
      rw [hs'] at hlook hsent
      cases hlook with
      | some hlooks => exact ⟨s, s', hs, rfl, hlooks, fun h => hsent (congrArg some h)⟩

end AppState
