/-
# A forwarder takes its time

A forwarder goes on without a pause only while its target accepts and the queue shrinks.  In every
other case, be it a refusal, an error, an empty queue, a request that cannot be built or a webhook
that was delivered and could not be deleted, its pass ends with the sleep of a whole interval.  So
between two sends of a forwarder it has slept, or got rid of the first webhook, whatever the other
tasks and the database do.
-/
import KaimanWebhooks.ForwardSafety
import KaimanWebhooks.Redelivery

namespace AppState

/-! ## The one send of a task -/

/-- A list of calls is split in one way at its only send. -/
theorem NoSend.split_unique {newer newer' older older' : List DoneCall} {d d' : DoneCall}
    (hold : NoSend older) (hold' : NoSend older') (hd : isSend d = true) (hd' : isSend d' = true)
    (heq : newer ++ d :: older = newer' ++ d' :: older') :
    newer = newer' ∧ d = d' ∧ older = older' := by
  induction newer generalizing newer' with
  | nil =>
      cases newer' with
      | nil => exact ⟨rfl, List.cons.inj heq⟩
      | cons x xs =>
          obtain ⟨-, hrest⟩ := List.cons.inj heq
          have hnone := hold d' (hrest ▸ List.mem_append_right _ List.mem_cons_self)
          rw [hd'] at hnone
          cases hnone
  | cons x xs ih =>
      cases newer' with
      | nil =>
          obtain ⟨-, hrest⟩ := List.cons.inj heq
          have hnone := hold' d (hrest ▸ List.mem_append_right _ List.mem_cons_self)
          rw [hd] at hnone
          cases hnone
      | cons x' xs' =>
          obtain ⟨rfl, hrest⟩ := List.cons.inj heq
          obtain ⟨rfl, hsame⟩ := ih hrest
          exact ⟨rfl, hsame⟩

end AppState

/-! ## How a pass ends -/

namespace Forwarder

open AppState

variable (fw : Forwarder)

/-- The sleep between two passes. -/
def interval : Duration := Duration.fromSecs fw.cfg.intervalSeconds.toNat

/-- The pass got rid of a webhook: the target accepted it, and after that it was deleted. -/
def Rids (past : List DoneCall) : Prop :=
  ∃ (newer older : List DoneCall) (webhook : Webhook) (request : HttpRequest)
    (resp : WireResponse) (id : ℤ) (affected : ℕ),
    past = newer ++ ⟨.send (some webhook) request, .ok resp⟩ :: older ∧
      webhook.id = some id ∧ resp.status = fw.cfg.expectedStatus ∧
      (⟨.sql (.deleteById id), .ok affected⟩ : DoneCall) ∈ newer

/-- **How a pass ends**: with the sleep of an interval, or with one webhook less. -/
def Paced (past : List DoneCall) : Prop :=
  (∃ (u : Unit) (older : List DoneCall), past = ⟨.sleep fw.interval, u⟩ :: older) ∨ fw.Rids past

variable {fw} {state : AppState} {past : List DoneCall}

/-- A failure that is recorded leaves the forwarder idle. -/
theorem rids_recordFailure (id attempts : ℤ) (failure : Failure) :
    ((fw.recordFailure id attempts failure).bind fun _ =>
      CallProgram.pure Progress.idle).Obeys state.machine.Answers (fun _ _ => True)
        (fun past' progress => progress = .drained → fw.Rids past') past := by
  rw [CallProgram.obeys_bind]
  exact CallProgram.obeys_of_forall (fun _ _ => trivial) (fun _ _ => by simp) _

/-- A delivery that leaves the forwarder busy got rid of the webhook. -/
theorem rids_deliver {webhook : Webhook} {id : ℤ} (hid : webhook.id = some id)
    (request : HttpRequest) :
    (fw.deliver id webhook request).Obeys state.machine.Answers (fun _ _ => True)
      (fun past' progress => progress = .drained → fw.Rids past') past := by
  refine ⟨trivial, fun answer _ => ?_⟩
  cases answer with
  | error cause => exact rids_recordFailure _ _ _
  | ok resp =>
      show (fw.onAnswer id webhook (.ok resp)).Obeys _ _ _ _
      rw [onAnswer]
      split
      · rename_i hstatus
        rw [onDelivered]
        refine Sqlite.obeys_bind_statement (fun _ _ _ => trivial) (fun _ _ => trivial) ?_ ?_
        · intro waiting affected _ _
          refine ⟨trivial, fun now _ => ⟨trivial, fun updated _ _ => ?_⟩⟩
          refine ⟨⟨.updateStatus fw.channel (.delivered (Prog.asI64 now)), updated⟩ ::
            ⟨.systemNow, now⟩ :: ⟨.sql (.deleteById id), .ok affected⟩ :: waiting, past, webhook,
            request, resp, id, affected, rfl, hid, hstatus, by simp⟩
        · exact fun _ _ _ _ => ⟨trivial, fun _ _ => ⟨trivial, fun _ _ => by simp⟩⟩
      · cases readBodyPreview resp with
        | none => trivial
        | some bodyPreview => exact rids_recordFailure _ _ _

/-- A pass that leaves the forwarder busy got rid of a webhook. -/
theorem rids_forwardNext (status : Option ChannelForwardStatus) :
    fw.forwardNext.Obeys state.machine.Answers (fun _ _ => True)
      (fun past' progress => progress = .drained → fw.Rids past')
      [⟨.readStatus fw.channel, status⟩] := by
  refine obeys_forwardNext_of_progress (fun _ _ _ _ => trivial) (fun _ _ _ => trivial)
    (fun _ => trivial) (fun _ _ => trivial) (fun _ _ => by simp) ?_ status
  intro past now row webhook request _ _ _ hparse _
  exact rids_deliver (parseWebhookRow_eq_some hparse).1 request

/-- **A cycle that returns has slept or got rid of a webhook.** -/
theorem paced_cycle :
    fw.cycle.Obeys state.machine.Answers (fun _ _ => True) (fun past' _ => fw.Paced past') [] := by
  simp only [cycle, isPaused, CallProgram.bind_eq, CallProgram.bind_call,
    CallProgram.bind_pure_left, CallProgram.pure_eq]
  refine ⟨trivial, fun status _ => ?_⟩
  dsimp only
  split
  · exact ⟨trivial, fun u _ => Or.inl ⟨u, _, rfl⟩⟩
  · rw [CallProgram.obeys_bind]
    refine (rids_forwardNext status).weaken (fun _ _ _ hP => hP) ?_
    rintro past' progress - hrids
    cases progress with
    | drained => exact Or.inr (hrids rfl)
    | idle => exact ⟨trivial, fun u _ => Or.inl ⟨u, _, rfl⟩⟩

end Forwarder

namespace AppState

/-- Every pass that returns has slept or got rid of a webhook. -/
theorem start_paced {state : AppState} (job : Job) :
    (state.start job).Obeys state.machine.Answers (fun _ _ => True)
      (fun past _ => ∀ k fw, job = .cycle k → state.forwarders[k]? = some fw → fw.Paced past)
        [] := by
  cases job with
  | cycle k =>
      simp only [start]
      cases hfw : state.forwarders[k]? with
      | none =>
          intro k' fw hjob hfw'
          cases hjob
          rw [hfw] at hfw'
          cases hfw'
      | some fw =>
          dsimp only
          rw [CallProgram.obeys_bind]
          refine Forwarder.paced_cycle.weaken (fun _ _ _ hP => hP) ?_
          rintro past - - hpaced k' fw' hjob hfw'
          cases hjob
          obtain rfl := Option.some.inj (hfw.symm.trans hfw')
          exact hpaced
  | _ => exact CallProgram.obeys_of_forall (fun _ _ => trivial) (fun _ _ _ _ => by simp) _

/-! ## Two sends of a forwarder -/

section Lifetime

variable {state : AppState} {ok : ServiceState → ServiceEvent → Prop} {w : World}
  {s : ServiceState} (h : state.machine.Reaches ok (.fresh w) s)

include h

/-- Before its send a task had sent nothing, in every lifetime. -/
theorem noSend_before {t : ServiceTask} (ht : t ∈ s.tasks) {d : DoneCall}
    {newer older : List DoneCall} (hpast : t.past = newer ++ d :: older) (hd : isSend d = true) :
    NoSend older := by
  obtain ⟨about, request, answer, rfl⟩ := exists_send_of_isSend hd
  have hpermitted := h.permitted rfl start_obeys t ht _ older (hpast ▸ List.suffix_append _ _)
  exact hpermitted.1

/-- **The calls of a task that has sent**, split at its send. -/
theorem exists_past_of_send {between earlier : List ServiceEntry} {e : ServiceEntry}
    (hhistory : s.history = between ++ e :: earlier) (hsend : isSend e.done = true) :
    ∃ t older, s.tasks[e.task]? = some t ∧ t.job = e.job ∧ NoSend older ∧
      t.past = (between.filter fun x => x.task = e.task).map Entry.done ++ e.done :: older := by
  have hmem : e ∈ s.history := hhistory ▸ List.mem_append_right _ List.mem_cons_self
  obtain ⟨t, ht, hjob, -⟩ := h.historyRecorded rfl e hmem
  have hpast := h.past_eq rfl rfl ht
  rw [hhistory, List.filter_append, List.filter_cons_of_pos (by simp), List.map_append,
    List.map_cons] at hpast
  exact ⟨t, _, ht, hjob, noSend_before h (List.mem_of_getElem? ht) hpast hsend, hpast⟩

/-- **A pass of a forwarder has ended** when a later one sends. -/
theorem paced_of_later {k : ℕ} {fw : Forwarder} (hfw : state.forwarders[k]? = some fw)
    {n : ℕ} {t : ServiceTask} (ht : s.tasks[n]? = some t) (hjob : t.job = .cycle k)
    (hsent : ¬NoSend t.past) {m : ℕ} {u : ServiceTask} (hu : s.tasks[m]? = some u)
    (hujob : u.job = .cycle k) {c : Call Query}
    {next : Call.Answer Query.Answer c → AppAction (Option HttpResponse)}
    (hrest : u.rest = .call c next) {about : Option Webhook} {request : HttpRequest}
    (hc : c = .send about request) : fw.Paced t.past := by
  have hopen := TaskState.not_hasReturned hrest
  have hne : n ≠ m := by
    rintro rfl
    obtain rfl := Option.some.inj (ht.symm.trans hu)
    have hpermitted := h.next_permitted rfl start_obeys (List.mem_of_getElem? ht) hrest
    rw [hc] at hpermitted
    exact hsent hpermitted.1
  have hreturned : t.hasReturned = true := by
    by_contra htopen
    exact hne (eq_of_underWay h ht hu hjob hujob htopen hopen)
  obtain ⟨response, hpure⟩ := TaskState.hasReturned_iff.mp hreturned
  exact h.returned_allowed rfl start_paced (List.mem_of_getElem? ht) hpure k fw hjob hfw

end Lifetime

/-- **A forwarder takes its time.**  In every lifetime and every interleaving, between two sends of
a forwarder the first of the two passes slept for the interval, or its target accepted the webhook
and the webhook was deleted. -/
theorem sends_are_paced (state : AppState) {ok : ServiceState → ServiceEvent → Prop} {w : World}
    {s : ServiceState} (h : state.machine.Reaches ok (.fresh w) s) {k : ℕ} {fw : Forwarder}
    (hfw : state.forwarders[k]? = some fw) {later between earlier : List ServiceEntry}
    {e e' : ServiceEntry} (hhistory : s.history = later ++ e' :: (between ++ e :: earlier))
    (he : e.job = .cycle k) (he' : e'.job = .cycle k) (hsend : isSend e.done = true)
    (hsend' : isSend e'.done = true) :
    (∃ x ∈ between, x.task = e.task ∧ x.call = .sleep fw.interval) ∨
      ∃ webhook request resp id, e.done = (⟨.send (some webhook) request, .ok resp⟩ : DoneCall) ∧
        resp.status = fw.cfg.expectedStatus ∧ webhook.id = some id ∧
        ∃ x ∈ between, x.task = e.task ∧
          ∃ affected, x.done = (⟨.sql (.deleteById id), .ok affected⟩ : DoneCall) := by
  obtain ⟨s₁, hmade, hhistory₁⟩ := h.madeIn_of_split rfl hhistory
  obtain ⟨i, u, next, -, hu, hujob, hrest, -⟩ := hmade.event
  obtain ⟨t, older, ht, htjob, hold, hpast⟩ := exists_past_of_send hmade.reaches hhistory₁ hsend
  have hsent : ¬NoSend t.past := by
    intro hnone
    have hfalse := hnone e.done (by rw [hpast]; simp)
    rw [hsend] at hfalse
    cases hfalse
  have hentry : ∀ d ∈ (between.filter fun x => x.task = e.task).map Entry.done,
      ∃ x ∈ between, x.task = e.task ∧ x.done = d := by
    intro d hd
    obtain ⟨x, hx, hxd⟩ := List.mem_map.mp hd
    obtain ⟨hbetween, htask⟩ := List.mem_filter.mp hx
    exact ⟨x, hbetween, of_decide_eq_true htask, hxd⟩
  obtain ⟨about, request, answer, hdone'⟩ := exists_send_of_isSend hsend'
  have hpaced := paced_of_later hmade.reaches hfw ht (htjob.trans he) hsent hu (hujob.trans he')
    hrest (congrArg Sigma.fst hdone')
  rcases hpaced with ⟨slept, rest, hslept⟩ | ⟨newer, rest, webhook, request, resp, id, affected,
    hrids, hid, hstatus, hdeleted⟩
  · refine Or.inl ?_
    rw [hpast] at hslept
    cases hcalls : (between.filter fun x => x.task = e.task).map Entry.done with
    | nil =>
        rw [hcalls] at hslept
        obtain ⟨hdone, -⟩ := List.cons.inj hslept
        rw [hdone] at hsend
        cases hsend
    | cons d ds =>
        rw [hcalls] at hslept hentry
        obtain ⟨rfl, -⟩ := List.cons.inj hslept
        obtain ⟨x, hx, htask, hdone⟩ := hentry _ List.mem_cons_self
        exact ⟨x, hx, htask, congrArg Sigma.fst hdone⟩
  · have hearlier := noSend_before hmade.reaches (List.mem_of_getElem? ht) hrids rfl
    rw [hpast] at hrids
    obtain ⟨hnewer, hdone, -⟩ := NoSend.split_unique hold hearlier hsend rfl hrids
    obtain ⟨x, hx, htask, hxd⟩ := hentry _ (hnewer ▸ hdeleted)
    exact Or.inr ⟨webhook, request, resp, id, hdone, hstatus, hid, x, hx, htask, affected, hxd⟩

/-- A list is split at two of its places. -/
theorem exists_split_of_getElem? {α : Type} {l : List α} {i j : ℕ} {a b : α} (ha : l[i]? = some a)
    (hb : l[i + 1 + j]? = some b) :
    ∃ later between earlier, l = later ++ a :: (between ++ b :: earlier) := by
  obtain ⟨hi, rfl⟩ := List.getElem?_eq_some_iff.mp ha
  rw [← List.getElem?_drop] at hb
  obtain ⟨hj, rfl⟩ := List.getElem?_eq_some_iff.mp hb
  refine ⟨l.take i, (l.drop (i + 1)).take j, (l.drop (i + 1)).drop (j + 1), ?_⟩
  rw [← List.drop_eq_getElem_cons hj, List.take_append_drop, ← List.drop_eq_getElem_cons hi,
    List.take_append_drop]

/-- One webhook that is refused and sent again by the next pass. -/
def refusedRun : List ServiceEvent :=
  ServiceEvent.task (.refresh 0) 0 (List.replicate 3 (Input.calm 1000 200)) ++
    ServiceEvent.task (.request .small) 1 (List.replicate 3 (Input.calm 1000 200)) ++
      ServiceEvent.task (.cycle 0) 2 (List.replicate 13 (Input.calm 1000 500)) ++
        ServiceEvent.task (.cycle 0) 3 (List.replicate 5 (Input.calm 2000 200))

/-- The target refuses a webhook and gets it again from the next pass: the forwarder slept in
between. -/
theorem sends_are_paced_small :
    ∃ (s : ServiceState) (later between earlier : List ServiceEntry) (e e' : ServiceEntry),
      small.machine.runEvents small.initial refusedRun = some s ∧
        s.history = later ++ e' :: (between ++ e :: earlier) ∧ e.job = .cycle 0 ∧
        e'.job = .cycle 0 ∧ isSend e.done = true ∧ isSend e'.done = true ∧
        ((∃ x ∈ between, x.task = e.task ∧ x.call = .sleep Forwarder.small.interval) ∨
          ∃ webhook request resp id,
            e.done = (⟨.send (some webhook) request, .ok resp⟩ : DoneCall) ∧
              resp.status = Forwarder.small.cfg.expectedStatus ∧ webhook.id = some id ∧
              ∃ x ∈ between, x.task = e.task ∧
                ∃ affected, x.done = (⟨.sql (.deleteById id), .ok affected⟩ : DoneCall)) := by
  have hrun : ∃ s, small.machine.runEvents small.initial refusedRun = some s ∧
      ∃ e', s.history[0]? = some e' ∧ ∃ e, s.history[0 + 1 + 12]? = some e ∧
        e.job = .cycle 0 ∧ e'.job = .cycle 0 ∧ isSend e.done = true ∧ isSend e'.done = true := by
    decide +kernel
  obtain ⟨s, hs, e', he', e, he, hjob, hjob', hsend, hsend'⟩ := hrun
  obtain ⟨later, between, earlier, hhistory⟩ := exists_split_of_getElem? he' he
  have hreaches : small.machine.Reaches (fun _ _ => True)
      (.fresh ⟨Table.empty, small.initialStatuses, []⟩) s :=
    TaskMachine.reaches_of_runEvents hs fun _ _ _ => trivial
  have hfw : small.forwarders[0]? = some Forwarder.small := rfl
  exact ⟨s, later, between, earlier, e, e', hs, hhistory, hjob, hjob', hsend, hsend',
    sends_are_paced small hreaches hfw hhistory hjob hjob' hsend hsend'⟩

end AppState
