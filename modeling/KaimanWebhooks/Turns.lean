/-
# The tasks in their turns

A task sends at most one webhook.  What a pass does about an answer comes after that: it does not
return before it has reported a webhook whose tenth attempt it made.  The tasks of a forwarder
take turns, so a pass that is under way is the only one of its forwarder.
-/
import KaimanWebhooks.FailedAttempt

/-- The call emitted an error record. -/
def isReport : DoneCall → Bool
  | ⟨.logError _, _⟩ => true
  | _ => false

theorem exists_of_isReport {d : DoneCall} (h : isReport d = true) :
    ∃ record u, d = ⟨.logError record, u⟩ := by
  unfold isReport at h
  split at h
  · exact ⟨_, _, rfl⟩
  · cases h

theorem exists_send_of_isSend {d : DoneCall} (h : isSend d = true) :
    ∃ about request answer, d = ⟨.send about request, answer⟩ := by
  unfold isSend at h
  split at h
  · exact ⟨_, _, _, rfl⟩
  · cases h

theorem isSend_of_attempted {id : ℤ} {d : DoneCall} (h : AppState.attempted id d) :
    isSend d = true := by
  obtain ⟨webhook, request, answer, rfl, -⟩ := AppState.exists_send_of_attempted h
  rfl

theorem OnlyAttempts.not_isReport {q : Query} {calls : List DoneCall} (h : OnlyAttempts q calls) :
    ∀ d ∈ calls, isReport d = false := by
  rintro ⟨c, r⟩ hd
  rcases h _ hd with htiming | hsql
  · cases c <;> first | rfl | cases htiming
  · obtain rfl : c = .sql q := hsql
    rfl

namespace AppState

variable {state : AppState}

/-! ## What a pass has done when it returns -/

variable (state) in
/-- A delivery that failed at the threshold has been reported. -/
def ReportsStuck (job : Job) (past : List DoneCall) : Prop :=
  ∀ webhook request answer, (⟨.send (some webhook) request, answer⟩ : DoneCall) ∈ past →
    (∀ id, ¬state.accepted job id ⟨.send (some webhook) request, answer⟩) →
    crossedStuckThreshold webhook.forwardAttempts = true → ∃ d ∈ past, isReport d = true

section Pass

variable {job : Job} {past newer : List DoneCall} {webhook : Webhook} {request : HttpRequest}
  {answer : PeerAnswer}

theorem reportsStuck_of_noSend (h : NoSend past) : state.ReportsStuck job past := by
  intro webhook request answer hsent
  cases h _ hsent

/-- After the one send of a task, what counts is that send. -/
theorem reportsStuck_of_sent (hpast : NoSend past) (hnewer : NoSend newer)
    (h : (∀ id, ¬state.accepted job id ⟨.send (some webhook) request, answer⟩) →
      crossedStuckThreshold webhook.forwardAttempts = true → ∃ d ∈ newer, isReport d = true) :
    state.ReportsStuck job (newer ++ ⟨.send (some webhook) request, answer⟩ :: past) := by
  intro webhook' request' answer' hsent hfailed hcrossed
  have hsame : (⟨.send (some webhook') request', answer'⟩ : DoneCall) =
      ⟨.send (some webhook) request, answer⟩ := by
    rcases List.mem_append.mp hsent with hmem | hmem
    · cases hnewer _ hmem
    · rcases List.mem_cons.mp hmem with heq | hmem
      · exact heq
      · cases hpast _ hmem
  cases hsame
  obtain ⟨d, hd, hreport⟩ := h hfailed hcrossed
  exact ⟨d, List.mem_append_left _ hd, hreport⟩

/-- A failure that a pass records is reported when its webhook has reached the threshold. -/
theorem reportsStuck_recordFailure {k : ℕ} {fw : Forwarder} {id : ℤ} (request : HttpRequest)
    (answer : PeerAnswer) (hsend : NoSend past) (failure : Failure) :
    ((fw.recordFailure id webhook.forwardAttempts failure).bind fun _ =>
        CallProgram.pure Progress.idle).Obeys state.machine.Answers (fun _ _ => True)
      (fun past' _ => state.ReportsStuck (.cycle k) past')
      (⟨.send (some webhook) request, answer⟩ :: past) := by
  rw [Forwarder.recordFailure_eq, recordFailureThen_bind]
  refine obeys_recordFailureThen (fun _ _ _ => trivial) ?_
  intro nanos secs secs' delay _
  refine ⟨fun _ _ => trivial, fun result waiting hwaiting => ?_⟩
  have hclocks : NoSend (waiting ++ [(⟨.systemNow, secs'⟩ : DoneCall), ⟨.systemNow, secs⟩,
      ⟨.subsecNanos, nanos⟩]) := by
    refine hwaiting.noSend.append ?_
    simp [NoSend, isSend]
  simp only [Forwarder.afterRecorded, Forwarder.reportStuck, CallProgram.bind_eq,
    CallProgram.pure_eq, CallProgram.bind_call, CallProgram.bind_pure_left]
  -- the report is there exactly when the count has reached the threshold
  split
  · refine ⟨trivial, fun reported _ => ⟨trivial, fun now _ => ⟨trivial, fun updated _ => ?_⟩⟩⟩
    have hsent := @reportsStuck_of_sent state (.cycle k) past _ webhook request answer hsend
      (((hclocks.cons (d := ⟨.logError _, reported⟩) rfl).cons
        (d := ⟨.systemNow, now⟩) rfl).cons (d := ⟨.updateStatus fw.channel _, updated⟩) rfl)
      fun _ _ => ⟨⟨.logError _, reported⟩, by simp, rfl⟩
    simpa using hsent
  · rename_i hcrossed
    refine ⟨trivial, fun now _ => ⟨trivial, fun updated _ => ?_⟩⟩
    have hsent := @reportsStuck_of_sent state (.cycle k) past _ webhook request answer hsend
      ((hclocks.cons (d := ⟨.systemNow, now⟩) rfl).cons
        (d := ⟨.updateStatus fw.channel _, updated⟩) rfl)
      fun _ h => absurd h hcrossed
    simpa using hsent

/-- The delivery of a pass ends with a report when it has to. -/
theorem reportsStuck_deliver {k : ℕ} {fw : Forwarder} (hfw : state.forwarders[k]? = some fw)
    {id : ℤ} (hid : webhook.id = some id) (request : HttpRequest) (hsend : NoSend past) :
    (fw.deliver id webhook request).Obeys state.machine.Answers (fun _ _ => True)
      (fun past' _ => state.ReportsStuck (.cycle k) past') past := by
  refine ⟨trivial, fun answer _ => ?_⟩
  have htarget : state.target (.cycle k) = some fw.cfg := by simp [target, hfw]
  cases answer with
  | error cause => exact reportsStuck_recordFailure request _ hsend _
  | ok resp =>
      show (Forwarder.onAnswer fw id webhook (.ok resp)).Obeys _ _ _ _
      rw [Forwarder.onAnswer]
      split
      · rename_i hstatus
        have haccepted : ∀ newer : List DoneCall, NoSend newer → state.ReportsStuck (.cycle k)
            (newer ++ ⟨.send (some webhook) request, .ok resp⟩ :: past) := by
          intro newer hnewer
          refine reportsStuck_of_sent hsend hnewer fun hfailed _ => ?_
          exact absurd ⟨hid, fw.cfg, htarget, hstatus⟩ (hfailed id)
        rw [Forwarder.onDelivered]
        refine Sqlite.obeys_bind_statement (fun _ _ _ => trivial) (fun _ _ => trivial) ?_ ?_
        · intro waiting affected _ hwaiting
          refine ⟨trivial, fun now _ => ⟨trivial, fun updated _ => ?_⟩⟩
          have hnewer : NoSend (⟨.updateStatus fw.channel (.delivered (Prog.asI64 now)), updated⟩ ::
              ⟨.systemNow, now⟩ :: ⟨.sql (.deleteById id), .ok affected⟩ :: waiting) :=
            (((hwaiting.onlyAttempts.noSend).cons rfl).cons rfl).cons rfl
          exact haccepted _ hnewer
        · intro waiting e hwaiting _
          refine ⟨trivial, fun now _ => ⟨trivial, fun updated _ => ?_⟩⟩
          have hnewer : NoSend (⟨.updateStatus fw.channel (.delivered (Prog.asI64 now)), updated⟩ ::
              ⟨.systemNow, now⟩ :: waiting) :=
            ((hwaiting.onlyAttempts.noSend).cons rfl).cons rfl
          exact haccepted _ hnewer
      · cases readBodyPreview resp with
        | none => trivial
        | some bodyPreview => exact reportsStuck_recordFailure request _ hsend _

/-- **A pass that returns has reported what it had to.** -/
theorem start_reportsStuck (k : ℕ) :
    (state.start (.cycle k)).Obeys state.machine.Answers (fun _ _ => True)
      (fun past _ => state.ReportsStuck (.cycle k) past) [] := by
  simp only [start]
  cases hfw : state.forwarders[k]? with
  | none => exact reportsStuck_of_noSend Quiet.nil.noSend
  | some fw =>
      dsimp only
      rw [CallProgram.obeys_bind]
      refine obeys_cycle_of_deliver (fun _ _ _ => trivial) (fun _ _ _ _ => trivial)
        (fun _ => reportsStuck_of_noSend) ?_ ?_
      · intro past now row webhook request hsend _ _ hparse _
        exact reportsStuck_deliver hfw (parseWebhookRow_eq_some hparse).1 request hsend
      · intro past d hd hreports webhook request answer hsent hfailed hcrossed
        rcases List.mem_cons.mp hsent with rfl | hsent
        · cases hd
        · obtain ⟨d', hd', hreport⟩ := hreports webhook request answer hsent hfailed hcrossed
          exact ⟨d', List.mem_cons_of_mem _ hd', hreport⟩

end Pass

/-! ## The sends of a task -/

section Sends

variable {ok : ServiceState → ServiceEvent → Prop} {s : ServiceState}
  (h : state.machine.Reaches ok state.initial s) {t : ServiceTask} (ht : t ∈ s.tasks)

include h ht

/-- Before its send a task had sent nothing. -/
theorem noSend_of_suffix {d : DoneCall} {older : List DoneCall} (hsuffix : (d :: older) <:+ t.past)
    (hd : isSend d = true) : NoSend older := by
  obtain ⟨about, request, answer, rfl⟩ := exists_send_of_isSend hd
  exact (h.permitted rfl start_obeys t ht _ _ hsuffix).1

/-- **A task sends once.** -/
theorem eq_of_isSend {d d' : DoneCall} (hd : d ∈ t.past) (hd' : d' ∈ t.past)
    (hsend : isSend d = true) (hsend' : isSend d' = true) : d = d' := by
  obtain ⟨newer, older, hpast⟩ := List.append_of_mem hd
  rw [hpast] at hd'
  have holder : NoSend older := noSend_of_suffix h ht (hpast ▸ List.suffix_append _ _) hsend
  rcases List.mem_append.mp hd' with hmem | hmem
  · -- the other send would have been made after this one
    obtain ⟨newer', older', rfl⟩ := List.append_of_mem hmem
    have hsuffix : (d' :: (older' ++ d :: older)) <:+ t.past := by
      rw [hpast, List.append_assoc]
      exact List.suffix_append _ _
    have hnone := noSend_of_suffix h ht hsuffix hsend' d (by simp)
    rw [hsend] at hnone
    cases hnone
  · rcases List.mem_cons.mp hmem with rfl | hmem
    · rfl
    · have hnone := holder d' hmem
      rw [hsend'] at hnone
      cases hnone

end Sends

/-! ## The tasks of a forwarder -/

section Forwarders

variable {ok : ServiceState → ServiceEvent → Prop} {s : ServiceState}

/-- The jobs belong to one forwarder. -/
def SameForwarder (i j : Job) : Prop := ∃ k, i.forwarder = some k ∧ j.forwarder = some k

/-- A forwarder starts its next task when those before it have returned. -/
theorem hasReturned_of_mayStart {j : Job} (hmay : mayStart s j = true) {t : ServiceTask}
    (ht : t ∈ s.tasks) (hsame : SameForwarder t.job j) : t.hasReturned = true := by
  obtain ⟨k, htk, hjk⟩ := hsame
  cases j with
  | refresh k' =>
      cases hjk
      have hnone := List.all_eq_true.mp hmay t ht
      rw [htk] at hnone
      simp at hnone
  | cycle k' =>
      cases hjk
      have hall := List.all_eq_true.mp (Bool.and_eq_true_iff.mp hmay).2 t ht
      rw [htk] at hall
      simpa using hall
  | request r => cases hjk
  | reset id => cases hjk

/-- **The tasks of a forwarder take turns.** -/
theorem takeTurns_of_reaches (h : state.machine.Reaches ok state.initial s) :
    TaskMachine.TakeTurns SameForwarder s := by
  refine h.takeTurns rfl (fun i j => ?_) fun s j hmay t ht => hasReturned_of_mayStart hmay ht
  rintro ⟨k, hi, hj⟩
  exact ⟨k, hj, hi⟩

end Forwarders

end AppState
