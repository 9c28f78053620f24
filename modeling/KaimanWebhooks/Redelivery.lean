/-
# What a repeated delivery is due to

Delivery is at least once: a webhook that was accepted but could not be deleted is sent again.
A forwarder never repeats an accepted delivery for any other reason.  In one lifetime of the
service all its deliveries of a webhook but the last are followed by a delete that came back
with an error, and each restart may cut one delivery off from its delete.  Nothing else that
happens to the table (polls, clears, manual retries, resets, failures of any statement, a delete
that succeeds after a lock) adds to the count.
-/
import KaimanWebhooks.Restart
import KaimanWebhooks.SingleDelivery
import KaimanWebhooks.Turns

/-- Every element with a property but the first of them has the other property, too. -/
theorem List.countP_le_of_pairwise {α : Type} {p q : α → Bool} {l : List α}
    (h : l.Pairwise fun a b => p a = true → p b = true → q b = true) :
    l.countP p ≤ l.countP (fun a => p a && q a) + 1 := by
  induction l with
  | nil => exact Nat.zero_le _
  | cons a l ih =>
      obtain ⟨hhead, htail⟩ := List.pairwise_cons.mp h
      cases ha : p a with
      | false =>
          rw [List.countP_cons_of_neg (by simp [ha]), List.countP_cons_of_neg (by simp [ha])]
          exact ih htail
      | true =>
          have hall : l.countP p = l.countP fun a => p a && q a := by
            refine List.countP_congr fun b hb => ?_
            rw [Bool.and_eq_true]
            exact ⟨fun hpb => ⟨hpb, hhead b hb ha hpb⟩, And.left⟩
          rw [List.countP_cons_of_pos ha, hall, List.countP_cons]
          omega

/-! ## Deletes that fail -/

/-- The call tried to delete a row and failed. -/
def failedDelete (id : ℤ) : DoneCall → Bool
  | ⟨.sql (.deleteById id'), .error _⟩ => id' = id
  | _ => false

/-- The call deleted a row. -/
def committedDelete (id : ℤ) : DoneCall → Bool
  | ⟨.sql (.deleteById id'), .ok _⟩ => id' = id
  | _ => false

theorem committedDelete_eq_true {id : ℤ} {d : DoneCall} (h : committedDelete id d = true) :
    ∃ affected, d = ⟨.sql (.deleteById id), .ok affected⟩ := by
  unfold committedDelete at h
  split at h
  · obtain rfl := of_decide_eq_true h
    exact ⟨_, rfl⟩
  · cases h

/-- The call tells the status of a delivery, which a pass does once its delete has come back. -/
def tellsDelivery : DoneCall → Bool
  | ⟨.updateStatus _ (.delivered _), _⟩ => true
  | _ => false

namespace AppState

/-- A task has tried to delete a webhook, and no attempt has succeeded. -/
def TriedInVain (id : ℤ) (n : ℕ) (history : List ServiceEntry) : Prop :=
  (∃ e ∈ history, e.task = n ∧ failedDelete id e.done = true) ∧
    ∀ e ∈ history, e.task = n → committedDelete id e.done = false

/-- The delete of a webhook by a pass failed: no attempt succeeded, and it came back, so that the
pass went on to tell of the delivery. -/
def DeleteFailed (id : ℤ) (n : ℕ) (history : List ServiceEntry) : Prop :=
  TriedInVain id n history ∧ ∃ e ∈ history, e.task = n ∧ tellsDelivery e.done = true

instance (id : ℤ) (n : ℕ) (history : List ServiceEntry) : Decidable (TriedInVain id n history) :=
  inferInstanceAs (Decidable ((∃ e ∈ history, e.task = n ∧ failedDelete id e.done = true) ∧
    ∀ e ∈ history, e.task = n → committedDelete id e.done = false))

instance (id : ℤ) (n : ℕ) (history : List ServiceEntry) : Decidable (DeleteFailed id n history) :=
  inferInstanceAs (Decidable (TriedInVain id n history ∧
    ∃ e ∈ history, e.task = n ∧ tellsDelivery e.done = true))

theorem TriedInVain.cons {id : ℤ} {n : ℕ} {history : List ServiceEntry} {e₀ : ServiceEntry}
    (h : TriedInVain id n history) (hcall : e₀.task = n → committedDelete id e₀.done = false) :
    TriedInVain id n (e₀ :: history) := by
  obtain ⟨⟨e, he, hfailed⟩, hnone⟩ := h
  exact ⟨⟨e, List.mem_cons_of_mem _ he, hfailed⟩, List.forall_mem_cons.mpr ⟨hcall, hnone⟩⟩

variable (state : AppState)

/-- Forwarder `k` sent a request built from the webhook, and the answer counted as delivery. -/
def deliversBy (k : ℕ) (id : ℤ) (e : ServiceEntry) : Bool :=
  e.job = .cycle k && state.deliveredId e.job e.done = some id

/-- The deliveries of one lifetime after which the delete failed. -/
def undeletedDeliveries (k : ℕ) (id : ℤ) (history : List ServiceEntry) : ℕ :=
  history.countP fun e => state.deliversBy k id e && decide (DeleteFailed id e.task history)

theorem deliversBy_eq_true {k : ℕ} {id : ℤ} {e : ServiceEntry} :
    state.deliversBy k id e = true ↔ e.job = .cycle k ∧ state.accepted (.cycle k) id e.done := by
  rw [deliversBy, Bool.and_eq_true, decide_eq_true_eq, decide_eq_true_eq,
    deliveredId_eq_some_iff]
  exact and_congr_right fun hjob => by rw [hjob]

/-- The delete of the webhook by the task failed, and the task has returned. -/
def Closed (id : ℤ) (n : ℕ) (s : ServiceState) : Prop :=
  DeleteFailed id n s.history ∧ ∃ t, s.tasks[n]? = some t ∧ t.hasReturned = true

/-- What a state keeps of the deliveries of a forwarder: a delete failed after each but the last,
and after the last one it was tried in vain, or the webhook is gone, or nobody has tried to
delete it yet.  Before a pass that has loaded the webhook sends it, all of them are closed. -/
structure Settling (k : ℕ) (id : ℤ) (s : ServiceState) : Prop where
  older : s.history.Pairwise fun e e' =>
    state.deliversBy k id e = true → state.deliversBy k id e' = true → Closed id e'.task s
  newest : ∀ e ∈ s.history, state.deliversBy k id e = true →
    TriedInVain id e.task s.history ∨ IsSpent s.shared.table id ∨
      ∃ t, s.tasks[e.task]? = some t ∧ Undeleted id t.past
  loaded : ∀ (n : ℕ) (t : ServiceTask), s.tasks[n]? = some t → t.job = .cycle k →
    ¬t.hasReturned = true → Loaded id t.past → NoSend t.past →
      ∀ e ∈ s.history, state.deliversBy k id e = true → Closed id e.task s

/-! ## A pass tells of its delivery -/

section Told

variable {state : AppState} {job : Job} {past new : List DoneCall}

/-- Where a delivery was accepted, the status was told of it. -/
def DeliveryTold (state : AppState) (job : Job) (past : List DoneCall) : Prop :=
  ∀ id, (∃ d ∈ past, state.accepted job id d) → ∃ d ∈ past, tellsDelivery d = true

theorem deliveryTold_of_not_accepted (h : ∀ id, ∀ d ∈ past, ¬state.accepted job id d) :
    state.DeliveryTold job past := by
  rintro id ⟨d, hd, haccepted⟩
  exact absurd haccepted (h id d hd)

/-- Calls that send nothing leave nothing to tell. -/
theorem DeliveryTold.append (h : state.DeliveryTold job past) (hnew : NoSend new) :
    state.DeliveryTold job (new ++ past) := by
  rintro id ⟨d, hd, haccepted⟩
  rcases List.mem_append.mp hd with hd | hd
  · exact absurd ⟨d, hd, haccepted⟩ hnew.not_accepted
  · obtain ⟨d', hd', htells⟩ := h id ⟨d, hd, haccepted⟩
    exact ⟨d', List.mem_append_right _ hd', htells⟩

theorem DeliveryTold.cons {d : DoneCall} (h : state.DeliveryTold job past)
    (hd : isSend d = false) : state.DeliveryTold job (d :: past) := by
  have hnew : NoSend [d] := by simpa [NoSend] using hd
  simpa using h.append hnew

/-- The delivery of a forwarder is told, whatever becomes of the delete. -/
theorem deliver_tells {fw : Forwarder} {webhook : Webhook} {id : ℤ} {request : HttpRequest}
    (htarget : state.target job = some fw.cfg) (hsend : NoSend past)
    (hid : webhook.id = some id) :
    (fw.deliver id webhook request).Obeys state.machine.Answers (fun _ _ => True)
      (fun past' _ => state.DeliveryTold job past') past := by
  refine ⟨trivial, fun answer _ => ?_⟩
  let sent : DoneCall := ⟨.send (some webhook) request, answer⟩
  have hfailure : ∀ failure : Failure,
      (∀ resp, answer = .ok resp → resp.status ≠ fw.cfg.expectedStatus) →
      ((fw.recordFailure id webhook.forwardAttempts failure).bind fun _ =>
          CallProgram.pure Progress.idle).Obeys state.machine.Answers (fun _ _ => True)
        (fun past' _ => state.DeliveryTold job past') (sent :: past) := by
    intro failure hanswer
    have hfail : ∀ id', ∀ d ∈ sent :: past, ¬state.accepted job id' d :=
      not_accepted_of_send hsend htarget hanswer
    rw [CallProgram.obeys_bind]
    refine (obeys_forwarder_recordFailure ⟨sent, List.mem_cons_self, hid⟩ (hfail id)).weaken
      (fun _ _ _ _ => trivial) ?_
    rintro past' - - ⟨new, hnew, rfl⟩
    exact (deliveryTold_of_not_accepted hfail).append hnew
  cases answer with
  | error cause => exact hfailure _ (by simp)
  | ok resp =>
      show (Forwarder.onAnswer fw id webhook (.ok resp)).Obeys _ _ _ _
      rw [Forwarder.onAnswer]
      split
      · -- the status is told after the delete, whether it failed or not
        refine CallProgram.obeys_bind_of_forall (fun _ _ => trivial) _ fun past' removed => ?_
        refine ⟨trivial, fun _ _ => ⟨trivial, fun _ _ => ?_⟩⟩
        cases removed <;> exact fun _ _ => ⟨_, List.mem_cons_self, rfl⟩
      · rename_i hstatus
        cases readBodyPreview resp with
        | none => trivial
        | some bodyPreview => exact hfailure _ (by simpa using hstatus)

/-- **A pass that has returned told of its delivery.** -/
theorem cycle_tells (k : ℕ) :
    (state.start (.cycle k)).Obeys state.machine.Answers (fun _ _ => True)
      (fun past' _ => state.DeliveryTold (.cycle k) past') [] := by
  have hnone : ∀ past, NoSend past → state.DeliveryTold (.cycle k) past := fun past hsend =>
    deliveryTold_of_not_accepted fun _ d hd haccepted => hsend.not_accepted ⟨d, hd, haccepted⟩
  simp only [start]
  cases hfw : state.forwarders[k]? with
  | none => exact hnone [] Quiet.nil.noSend
  | some fw =>
      have htarget : state.target (.cycle k) = some fw.cfg := by simp [target, hfw]
      simp only
      rw [CallProgram.obeys_bind]
      refine (obeys_cycle_of_deliver (fun _ _ _ => trivial) (fun _ _ _ _ => trivial) hnone
        (fun past now row webhook request hsend _ _ hparse _ =>
          deliver_tells htarget hsend (parseWebhookRow_eq_some hparse).1) ?_).weaken
        (fun _ _ _ _ => trivial) fun _ _ _ htold => htold
      intro past d hd htold
      exact htold.cons (quiet_of_isTiming hd).2

end Told

section Lifetime

variable {state : AppState} {ok : ServiceState → ServiceEvent → Prop} {w : World}
  {s : ServiceState} (h : state.machine.Reaches ok (.fresh w) s)

include h

/-- The tasks of a forwarder take turns in every lifetime. -/
theorem takeTurns_of_fresh : TaskMachine.TakeTurns SameForwarder s := by
  refine h.takeTurns rfl (fun i j => ?_) fun s j hmay t ht => hasReturned_of_mayStart hmay ht
  rintro ⟨k, hi, hj⟩
  exact ⟨k, hj, hi⟩

/-- Of two passes of a forwarder only one is under way. -/
theorem eq_of_underWay {k m n : ℕ} {t u : ServiceTask} (ht : s.tasks[m]? = some t)
    (hu : s.tasks[n]? = some u) (htk : t.job = .cycle k) (huk : u.job = .cycle k)
    (htopen : ¬t.hasReturned = true) (huopen : ¬u.hasReturned = true) : m = n := by
  by_contra hne
  have hsame : SameForwarder t.job u.job := ⟨k, by rw [htk]; rfl, by rw [huk]; rfl⟩
  rcases takeTurns_of_fresh h m n t u ht hu hne hsame with hreturned | hreturned
  · exact htopen hreturned
  · exact huopen hreturned

/-- A pass that has sent nothing has deleted nothing. -/
theorem undeleted_of_quietPass {k : ℕ} {t : ServiceTask} (ht : t ∈ s.tasks)
    (hjob : t.job = .cycle k) (hsend : NoSend t.past) (id : ℤ) : Undeleted id t.past := by
  intro result hdeleted
  obtain ⟨newer, older, hpast⟩ := List.append_of_mem hdeleted
  have hpermitted := h.permitted rfl start_obeys t ht _ older (hpast ▸ List.suffix_append _ _)
  rcases hpermitted with ⟨channel, headers, hrequest⟩ | ⟨d, hd, haccepted⟩
  · rw [hjob] at hrequest
    cases hrequest
  · have hnone := hsend d (by rw [hpast]; simp [hd])
    rw [isSend_of_accepted haccepted] at hnone
    cases hnone

/-- The ids of loaded rows were given out. -/
theorem le_seq_of_loaded {n : ℕ} {t : ServiceTask} (ht : s.tasks[n]? = some t) {id : ℤ}
    (hloaded : Loaded id t.past) : id ≤ s.shared.table.seq := by
  obtain ⟨d, hd, row, hrow, rfl⟩ := hloaded
  obtain ⟨e, he, -, -, rfl⟩ := h.pastsRecorded rfl n t d ht hd
  obtain ⟨s₁, newer, hmade⟩ := h.exists_madeIn rfl he
  obtain ⟨i, -, -, -, -, -, -, hperform⟩ := hmade.event
  have hperformed : Performed state.db.ext e := ⟨i, hperform⟩
  refine h.holds_of_mem_history (fun w => row.id ≤ w.table.seq) rfl ?_ he
    ((e.before.table.le_seq row (hperformed.mem_of_loadedRow hrow)).trans hperformed.seq_le)
  intro s n i t c next hs _ _ _
  have hnext : Performed state.db.ext (state.machine.entry s n t c i) := ⟨i, rfl⟩
  exact hs.trans hnext.seq_le

/-- A pass that owes a delete is under way. -/
theorem not_hasReturned_of_owes {k n : ℕ} {t : ServiceTask} (ht : s.tasks[n]? = some t)
    (hjob : t.job = .cycle k) {id : ℤ} (haccepted : ∃ d ∈ t.past, state.accepted (.cycle k) id d)
    (hundeleted : Undeleted id t.past) : ¬t.hasReturned = true := by
  intro hreturned
  obtain ⟨response, hrest⟩ := TaskState.hasReturned_iff.mp hreturned
  have hall := h.returned_allowed rfl start_obeys (List.mem_of_getElem? ht) hrest
  rw [hjob] at hall
  obtain ⟨result, hdeleted⟩ := hall.1 id haccepted
  exact hundeleted result hdeleted

end Lifetime

/-! ## One call -/

section Step

variable {state : AppState} {s : ServiceState} {k : ℕ} {id : ℤ}
  {ok : ServiceState → ServiceEvent → Prop} {w : World}
  (h : state.machine.Reaches ok (.fresh w) s)

/-- The pass of a delivery has the delivery in its past. -/
theorem task_of_deliversBy (h : state.machine.Reaches ok (.fresh w) s) {e : ServiceEntry}
    (he : e ∈ s.history) (hdelivers : state.deliversBy k id e = true) :
    ∃ t, s.tasks[e.task]? = some t ∧ t.job = .cycle k ∧ e.done ∈ t.past ∧
      state.accepted (.cycle k) id e.done := by
  obtain ⟨hjob, haccepted⟩ := state.deliversBy_eq_true.mp hdelivers
  obtain ⟨t, ht, htjob, hdone⟩ := h.historyRecorded rfl e he
  exact ⟨t, ht, htjob.trans hjob, hdone, haccepted⟩

/-- A pass that delivered and has returned told of it. -/
theorem exists_told_of_returned (h : state.machine.Reaches ok (.fresh w) s) {e : ServiceEntry}
    (he : e ∈ s.history) (hdelivers : state.deliversBy k id e = true) {u : ServiceTask}
    (hu : s.tasks[e.task]? = some u) (hreturned : u.hasReturned = true) :
    ∃ e' ∈ s.history, e'.task = e.task ∧ tellsDelivery e'.done = true := by
  obtain ⟨u', hu', hjob, hdone, haccepted⟩ := task_of_deliversBy h he hdelivers
  obtain rfl : u = u' := Option.some.inj (hu.symm.trans hu')
  obtain ⟨response, hrest⟩ := TaskState.hasReturned_iff.mp hreturned
  have htold := h.returned_allowed (P := fun _ _ _ => True)
    (Q := fun j past _ => ∀ k, j = .cycle k → state.DeliveryTold j past) rfl (fun j => by
      cases j with
      | cycle k => exact (cycle_tells k).weaken (fun _ _ _ hP => hP) fun _ _ _ htold _ _ => htold
      | _ => exact CallProgram.obeys_of_forall (fun _ _ => trivial) (by simp) _)
    (List.mem_of_getElem? hu) hrest k hjob
  rw [hjob] at htold
  obtain ⟨d, hd, htells⟩ := htold id ⟨_, hdone, haccepted⟩
  obtain ⟨e', he', htask, -, rfl⟩ := h.pastsRecorded rfl e.task u d hu hd
  exact ⟨e', he', htask, htells⟩

variable {n : ℕ} {t : ServiceTask} {c : Call Query}
  {next : Call.Answer Query.Answer c → AppAction (Option HttpResponse)} {i : Input}

/-- A spent id is spent after the call. -/
theorem isSpent_advanced (hspent : IsSpent s.shared.table id) :
    IsSpent (state.machine.advanced s n t c next i).shared.table id := by
  have hperformed : Performed state.db.ext (state.machine.entry s n t c i) := ⟨i, rfl⟩
  exact hperformed.isSpent_after hspent

/-- A task that makes a call is not one that is closed. -/
theorem Closed.advanced {m : ℕ} (hclosed : Closed id m s) (ht : s.tasks[n]? = some t)
    (hrest : t.rest = .call c next) :
    Closed id m (state.machine.advanced s n t c next i) := by
  obtain ⟨⟨hvain, e, he, htold⟩, u, hu, hreturned⟩ := hclosed
  have hne : n ≠ m := fun heq => by
    obtain rfl : t = u := Option.some.inj (ht.symm.trans (heq ▸ hu))
    exact TaskState.not_hasReturned hrest hreturned
  exact ⟨⟨hvain.cons fun htask => absurd htask hne, e, List.mem_cons_of_mem _ he, htold⟩, u,
    (List.getElem?_set_ne hne).trans hu, hreturned⟩

variable (ht : s.tasks[n]? = some t) (hrest : t.rest = .call c next)

include h ht

/-- A delivery was not made by a pass that has sent nothing. -/
theorem ne_of_noSend (hsend : NoSend t.past) {e : ServiceEntry} (he : e ∈ s.history)
    (hdelivers : state.deliversBy k id e = true) : e.task ≠ n := by
  rintro rfl
  obtain ⟨u, hu, -, hdone, haccepted⟩ := task_of_deliversBy h he hdelivers
  obtain rfl : t = u := Option.some.inj (ht.symm.trans hu)
  have hnone := hsend _ hdone
  rw [isSend_of_accepted haccepted] at hnone
  cases hnone

include hrest

/-- What a forwarder delivered before, while a pass of it is under way that has sent nothing, was
delivered by passes that have returned. -/
theorem exists_returned_of_deliversBy (hjob : t.job = .cycle k) (hsend : NoSend t.past)
    {e : ServiceEntry} (he : e ∈ s.history) (hdelivers : state.deliversBy k id e = true) :
    ∃ u, s.tasks[e.task]? = some u ∧ u.hasReturned = true := by
  obtain ⟨u, hu, hujob, -⟩ := task_of_deliversBy h he hdelivers
  refine ⟨u, hu, ?_⟩
  by_contra hopen
  exact ne_of_noSend h ht hsend he hdelivers
    (eq_of_underWay h hu ht hujob hjob hopen (TaskState.not_hasReturned hrest))

/-- **The delete of a pass**: it was tried in vain, or the row is gone. -/
theorem triedInVain_or_isSpent {e : ServiceEntry} (he : e ∈ s.history)
    (hdelivers : state.deliversBy k id e = true) (htask : n = e.task)
    (hcall : c = .sql (.deleteById id))
    (hnone : ∀ e' ∈ s.history, e'.task = e.task → committedDelete id e'.done = false) :
    TriedInVain id e.task (state.machine.entry s n t c i :: s.history) ∨
      IsSpent (state.machine.advanced s n t c next i).shared.table id := by
  subst hcall
  cases hanswer : (perform state.db.ext (.sql (.deleteById id)) i s.shared).1 with
  | error error =>
      left
      have hdone : (state.machine.entry s n t (.sql (.deleteById id)) i).done =
          ⟨.sql (.deleteById id), .error error⟩ := by
        simp only [TaskMachine.entry, Entry.done, machine, hanswer]
      refine ⟨⟨_, List.mem_cons_self, htask, ?_⟩, List.forall_mem_cons.mpr ⟨fun _ => ?_, hnone⟩⟩
      · rw [hdone]
        exact decide_eq_true rfl
      · rw [hdone]
        rfl
  | ok affected =>
      right
      obtain ⟨-, -, hstate⟩ := perform_sql_ok hanswer
      show IsSpent (perform state.db.ext (.sql (.deleteById id)) i s.shared).2.table id
      rw [hstate]
      refine ⟨?_, fun r hr => by simpa using (Table.mem_rows_keep.mp hr).2⟩
      -- a row that was sent had an id that was given out
      obtain ⟨u, hu, hujob, hdone, haccepted⟩ := task_of_deliversBy h he hdelivers
      obtain rfl : t = u := Option.some.inj (ht.symm.trans (htask ▸ hu))
      obtain ⟨webhook, request, resp, fwd, hsent, hid, -⟩ := exists_send_of_accepted haccepted
      rw [hsent] at hdone
      obtain ⟨newer, before, hpast⟩ := List.append_of_mem hdone
      obtain ⟨-, webhook', hwebhook, -, d, hd, row, hrow, hparse⟩ :=
        h.permitted rfl start_obeys t (List.mem_of_getElem? ht) _ before
          (hpast ▸ List.suffix_append _ _)
      obtain rfl : webhook = webhook' := Option.some.inj hwebhook
      refine le_seq_of_loaded h ht ⟨d, ?_, row, hrow, id_of_parseWebhookRow hparse hid⟩
      rw [hpast]
      exact List.mem_append_right _ (List.mem_cons_of_mem _ hd)

variable (hs : state.Settling k id s)

include hs

/-- **A pass loads the row** only when the delete failed after every delivery so far. -/
theorem Settling.loads (hjob : t.job = .cycle k) {row : Row}
    (hrow : loadedRow ⟨c, (perform state.db.ext c i s.shared).1⟩ = some row) (hid : row.id = id)
    {e : ServiceEntry} (he : e ∈ s.history) (hdelivers : state.deliversBy k id e = true) :
    Closed id e.task s := by
  have hperformed : Performed state.db.ext (state.machine.entry s n t c i) := ⟨i, rfl⟩
  have hmem : row ∈ s.shared.table.rows := hperformed.mem_of_loadedRow hrow
  have hprotocol := h.next_permitted rfl start_obeys (List.mem_of_getElem? ht) hrest
  have hquiet : Quiet t.past := by
    unfold loadedRow at hrow
    split at hrow
    · rename_i hcall
      cases congrArg Sigma.fst hcall
      exact hprotocol.2
    · rename_i hcall
      cases congrArg Sigma.fst hcall
      exact hprotocol.2
    · cases hrow
  have hsend : NoSend t.past := fun d hd => (hquiet d hd).2
  obtain ⟨v, hv, hreturned⟩ := exists_returned_of_deliversBy h ht hrest hjob hsend he hdelivers
  refine ⟨⟨?_, exists_told_of_returned h he hdelivers hv hreturned⟩, v, hv, hreturned⟩
  rcases hs.newest e he hdelivers with hvain | hspent | ⟨u, hu, hundeleted⟩
  · exact hvain
  · exact absurd hid (hspent.2 row hmem)
  · -- the pass that owes the delete would be this one, which has sent nothing yet
    obtain ⟨u', hu', hujob, hdone, haccepted⟩ := task_of_deliversBy h he hdelivers
    obtain rfl : u = u' := Option.some.inj (hu.symm.trans hu')
    have hopen := not_hasReturned_of_owes h hu hujob ⟨_, hdone, haccepted⟩ hundeleted
    exact absurd (eq_of_underWay h hu ht hujob hjob hopen (TaskState.not_hasReturned hrest))
      (ne_of_noSend h ht hsend he hdelivers)

/-- **A pass that delivers** had loaded the row and sent nothing before. -/
theorem Settling.delivers
    (hdelivers : state.deliversBy k id (state.machine.entry s n t c i) = true) {e : ServiceEntry}
    (he : e ∈ s.history) (hbefore : state.deliversBy k id e = true) : Closed id e.task s := by
  obtain ⟨hjob, haccepted⟩ := state.deliversBy_eq_true.mp hdelivers
  obtain ⟨webhook, request, resp, fwd, hdone, hid, -⟩ := exists_send_of_accepted haccepted
  have hcall : c = .send (some webhook) request := congrArg Sigma.fst hdone
  have hprotocol := h.next_permitted rfl start_obeys (List.mem_of_getElem? ht) hrest
  rw [hcall] at hprotocol
  obtain ⟨hsend, webhook', hwebhook, -, d, hd, row, hrow, hparse⟩ := hprotocol
  obtain rfl : webhook = webhook' := Option.some.inj hwebhook
  exact hs.loaded n t ht hjob (TaskState.not_hasReturned hrest)
    ⟨d, hd, row, hrow, id_of_parseWebhookRow hparse hid⟩ hsend e he hbefore

/-- What is known of a delivery after one more call. -/
theorem Settling.newest_advanced {e : ServiceEntry} (he : e ∈ s.history)
    (hdelivers : state.deliversBy k id e = true) :
    TriedInVain id e.task (state.machine.entry s n t c i :: s.history) ∨
      IsSpent (state.machine.advanced s n t c next i).shared.table id ∨
        ∃ u, (state.machine.advanced s n t c next i).tasks[e.task]? = some u ∧
          Undeleted id u.past := by
  by_cases htask : n = e.task
  · by_cases hcall : c = .sql (.deleteById id)
    · rcases hs.newest e he hdelivers with hvain | hspent | ⟨u, hu, hundeleted⟩
      · have hafter := triedInVain_or_isSpent (i := i) h ht hrest he hdelivers htask hcall
          hvain.2
        exact hafter.imp_right Or.inl
      · exact Or.inr (Or.inl (isSpent_advanced hspent))
      · -- nothing was deleted by a pass that has not tried to
        have hnone : ∀ e' ∈ s.history, e'.task = e.task → committedDelete id e'.done = false := by
          intro e' he' htask'
          obtain ⟨u', hu', -, hdone'⟩ := h.historyRecorded rfl e' he'
          rw [htask'] at hu'
          obtain rfl : u = u' := Option.some.inj (hu.symm.trans hu')
          refine Bool.eq_false_iff.mpr fun hcommitted => ?_
          obtain ⟨affected, hdeleted⟩ := committedDelete_eq_true hcommitted
          exact hundeleted _ (hdeleted ▸ hdone')
        have hafter := triedInVain_or_isSpent (i := i) h ht hrest he hdelivers htask hcall hnone
        exact hafter.imp_right Or.inl
    · have hnot : committedDelete id (state.machine.entry s n t c i).done = false := by
        refine Bool.eq_false_iff.mpr fun hcommitted => hcall ?_
        obtain ⟨affected, hdeleted⟩ := committedDelete_eq_true hcommitted
        exact congrArg Sigma.fst hdeleted
      refine (hs.newest e he hdelivers).imp (fun hvain => hvain.cons fun _ => hnot)
        (Or.imp isSpent_advanced ?_)
      rintro ⟨u, hu, hundeleted⟩
      obtain rfl : t = u := Option.some.inj (ht.symm.trans (htask ▸ hu))
      rw [← htask]
      exact ⟨_, List.getElem?_set_self (List.getElem?_eq_some_iff.mp ht).1,
        hundeleted.cons hcall⟩
  · refine (hs.newest e he hdelivers).imp (fun hvain => hvain.cons fun hn => absurd hn htask)
      (Or.imp isSpent_advanced ?_)
    rintro ⟨u, hu, hundeleted⟩
    exact ⟨u, (List.getElem?_set_ne htask).trans hu, hundeleted⟩

/-- **One call keeps the deliveries settling.** -/
theorem Settling.advanced : state.Settling k id (state.machine.advanced s n t c next i) := by
  refine ⟨?_, ?_, ?_⟩
  · refine List.pairwise_cons.mpr ⟨fun e he hdelivers hbefore => ?_, ?_⟩
    · exact (hs.delivers h ht hrest hdelivers he hbefore).advanced ht hrest
    · exact hs.older.imp fun hold hdelivers hbefore => (hold hdelivers hbefore).advanced ht hrest
  · intro e he hdelivers
    rcases List.mem_cons.mp he with rfl | he
    · -- a pass that has just delivered has not tried to delete
      obtain ⟨hjob, haccepted⟩ := state.deliversBy_eq_true.mp hdelivers
      obtain ⟨webhook, request, resp, fwd, hdone, -⟩ := exists_send_of_accepted haccepted
      have hcall : c = .send (some webhook) request := congrArg Sigma.fst hdone
      have hprotocol := h.next_permitted rfl start_obeys (List.mem_of_getElem? ht) hrest
      rw [hcall] at hprotocol
      have hundeleted := undeleted_of_quietPass h (List.mem_of_getElem? ht) hjob hprotocol.1 id
      refine Or.inr (Or.inr ⟨_, List.getElem?_set_self (List.getElem?_eq_some_iff.mp ht).1,
        hundeleted.cons ?_⟩)
      rw [hcall]
      simp
    · exact hs.newest_advanced h ht hrest he hdelivers
  · intro m u hu hujob hopen hloaded hsend e he hdelivers
    rcases TaskMachine.getElem?_advanced hu with ⟨-, rfl⟩ | ⟨hne, hu⟩
    · obtain ⟨d, hd, row, hrow, hid⟩ := hloaded
      have hquiet : NoSend t.past := fun d hd => hsend d (List.mem_cons_of_mem _ hd)
      rcases List.mem_cons.mp he with rfl | he
      · have hnone : isSend (state.machine.entry s n t c i).done = false :=
          hsend _ List.mem_cons_self
        cases hnone.symm.trans (isSend_of_accepted (state.deliversBy_eq_true.mp hdelivers).2)
      · rcases List.mem_cons.mp hd with rfl | hd
        · exact (hs.loads h ht hrest hujob hrow hid he hdelivers).advanced ht hrest
        · exact (hs.loaded n t ht hujob (TaskState.not_hasReturned hrest) ⟨d, hd, row, hrow, hid⟩
            hquiet e he hdelivers).advanced ht hrest
    · rcases List.mem_cons.mp he with rfl | he
      · -- two passes of the forwarder would be under way
        have hjob := (state.deliversBy_eq_true.mp hdelivers).1
        exact absurd (eq_of_underWay h hu ht hujob hjob hopen (TaskState.not_hasReturned hrest)) hne
      · exact (hs.loaded m u hu hujob hopen hloaded hsend e he hdelivers).advanced ht hrest

end Step

/-! ## Every lifetime, and all of them -/

section Lifetimes

variable {state : AppState} {ok : ServiceState → ServiceEvent → Prop} {w : World}
  {s : ServiceState}

/-- A task that is there is there after another one was started. -/
theorem getElem?_spawned_of_some {s : ServiceState} {j : Job} {n : ℕ} {t : ServiceTask}
    (ht : s.tasks[n]? = some t) : (state.machine.spawned s j).tasks[n]? = some t :=
  (List.getElem?_append_left (List.getElem?_eq_some_iff.mp ht).1).trans ht

/-- Tasks that start leave the others as they are. -/
theorem Closed.spawned {id : ℤ} {n : ℕ} {j : Job} (h : Closed id n s) :
    Closed id n (state.machine.spawned s j) := by
  obtain ⟨hfailed, t, ht, hreturned⟩ := h
  exact ⟨hfailed, t, getElem?_spawned_of_some ht, hreturned⟩

/-- **The deliveries of a lifetime settle.** -/
theorem settling_of_reaches (h : state.machine.Reaches ok (.fresh w) s) (k : ℕ) (id : ℤ) :
    state.Settling k id s := by
  refine h.invariant_along (state.Settling k id) ?_ ?_ ?_
  · refine ⟨List.Pairwise.nil, fun e he => ?_, fun n t ht => ?_⟩
    · cases he
    · simp [TaskSystem.fresh] at ht
  · intro s j _ hs _ _
    refine ⟨hs.older.imp fun hold hd hb => (hold hd hb).spawned, fun e he hd => ?_, ?_⟩
    · rcases hs.newest e he hd with hvain | hgone | ⟨t, ht, hundeleted⟩
      · exact Or.inl hvain
      · exact Or.inr (Or.inl hgone)
      · exact Or.inr (Or.inr ⟨t, getElem?_spawned_of_some ht, hundeleted⟩)
    · intro m u hu hujob hopen hloaded hsend e he hd
      rcases TaskMachine.getElem?_spawned hu with hu | ⟨-, rfl⟩
      · exact (hs.loaded m u hu hujob hopen hloaded hsend e he hd).spawned
      · obtain ⟨d, hd, -⟩ := hloaded
        cases hd
  · intro s n i t c next hreach hs _ ht hrest
    exact hs.advanced hreach ht hrest

/-- All deliveries of a lifetime but one are followed by a delete that failed. -/
theorem deliveries_le_of_reaches (h : state.machine.Reaches ok (.fresh w) s) (k : ℕ) (id : ℤ) :
    s.history.countP (state.deliversBy k id) ≤ state.undeletedDeliveries k id s.history + 1 :=
  List.countP_le_of_pairwise <| (settling_of_reaches h k id).older.imp fun hold hd hb =>
    decide_eq_true (hold hd hb).1

end Lifetimes

/-- **Every repeated delivery is due to a failed delete or a restart.**  Over any number of
lifetimes a forwarder delivers a webhook at most once, and once more for every delivery after
which its delete of the webhook came back with an error, and for every restart of the service. -/
theorem repeated_delivery_accounted (state : AppState) {l : ServiceLives} (h : state.Lives l)
    (k : ℕ) (id : ℤ) :
    l.history.countP (state.deliversBy k id) ≤
      l.total (state.undeletedDeliveries k id) + (l.restarts + 1) := by
  rw [Lifetimes.countP_history]
  exact TaskMachine.Outlives.total_le h fun _ _ hs => deliveries_le_of_reaches hs k id

/-- What a process does that finds a webhook a killed one has sent: one pass delivers it and its
delete fails, the next one delivers it and its delete meets a lock once. -/
def redeliveries : List ServiceEvent :=
  let calm := Input.calm 2000 200
  let failing := { calm with fault := some (.database (some "10") "disk I/O error") }
  let locked := { calm with fault := some (.database (some "5") "database is locked") }
  ServiceEvent.task (.refresh 0) 0 (List.replicate 3 calm) ++
    ServiceEvent.task (.cycle 0) 1 (List.replicate 6 calm ++ [failing] ++ List.replicate 3 calm) ++
    ServiceEvent.task (.cycle 0) 2 (List.replicate 6 calm ++ [locked] ++ List.replicate 6 calm)

/-- The bound is met: of three deliveries one is due to a restart and one to a delete that failed;
the delete that failed at its first attempt only is not counted. -/
theorem repeated_delivery_accounted_small :
    ∃ l : ServiceLives, small.Lives l ∧ l.restarts = 1 ∧
      (l.history.filter fun e => failedDelete 1 e.done).length = 2 ∧
      l.total (small.undeletedDeliveries 0 1) = 1 ∧
      l.history.countP (small.deliversBy 0 1) = 3 := by
  have hrun : ∃ s, small.machine.runEvents small.initial killedRun = some s ∧
      ∃ s', small.machine.runEvents (.fresh (small.restarted s.shared)) redeliveries = some s' ∧
        ((s'.history ++ s.history).filter fun e => failedDelete 1 e.done).length = 2 ∧
        small.undeletedDeliveries 0 1 s'.history + small.undeletedDeliveries 0 1 s.history = 1 ∧
        3 ≤ (s'.history ++ s.history).countP (small.deliversBy 0 1) := by
    decide +kernel
  obtain ⟨s, hs, s', hs', hfailed, hundeleted, hdelivered⟩ := hrun
  obtain ⟨hlives, hall⟩ := lives_of_runEvents hs hs'
  have htotal : Lifetimes.total (small.undeletedDeliveries 0 1)
      ⟨[s.history], small.restarted s.shared, s'⟩ = 1 := by
    simpa [Lifetimes.total] using hundeleted
  have hbound := repeated_delivery_accounted small hlives 0 1
  rw [hall, htotal] at hbound
  refine ⟨_, hlives, rfl, ?_, htotal, ?_⟩
  · rw [hall]
    exact hfailed
  · rw [hall]
    exact le_antisymm hbound hdelivered

end AppState
