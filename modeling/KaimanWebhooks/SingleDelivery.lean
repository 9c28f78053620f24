/-
# At most one delivery, when attempts do not overlap

An attempt at a webhook begins when a pass of a forwarder selects its row or a manual retry
loads it, and nothing claims the row.  It lasts as long as the task may still send its request,
and where the request is accepted until the row is deleted.  Two attempts that overlap can both
be accepted (`overlapping_attempts_deliver_twice`).  When the storage calls succeed and no attempt
begins while another one at the same webhook is under way, at most one request built from a
webhook is ever accepted.
-/
import KaimanWebhooks.Ledger

namespace AppState

variable {state : AppState} {s : ServiceState}

/-! ## Attempts under way -/

/-- The entry sent a request built from the webhook with an id, and the answer counted as
delivery. -/
def Delivers (state : AppState) (id : ℤ) (e : ServiceEntry) : Prop := state.accepted e.job id e.done

/-- The calls loaded the row with an id. -/
def Loaded (id : ℤ) (past : List DoneCall) : Prop :=
  ∃ d ∈ past, ∃ row, loadedRow d = some row ∧ row.id = id

/-- The call sends a request. -/
def Sends (c : Call Query) : Prop := ∃ about request, c = .send about request

/-- The task has an attempt at the webhook under way: it has loaded the row, and it may still send
a request, or has had it accepted and has not deleted the row. -/
def Attempts (state : AppState) (s : ServiceState) (n : ℕ) (id : ℤ) : Prop :=
  ∃ t, s.tasks[n]? = some t ∧ Loaded id t.past ∧
    (t.rest.MayCall state.machine.Answers Sends ∨
      (∃ d ∈ t.past, state.accepted t.job id d) ∧
        ∀ affected, (⟨.sql (.deleteById id), .ok affected⟩ : DoneCall) ∉ t.past)

/-- The row a task loads when it makes its next call. -/
def loads (state : AppState) (s : ServiceState) (n : ℕ) (i : Input) : Option Row :=
  (s.tasks[n]?).bind fun t =>
    match t.rest with
    | .call c _ => loadedRow ⟨c, (perform state.db.ext c i s.shared).1⟩
    | _ => none

/-- No storage call fails. -/
def StorageSucceeds : ServiceEvent → Prop
  | .spawn _ => True
  | .advance _ i => i.fault = none

/-- No attempt begins while another task has one under way. -/
def BeginsAlone (state : AppState) (s : ServiceState) : ServiceEvent → Prop
  | .spawn _ => True
  | .advance n i => ∀ row ∈ loads state s n i, ∀ m < s.tasks.length, m ≠ n →
      ¬state.Attempts s m row.id

instance (e : ServiceEvent) : Decidable (StorageSucceeds e) :=
  match e with
  | .spawn _ => inferInstanceAs (Decidable True)
  | .advance _ i => inferInstanceAs (Decidable (i.fault = none))

instance (id : ℤ) (past : List DoneCall) : Decidable (Loaded id past) :=
  decidable_of_iff (∃ d ∈ past, id ∈ (loadedRow d).map Row.id) <| by
    simp only [Option.mem_def, Option.map_eq_some_iff, Loaded]

/-- None of the calls attempted to delete the row. -/
def Undeleted (id : ℤ) (past : List DoneCall) : Prop :=
  ∀ result, (⟨.sql (.deleteById id), result⟩ : DoneCall) ∉ past

theorem Undeleted.cons {id : ℤ} {past : List DoneCall} {d : DoneCall} (h : Undeleted id past)
    (hd : d.1 ≠ .sql (.deleteById id)) : Undeleted id (d :: past) := by
  intro result hmem
  rcases List.mem_cons.mp hmem with heq | hmem
  · exact hd (congrArg Sigma.fst heq).symm
  · exact h result hmem

/-! ## What a state keeps of the deliveries -/

/-- Every webhook that was delivered is gone, or the task that delivered it has not tried to
delete it yet; nobody else attempts it, and it was delivered once. -/
structure DeliveredOnce (state : AppState) (s : ServiceState) : Prop where
  apart : ∀ m n id, state.Attempts s m id → state.Attempts s n id → m = n
  sole : ∀ e ∈ s.history, ∀ id, state.Delivers id e → ∀ n, state.Attempts s n id → n = e.task
  pending : ∀ e ∈ s.history, ∀ id, state.Delivers id e → IsSpent s.shared.table id ∨
    ∃ t, s.tasks[e.task]? = some t ∧ Undeleted id t.past
  once : s.history.Pairwise fun e e' => ∀ id, state.Delivers id e → ¬state.Delivers id e'

section Reached

variable {ok : ServiceState → ServiceEvent → Prop} (h : state.machine.Reaches ok state.initial s)

include h

/-- A task that is about to send the request it delivers with has its attempt under way. -/
theorem attempts_of_send {n : ℕ} {t : ServiceTask} (ht : s.tasks[n]? = some t)
    {c : Call Query} {k : Call.Answer Query.Answer c → AppAction (Option HttpResponse)}
    (hrest : t.rest = .call c k) {answer : Call.Answer Query.Answer c} {id : ℤ}
    (hdelivers : state.accepted t.job id ⟨c, answer⟩) :
    state.Attempts s n id ∧ ∀ d ∈ t.past, isSend d = false := by
  obtain ⟨webhook, request, resp, fwd, hd, hid, -⟩ := exists_send_of_accepted hdelivers
  have hcall : c = .send (some webhook) request := congrArg Sigma.fst hd
  have hprotocol := h.next_permitted rfl start_obeys (List.mem_of_getElem? ht) hrest
  rw [hcall] at hprotocol
  obtain ⟨hnosend, webhook', hwebhook', -, d, hdmem, row, hrow, hparse⟩ := hprotocol
  obtain rfl : webhook = webhook' := Option.some.inj hwebhook'
  have hrowId : row.id = id := id_of_parseWebhookRow hparse hid
  refine ⟨⟨t, ht, ⟨d, hdmem, row, hrow, hrowId⟩, Or.inl ?_⟩, hnosend⟩
  rw [hrest]
  exact Or.inl ⟨_, _, hcall⟩

/-- Everything the task of a delivery had done before is in the past of the task. -/
theorem delivers_in_past {e : ServiceEntry} (he : e ∈ s.history) {id : ℤ}
    (hdelivers : state.Delivers id e) :
    ∃ t, s.tasks[e.task]? = some t ∧ t.job = e.job ∧ e.done ∈ t.past ∧ Loaded id t.past := by
  obtain ⟨t, ht, hjob, hdone⟩ := h.historyRecorded rfl e he
  refine ⟨t, ht, hjob, hdone, ?_⟩
  obtain ⟨webhook, request, resp, fwd, hd, hid, -⟩ := exists_send_of_accepted hdelivers
  obtain ⟨past, hprotocol, hpast⟩ := protocol_of_mem_history h he
  have hcall : e.call = .send (some webhook) request := congrArg Sigma.fst hd
  rw [hcall] at hprotocol
  obtain ⟨-, webhook', hwebhook', -, d, hdmem, row, hrow, hparse⟩ := hprotocol
  obtain rfl : webhook = webhook' := Option.some.inj hwebhook'
  have hrowId : row.id = id := id_of_parseWebhookRow hparse hid
  obtain ⟨e', he', htask, -, rfl⟩ := hpast d hdmem
  obtain ⟨t', ht', -, hdone'⟩ := h.historyRecorded rfl e' he'
  obtain rfl : t = t' := Option.some.inj (ht.symm.trans (htask ▸ ht'))
  exact ⟨e'.done, hdone', row, hrow, hrowId⟩

/-- A task that delivered a webhook and has not tried to delete it has its attempt under way. -/
theorem attempts_of_delivers {e : ServiceEntry} (he : e ∈ s.history) {id : ℤ}
    (hdelivers : state.Delivers id e) {t : ServiceTask} (ht : s.tasks[e.task]? = some t)
    (hundeleted : Undeleted id t.past) : state.Attempts s e.task id := by
  obtain ⟨t', ht', hjob, hdone, hloaded⟩ := delivers_in_past h he hdelivers
  obtain rfl : t = t' := Option.some.inj (ht.symm.trans ht')
  have haccepted : state.accepted t.job id e.done := hjob ▸ hdelivers
  exact ⟨t, ht, hloaded, Or.inr ⟨⟨e.done, hdone, haccepted⟩, fun affected => hundeleted _⟩⟩

/-- A task that may still send a request has sent none. -/
theorem noSend_of_mayCall {t : ServiceTask} (ht : t ∈ s.tasks)
    (hmay : t.rest.MayCall state.machine.Answers Sends) : NoSend t.past := by
  have hobeys := h.tasksObey (by simp [TaskMachine.TasksObey, initial]) start_obeys t ht
  obtain ⟨past, c, hsuffix, hprotocol, about, request, rfl⟩ := hmay.exists_permitted hobeys
  exact fun d hd => hprotocol.1 d (hsuffix.subset hd)

/-- Before its request is sent, a task that delivers has deleted nothing. -/
theorem undeleted_of_noSend {n : ℕ} {t : ServiceTask} (ht : s.tasks[n]? = some t)
    {id : ℤ} {fwd : WebhookForwardConfig} (htarget : state.target t.job = some fwd)
    (hnosend : ∀ d ∈ t.past, isSend d = false) : Undeleted id t.past := by
  intro result hdeleted
  obtain ⟨e, he, htask, hjob, hdone⟩ := h.pastsRecorded rfl n t _ ht hdeleted
  obtain ⟨past, hprotocol, hpast⟩ := protocol_of_mem_history h he
  have hcall : e.call = .sql (.deleteById id) := congrArg Sigma.fst hdone
  rw [hcall] at hprotocol
  rcases hprotocol with ⟨channel, headers, hrequest⟩ | ⟨d, hd, haccepted⟩
  · rw [← hjob, hrequest] at htarget
    cases htarget
  · obtain ⟨e', he', htask', -, rfl⟩ := hpast d hd
    obtain ⟨t', ht', -, hdone'⟩ := h.historyRecorded rfl e' he'
    rw [htask', htask] at ht'
    obtain rfl : t = t' := Option.some.inj (ht.symm.trans ht')
    have hsend := isSend_of_accepted haccepted
    rw [hnosend _ hdone'] at hsend
    cases hsend

/-- The id of a delivered webhook was given out. -/
theorem le_seq_of_delivers {e : ServiceEntry} (he : e ∈ s.history) {id : ℤ}
    (hdelivers : state.Delivers id e) : id ≤ s.shared.table.seq := by
  obtain ⟨webhook, request, resp, fwd, hd, hid, -⟩ := exists_send_of_accepted hdelivers
  obtain ⟨webhook', hwebhook', -, row, hparse, hstored⟩ := exists_row_of_sent h he hd
  obtain rfl : webhook = webhook' := Option.some.inj hwebhook'
  have hrowId : row.id = id := id_of_parseWebhookRow hparse hid
  rw [← hrowId]
  exact (ledger_of_reaches h).le_seq _ hstored

end Reached

/-! ## One step -/

section Step

variable {n : ℕ} {i : Input} {t : ServiceTask} {c : Call Query}
  {k : Call.Answer Query.Answer c → AppAction (Option HttpResponse)}

/-- An attempt under way after a call was under way before, or the call began it. -/
theorem attempts_advanced (ht : s.tasks[n]? = some t) (hrest : t.rest = .call c k) {m : ℕ} {id : ℤ}
    (hattempts : state.Attempts (state.machine.advanced s n t c k i) m id) :
    state.Attempts s m id ∨ (m = n ∧ ∃ row,
      loadedRow ⟨c, (perform state.db.ext c i s.shared).1⟩ = some row ∧ row.id = id) := by
  obtain ⟨u, hu, ⟨d, hd, row, hrow, hid⟩, hopen⟩ := hattempts
  rcases TaskMachine.getElem?_advanced hu with ⟨hmn, rfl⟩ | ⟨-, hu⟩
  · rcases List.mem_cons.mp hd with rfl | hd
    · exact Or.inr ⟨hmn, row, hrow, hid⟩
    · refine Or.inl ⟨t, hmn ▸ ht, ⟨d, hd, row, hrow, hid⟩, ?_⟩
      rw [hrest]
      rcases hopen with hmay | ⟨⟨d', hd', haccepted⟩, hdeleted⟩
      · exact Or.inl (Or.inr ⟨_, ⟨i, s.shared, rfl⟩, hmay⟩)
      · -- what was accepted was sent by this call, or before
        rcases List.mem_cons.mp hd' with rfl | hd'
        · obtain ⟨webhook, request, resp, fwd, hsent, -⟩ := exists_send_of_accepted haccepted
          exact Or.inl (Or.inl ⟨_, _, congrArg Sigma.fst hsent⟩)
        · exact Or.inr ⟨⟨d', hd', haccepted⟩, fun affected hmem =>
            hdeleted affected (List.mem_cons_of_mem _ hmem)⟩
  · exact Or.inl ⟨u, hu, ⟨d, hd, row, hrow, hid⟩, hopen⟩

theorem attempts_spawned {j : Job} {m : ℕ} {id : ℤ}
    (hattempts : state.Attempts (state.machine.spawned s j) m id) : state.Attempts s m id := by
  obtain ⟨u, hu, hloaded, hopen⟩ := hattempts
  rcases TaskMachine.getElem?_spawned hu with hu | ⟨-, rfl⟩
  · exact ⟨u, hu, hloaded, hopen⟩
  · obtain ⟨d, hd, -⟩ := hloaded
    cases hd

variable {ok : ServiceState → ServiceEvent → Prop} (h : state.machine.Reaches ok state.initial s)
  (ht : s.tasks[n]? = some t) (hrest : t.rest = .call c k)

section Pending

include h ht

/-- The task of a delivery after the call of task `n`: the webhook is gone, or still nobody
has tried to delete it. -/
theorem pending_advanced (hsucceeds : StorageSucceeds (.advance n i)) {e : ServiceEntry}
    (he : e ∈ s.history) {id : ℤ}
    (hdelivers : state.Delivers id e) {u : ServiceTask} (hu : s.tasks[e.task]? = some u)
    (hundeleted : Undeleted id u.past) :
    IsSpent (state.machine.advanced s n t c k i).shared.table id ∨
      ∃ u', (state.machine.advanced s n t c k i).tasks[e.task]? = some u' ∧
        Undeleted id u'.past := by
  have hn : n < s.tasks.length := (List.getElem?_eq_some_iff.mp ht).1
  unfold TaskMachine.advanced
  dsimp only
  rw [List.getElem?_set]
  by_cases hne : n = e.task
  · obtain rfl : t = u := Option.some.inj (ht.symm.trans (hne ▸ hu))
    by_cases hcall : c = .sql (.deleteById id)
    · subst hcall
      left
      have hexecuted : (perform state.db.ext (.sql (.deleteById id)) i s.shared).2.table =
          ((Query.deleteById id).execute i.choice s.shared.table).2 := by
        simp only [perform, show i.fault = none from hsucceeds]
      show IsSpent (perform state.db.ext (.sql (.deleteById id)) i s.shared).2.table id
      rw [hexecuted]
      refine ⟨le_seq_of_delivers h he hdelivers, fun r hr => ?_⟩
      simpa using (Table.mem_rows_keep.mp hr).2
    · exact Or.inr ⟨_, (if_pos hne).trans (if_pos hn), hundeleted.cons hcall⟩
  · exact Or.inr ⟨u, (if_neg hne).trans hu, hundeleted⟩

end Pending

/-- A row that is loaded is attempted by nobody else. -/
theorem not_attempts_of_loaded (ht : s.tasks[n]? = some t) (hrest : t.rest = .call c k)
    (halone : BeginsAlone state s (.advance n i)) {row : Row}
    (hrow : loadedRow ⟨c, (perform state.db.ext c i s.shared).1⟩ = some row) {m : ℕ} (hm : m ≠ n) :
    ¬state.Attempts s m row.id := by
  intro hattempts
  have hlt : m < s.tasks.length := by
    obtain ⟨u, hu, -⟩ := hattempts
    exact (List.getElem?_eq_some_iff.mp hu).1
  have hloads : loads state s n i = some row := by
    unfold loads
    rw [ht, Option.bind_some]
    simp only [hrest, hrow]
  exact halone row hloads m hlt hm hattempts

variable (halone : BeginsAlone state s (.advance n i)) (hs : DeliveredOnce state s)

include h ht hrest halone hs

/-- A webhook that somebody else delivered is not loaded. -/
theorem task_eq_of_loads {e : ServiceEntry} (he : e ∈ s.history) {id : ℤ}
    (hdelivers : state.Delivers id e) {row : Row}
    (hrow : loadedRow ⟨c, (perform state.db.ext c i s.shared).1⟩ = some row) (hid : row.id = id) :
    n = e.task := by
  have hperformed : Performed state.db.ext ⟨n, t.job, c, (perform state.db.ext c i s.shared).1,
      s.shared, (perform state.db.ext c i s.shared).2⟩ := ⟨i, rfl⟩
  have hmem : row ∈ s.shared.table.rows := hperformed.mem_of_loadedRow hrow
  rcases hs.pending e he id hdelivers with hspent | ⟨u, hu, hundeleted⟩
  · exact absurd hid (hspent.2 row hmem)
  · by_contra hne
    have hattempts := attempts_of_delivers h he hdelivers hu hundeleted
    rw [← hid] at hattempts
    exact not_attempts_of_loaded ht hrest halone hrow (Ne.symm hne) hattempts

/-- **One call keeps deliveries apart.** -/
theorem deliveredOnce_advanced (hsucceeds : StorageSucceeds (.advance n i)) :
    DeliveredOnce state (state.machine.advanced s n t c k i) := by
  let e₀ : ServiceEntry := ⟨n, t.job, c, (perform state.db.ext c i s.shared).1, s.shared,
    (perform state.db.ext c i s.shared).2⟩
  have hperformed : Performed state.db.ext e₀ := ⟨i, rfl⟩
  have hn : n < s.tasks.length := (List.getElem?_eq_some_iff.mp ht).1
  have hnew : ∀ id, state.Delivers id e₀ → state.Attempts s n id ∧ ∀ d ∈ t.past, isSend d = false :=
    fun id hdelivers => attempts_of_send h ht hrest hdelivers
  refine ⟨?_, ?_, ?_, ?_⟩
  · intro m m' id hm hm'
    rcases attempts_advanced ht hrest hm with hold | ⟨hmn, row, hrow, hid⟩
    · rcases attempts_advanced ht hrest hm' with hold' | ⟨hmn', row, hrow, hid⟩
      · exact hs.apart m m' id hold hold'
      · by_contra hne
        exact not_attempts_of_loaded ht hrest halone hrow (hmn' ▸ hne) (hid ▸ hold)
    · rcases attempts_advanced ht hrest hm' with hold' | ⟨hmn', -⟩
      · by_contra hne
        exact not_attempts_of_loaded ht hrest halone hrow (hmn ▸ Ne.symm hne) (hid ▸ hold')
      · exact hmn.trans hmn'.symm
  · intro e he id hdelivers m hm
    rcases attempts_advanced ht hrest hm with hold | ⟨hmn, row, hrow, hid⟩
    · rcases List.mem_cons.mp he with rfl | hmem
      · exact hs.apart m n id hold (hnew id hdelivers).1
      · exact hs.sole e hmem id hdelivers m hold
    · rcases List.mem_cons.mp he with rfl | hmem
      · exact hmn
      · exact hmn.trans (task_eq_of_loads h ht hrest halone hs hmem hdelivers hrow hid)
  · intro e he id hdelivers
    rcases List.mem_cons.mp he with rfl | hmem
    · right
      obtain ⟨-, hnosend⟩ := hnew id hdelivers
      obtain ⟨webhook, request, resp, fwd, hd, -, htarget, -⟩ := exists_send_of_accepted hdelivers
      have hundeleted : Undeleted id t.past := undeleted_of_noSend h ht htarget hnosend
      have hcall : c = .send (some webhook) request := congrArg Sigma.fst hd
      refine ⟨_, (List.getElem?_set_self hn), hundeleted.cons ?_⟩
      simp [hcall]
    · rcases hs.pending e hmem id hdelivers with hspent | ⟨u, hu, hundeleted⟩
      · exact Or.inl (hperformed.isSpent_after hspent)
      · exact pending_advanced h ht hsucceeds hmem hdelivers hu hundeleted
  · refine List.pairwise_cons.mpr ⟨fun e he id hdelivers hdelivers' => ?_, hs.once⟩
    -- the task of the older delivery is the only one with an attempt, and it has sent already
    obtain ⟨hattempts, hnosend⟩ := hnew id hdelivers
    have htask := hs.sole e he id hdelivers' n hattempts
    obtain ⟨u, hu, -, hdone, -⟩ := delivers_in_past h he hdelivers'
    rw [← htask] at hu
    obtain rfl : t = u := Option.some.inj (ht.symm.trans hu)
    have hsend := isSend_of_accepted hdelivers'
    rw [hnosend _ hdone] at hsend
    cases hsend

end Step

/-! ## Every run -/

/-- The id of the webhook a call delivered. -/
def deliveredId (state : AppState) (job : Job) : DoneCall → Option ℤ
  | ⟨.send (some webhook) _, .ok resp⟩ =>
      match state.target job with
      | some fwd => if resp.status = fwd.expectedStatus then webhook.id else none
      | none => none
  | _ => none

theorem deliveredId_eq_some_iff {job : Job} {d : DoneCall} {id : ℤ} :
    state.deliveredId job d = some id ↔ state.accepted job id d := by
  unfold deliveredId accepted
  split
  · rename_i webhook request resp
    cases state.target job with
    | none => simp
    | some fwd => by_cases hstatus : resp.status = fwd.expectedStatus <;> simp [hstatus]
  · simp

theorem deliveredOnce_of_reaches
    (h : state.machine.Reaches (fun s e => StorageSucceeds e ∧ BeginsAlone state s e)
      state.initial s) :
    DeliveredOnce state s := by
  induction h with
  | refl =>
      refine ⟨fun m n id hm => ?_, ?_, ?_, ?_⟩
      · obtain ⟨t, ht, -⟩ := hm
        simp [initial] at ht
      · simp [initial]
      · simp [initial]
      · simp [initial]
  | step hreach hok hnext ih =>
      rcases state.machine.next_cases hnext with
        ⟨j, rfl, -, rfl⟩ | ⟨n, i, t, c, k, rfl, ht, hr, rfl⟩
      · refine ⟨fun m n id hm hn => ?_, fun e he id hd n hn => ?_, fun e he id hd => ?_, ih.once⟩
        · exact ih.apart m n id (attempts_spawned hm) (attempts_spawned hn)
        · exact ih.sole e he id hd n (attempts_spawned hn)
        · refine (ih.pending e he id hd).imp_right ?_
          rintro ⟨u, hu, hundeleted⟩
          refine ⟨u, ?_, hundeleted⟩
          exact (List.getElem?_append_left (List.getElem?_eq_some_iff.mp hu).1).trans hu
      · exact deliveredOnce_advanced hreach ht hr hok.2 ih hok.1

/-- **At most one delivery without overlapping attempts.**  In every run in which the storage
calls succeed and no attempt begins while another task attempts the same webhook, at most
one request built from a webhook is answered with the expected status. -/
theorem delivered_at_most_once (state : AppState) {s : ServiceState}
    (h : state.machine.Reaches (fun s e => StorageSucceeds e ∧ BeginsAlone state s e)
      state.initial s) (id : ℤ) :
    (s.history.filter fun e => state.deliveredId e.job e.done = some id).length ≤ 1 := by
  have honce := (deliveredOnce_of_reaches h).once.filter
    fun e => state.deliveredId e.job e.done = some id
  cases hdelivered : s.history.filter fun e => state.deliveredId e.job e.done = some id with
  | nil => simp
  | cons e rest =>
      cases rest with
      | nil => simp
      | cons e' rest =>
          have hall : ∀ x ∈ e :: e' :: rest, state.Delivers id x := by
            intro x hx
            rw [← hdelivered, List.mem_filter, decide_eq_true_eq] at hx
            exact deliveredId_eq_some_iff.mp hx.2
          rw [hdelivered] at honce
          have hpair := (List.pairwise_cons.mp honce).1 e' List.mem_cons_self id
          exact absurd (hall e' (by simp)) (hpair (hall e (by simp)))

/-- The webhook of the small service is received and the forwarder starts. -/
def receiveEvents : List ServiceEvent :=
  ServiceEvent.task (.request .small) 0 (List.replicate 3 (Input.calm 1000 200)) ++
    ServiceEvent.task (.refresh 0) 1 (List.replicate 3 (Input.calm 1000 200))

/-- A pass is refused by the target and records it; while it sleeps, a manual retry delivers the
webhook, and another one finds nothing. -/
def serialEvents : List ServiceEvent :=
  receiveEvents ++ ServiceEvent.task (.cycle 0) 2 (List.replicate 12 (Input.calm 1001 500)) ++
    ServiceEvent.task (.request (.retry "orders" 1 .small)) 3
      (List.replicate 7 (Input.calm 1002 200)) ++
    ServiceEvent.task (.request (.retry "orders" 1 .small)) 4
      (List.replicate 2 (Input.calm 1003 200))

/-- A manual retry runs between the answer a pass gets and its delete. -/
def overlappingEvents : List ServiceEvent :=
  receiveEvents ++ ServiceEvent.task (.cycle 0) 2 (List.replicate 5 (Input.calm 1001 200)) ++
    ServiceEvent.task (.request (.retry "orders" 1 .small)) 3
      (List.replicate 7 (Input.calm 1002 200)) ++
    List.replicate 4 (.advance 2 (Input.calm 1003 200))

/-- What shows of an attempt under way: the task has loaded the row, and has sent nothing or had
the webhook accepted. -/
def Engaged (state : AppState) (s : ServiceState) (n : ℕ) (id : ℤ) : Prop :=
  ∃ t ∈ s.tasks[n]?, Loaded id t.past ∧
    (NoSend t.past ∨ ∃ d ∈ t.past, state.deliveredId t.job d = some id)

/-- No attempt begins while another task is engaged. -/
def BeginsFree (state : AppState) (s : ServiceState) : ServiceEvent → Prop
  | .spawn _ => True
  | .advance n i => ∀ row ∈ loads state s n i, ∀ m < s.tasks.length, m ≠ n →
      ¬state.Engaged s m row.id

instance (state : AppState) (s : ServiceState) (n : ℕ) (id : ℤ) :
    Decidable (state.Engaged s n id) :=
  inferInstanceAs (Decidable (∃ t ∈ s.tasks[n]?, Loaded id t.past ∧
    ((∀ d ∈ t.past, isSend d = false) ∨ ∃ d ∈ t.past, state.deliveredId t.job d = some id)))

instance (state : AppState) (s : ServiceState) (e : ServiceEvent) :
    Decidable (BeginsFree state s e) :=
  match e with
  | .spawn _ => inferInstanceAs (Decidable True)
  | .advance n i => inferInstanceAs (Decidable
      (∀ row ∈ loads state s n i, ∀ m < s.tasks.length, m ≠ n → ¬state.Engaged s m row.id))

theorem beginsAlone_of_beginsFree {ok : ServiceState → ServiceEvent → Prop}
    (h : state.machine.Reaches ok state.initial s) {e : ServiceEvent} (he : BeginsFree state s e) :
    BeginsAlone state s e := by
  cases e with
  | spawn j => trivial
  | advance n i =>
      rintro row hrow m hm hne ⟨t, ht, hloaded, hopen⟩
      refine he row hrow m hm hne ⟨t, ht, hloaded, hopen.imp (fun hmay => ?_) ?_⟩
      · exact noSend_of_mayCall h (List.mem_of_getElem? ht) hmay
      · rintro ⟨⟨d, hd, haccepted⟩, -⟩
        exact ⟨d, hd, deliveredId_eq_some_iff.mpr haccepted⟩

/-- A manual retry is pressed while a pass sleeps that was refused: the pass is not under way with
an attempt any more, and the webhook is delivered once. -/
theorem delivered_at_most_once_small :
    ∃ s : ServiceState, s.tasks.map TaskState.hasReturned = [true, true, false, true, true] ∧
      (s.history.filter fun e => small.deliveredId e.job e.done = some 1) ≠ [] ∧
      (s.history.filter fun e => small.deliveredId e.job e.done = some 1).length ≤ 1 := by
  have hrun : ∃ s, small.machine.runPermitted (fun s e => StorageSucceeds e ∧ BeginsFree small s e)
      small.initial serialEvents = some s ∧
      s.tasks.map TaskState.hasReturned = [true, true, false, true, true] ∧
      (s.history.filter fun e => small.deliveredId e.job e.done = some 1).isEmpty = false := by
    decide +kernel
  obtain ⟨s, hs, hreturned, hdelivered⟩ := hrun
  have hreaches := (TaskMachine.reaches_of_runPermitted hs).strengthen fun s e hreach hok =>
    (⟨hok.1, beginsAlone_of_beginsFree hreach hok.2⟩ : StorageSucceeds e ∧ BeginsAlone small s e)
  refine ⟨s, hreturned, fun hnil => ?_, delivered_at_most_once small hreaches 1⟩
  rw [hnil] at hdelivered
  cases hdelivered

/-- **Overlapping attempts deliver twice**, with an accepted configuration and without any
storage failure. -/
theorem overlapping_attempts_deliver_twice :
    ¬∀ (state : AppState) (s : ServiceState),
      state.config.validateConfig state.db.ext = .ok () →
      state.machine.Reaches (fun _ e => StorageSucceeds e) state.initial s → ∀ id,
        (s.history.filter fun e => state.deliveredId e.job e.done = some id).length ≤ 1 := by
  intro hclaim
  have hrun : ∃ s, small.machine.runPermitted (fun _ e => StorageSucceeds e) small.initial
      overlappingEvents = some s ∧
      (s.history.filter fun e => small.deliveredId e.job e.done = some 1).length = 2 := by
    decide +kernel
  obtain ⟨s, hs, hdelivered⟩ := hrun
  have hconfig : small.config.validateConfig small.db.ext = .ok () :=
    Except.eq_ok_of_toBool (by decide +kernel)
  have hone := hclaim small s hconfig (TaskMachine.reaches_of_runPermitted hs) 1
  omega

end AppState
