/-
# Pause, clear and delete take effect within one attempt

The forwarder looks at the pause flag at the start of a pass and at its row when it peeks, and
sends later than both.  A pass that is past the look when a request is answered may still send;
every later pass sees what the request did.  The passes of a forwarder take turns, so at most one
of them is under way.
-/
import KaimanWebhooks.Clock
import KaimanWebhooks.Turns

/-! ## Acknowledged requests -/

/-- The statement a request removes webhooks with. -/
def Request.removal : Request → Option Query
  | .clear channel _ => some (.clearByChannel channel)
  | .delete _ id _ => some (.deleteById id)
  | _ => none

/-- What a request that was answered 204 has done: a pause has just set the flag, and a removal
has executed its statement. -/
def Request.TookEffect (r : Request) (past : List DoneCall) : Prop :=
  (∀ channel headers, r = .pause channel headers →
    past.head? = some ⟨.updateStatus channel (.paused true), true⟩) ∧
  ∀ q, r.removal = some q → ∃ a, (⟨.sql q, .ok a⟩ : DoneCall) ∈ past

namespace AppState

variable {state : AppState}

/-- No refusal is a 204. -/
theorem status_of_authorize {headers : HeaderMap} {channel : String} {response : HttpResponse}
    (h : state.authorize headers channel = .error response) : response.status ≠ 204 := by
  unfold authorize authorizeChannel at h
  split at h
  · cases h
    simp [HttpResponse.text]
  · split at h
    · split_ifs at h
      cases h
      simp [HttpResponse.text]
    · split_ifs at h <;> cases h <;> simp [HttpResponse.text]

theorem status_ofError_ne (e : WebhookRepositoryError) : (HttpResponse.ofError e).status ≠ 204 := by
  unfold HttpResponse.ofError
  split_ifs
  · decide
  · simp [HttpResponse.text]

/-- **A 204 is an acknowledgement**: it is answered only after the request took effect. -/
theorem handle_tookEffect (r : Request) :
    (state.handle r).Obeys state.machine.Answers (fun _ _ => True)
      (fun past response => response.status = 204 → r.TookEffect past) [] := by
  cases r with
  | pause channel headers =>
      refine obeys_orRespond (fun response hcheck h204 =>
        absurd h204 (status_of_authorize hcheck)) fun _ _ => ?_
      refine ⟨trivial, fun registered _ => ?_⟩
      cases registered with
      | false => exact fun h204 => absurd h204 (by decide)
      | true =>
          refine fun _ => ⟨fun channel' headers' hr => ?_, nofun⟩
          cases hr
          rfl
  | clear channel headers =>
      refine obeys_orRespond (fun response hcheck h204 =>
        absurd h204 (status_of_authorize hcheck)) fun _ _ => ?_
      refine Sqlite.obeys_bind_statement (fun _ _ _ => trivial) (fun _ _ => trivial) ?_ ?_
      · intro new affected _ _
        refine ⟨trivial, fun registered _ _ => ⟨nofun, fun q hq => ?_⟩⟩
        cases hq
        exact ⟨affected, by simp⟩
      · exact fun new e _ _ h204 => absurd h204 (status_ofError_ne e)
  | delete channel id headers =>
      refine obeys_orRespond (fun response hcheck h204 =>
        absurd h204 (status_of_authorize hcheck)) fun _ _ => ?_
      refine Sqlite.obeys_bind_statement (fun _ _ _ => trivial) (fun _ _ => trivial) ?_ ?_
      · intro new affected _ _ _
        refine ⟨nofun, fun q hq => ?_⟩
        cases hq
        exact ⟨affected, List.mem_cons_self⟩
      · exact fun new e _ _ h204 => absurd h204 (status_ofError_ne e)
  | _ =>
      exact CallProgram.obeys_of_forall (fun _ _ => trivial) (fun _ _ _ => ⟨nofun, nofun⟩) _

/-! ## The flag -/

/-- The event does not lift the pause of a channel. -/
def NotResumed (channel : WebhookChannel) (s : ServiceState) : ServiceEvent → Prop
  | .spawn _ => True
  | .advance n _ => s.nextCall n ≠ some (.updateStatus channel (.paused false))

instance (channel : WebhookChannel) (s : ServiceState) (e : ServiceEvent) :
    Decidable (NotResumed channel s e) :=
  match e with
  | .spawn _ | .advance _ _ => by unfold NotResumed; infer_instance

/-- The status of the channel says that it is paused. -/
def IsPaused (w : World) (channel : WebhookChannel) : Prop :=
  ∃ status, w.statuses channel = some status ∧ status.paused = true

/-- Only a resume of the channel clears its flag. -/
theorem isPaused_perform {ext : External} {channel : WebhookChannel} {c : Call Query} {i : Input}
    {w : World} (h : IsPaused w channel) (hc : c ≠ .updateStatus channel (.paused false)) :
    IsPaused (perform ext c i w).2 channel := by
  obtain ⟨status, hstatus, hpaused⟩ := h
  cases c with
  | updateStatus channel' update =>
      by_cases hchannel : channel = channel'
      · subst hchannel
        refine ⟨update.apply status, by simp [perform, hstatus], ?_⟩
        cases update with
        | paused flag =>
            cases flag with
            | true => rfl
            | false => exact absurd rfl hc
        | _ => exact hpaused
      · exact ⟨status, by simp [perform, hchannel, hstatus], hpaused⟩
  | sql q =>
      refine ⟨status, ?_, hpaused⟩
      rw [← hstatus]
      cases hfault : i.fault <;> simp [perform, hfault]
  | _ => exact ⟨status, hstatus, hpaused⟩

/-- **A pause lasts until the next resume.** -/
theorem isPaused_of_notResumed {channel : WebhookChannel} {s₁ s : ServiceState}
    (h : state.machine.Reaches (NotResumed channel) s₁ s) (h₁ : IsPaused s₁.shared channel) :
    IsPaused s.shared channel := by
  refine h.invariant_shared (fun w => IsPaused w channel) h₁ ?_
  intro s n i t c k hs hok ht hr
  refine isPaused_perform hs fun hc => hok ?_
  rw [TaskSystem.nextCall_eq ht hr, hc]

/-! ## A pass looks at the flag first -/

variable (state) in
/-- A pass sends only after it has found its channel not paused. -/
def ReadsFlag (job : Job) (past : List DoneCall) (c : Call Query) : Prop :=
  ∀ k fw, job = .cycle k → state.forwarders[k]? = some fw →
    (∃ about request, c = .send about request) →
    ∃ status : Option ChannelForwardStatus,
      (⟨.readStatus fw.channel, status⟩ : DoneCall) ∈ past ∧
        (status.map ChannelForwardStatus.paused).getD false = false

theorem readsFlag_of_ne_send {job : Job} {past : List DoneCall} {c : Call Query}
    (h : ∀ about request, c ≠ .send about request) : state.ReadsFlag job past c := by
  rintro k fw - - ⟨about, request, hc⟩
  exact absurd hc (h about request)

theorem start_readsFlag (job : Job) :
    (state.start job).Obeys state.machine.Answers (state.ReadsFlag job) (fun _ _ => True) [] := by
  cases job with
  | cycle k =>
      simp only [start]
      cases hfw : state.forwarders[k]? with
      | none => trivial
      | some fw =>
          dsimp only
          rw [CallProgram.obeys_bind]
          simp only [Forwarder.cycle, Forwarder.isPaused, CallProgram.bind_eq,
            CallProgram.bind_call, CallProgram.bind_pure_left, CallProgram.pure_eq]
          refine ⟨readsFlag_of_ne_send (by simp), fun status _ => ?_⟩
          dsimp only
          split
          · exact ⟨readsFlag_of_ne_send (by simp), fun _ _ => trivial⟩
          · rename_i hpaused
            -- the look at the flag is among the calls from here on
            refine (CallProgram.obeys_of_forall (P := fun _ _ => True) (Q := fun _ _ => True)
              (fun _ _ => trivial) (fun _ _ => trivial) _).weaken ?_ fun _ _ _ _ => trivial
            rintro past c hsuffix - k' fw' hjob hfw' -
            cases hjob
            obtain rfl : fw = fw' := Option.some.inj (hfw.symm.trans hfw')
            exact ⟨status, hsuffix.mem List.mem_cons_self, by simpa using hpaused⟩
  | _ =>
      refine CallProgram.obeys_of_forall ?_ (fun _ _ => trivial) _
      intro past c k fw hjob
      cases hjob

/-! ## What was removed -/

/-- The ids of the webhooks the calls of a task have removed. -/
def removedBy (s : ServiceState) (n : ℕ) : List ℤ :=
  (s.history.filter fun e => e.task = n).flatMap fun e =>
    (e.before.table.rows.map Row.id).filter fun id => id ∉ e.after.table.rows.map Row.id

/-- The id of the webhook a call sent. -/
def sentId : DoneCall → Option ℤ
  | ⟨.send (some webhook) _, _⟩ => webhook.id
  | _ => none

theorem exists_send_of_sentId {d : DoneCall} {id : ℤ} (h : sentId d = some id) :
    ∃ webhook request answer, d = ⟨.send (some webhook) request, answer⟩ ∧
      webhook.id = some id := by
  unfold sentId at h
  split at h
  · exact ⟨_, _, _, rfl, h⟩
  · cases h

/-- **What was removed is gone for good.** -/
theorem isSpent_of_mem_removedBy {ok : ServiceState → ServiceEvent → Prop} {s : ServiceState}
    (h : state.machine.Reaches ok state.initial s) {n : ℕ} {id : ℤ} (hid : id ∈ removedBy s n) :
    IsSpent s.shared.table id := by
  obtain ⟨e, he, hremoved⟩ := List.mem_flatMap.mp hid
  have hmem : e ∈ s.history := List.mem_of_mem_filter he
  rw [List.mem_filter, decide_eq_true_eq] at hremoved
  obtain ⟨hbefore, hafter⟩ := hremoved
  obtain ⟨row, hrow, rfl⟩ := List.mem_map.mp hbefore
  refine isSpent_of_mem_history h hmem ⟨?_, fun r hr hsame => ?_⟩
  · exact (e.before.table.le_seq row hrow).trans (performed_of_mem_history h hmem).seq_le
  · exact hafter (hsame ▸ List.mem_map_of_mem hr)

/-! ## The pass that is under way -/

/-- A task that sends at most once by its protocol does. -/
theorem countP_isSend_le_one {past : List DoneCall}
    (h : ∀ d older, (d :: older) <:+ past → isSend d = true → NoSend older) :
    past.countP isSend ≤ 1 := by
  induction past with
  | nil => exact Nat.zero_le 1
  | cons d past ih =>
      rw [List.countP_cons]
      split
      · rename_i hsend
        have hnone : past.countP isSend = 0 :=
          List.countP_eq_zero.mpr fun d' hd' => by
            rw [h d past (List.suffix_refl _) hsend d' hd']
            exact Bool.false_ne_true
        omega
      · exact ih fun d' older hsuffix => h d' older (hsuffix.trans (List.suffix_cons d past))

section UnderWay

variable {ok ok₁ : ServiceState → ServiceEvent → Prop} {s₁ s : ServiceState}
  (h₁ : state.machine.Reaches ok₁ state.initial s₁) (h : state.machine.Reaches ok s₁ s)

include h₁ h

/-- A run that goes on from a reachable state is a run. -/
theorem reaches_of_reaches : state.machine.Reaches (fun _ _ => True) state.initial s :=
  (h₁.mono fun _ _ _ => trivial).trans (h.mono fun _ _ _ => trivial)

/-- A task whose past has a call that cannot have been made since was there before. -/
theorem exists_task_of_call {n : ℕ} {u : ServiceTask} (hu : s.tasks[n]? = some u) {d : DoneCall}
    (hd : d ∈ u.past)
    (hnot : ∀ (e : ServiceEntry) (s₂ : ServiceState), e.done = d → Performed state.db.ext e →
      s₂.shared = e.before → ¬state.machine.Reaches ok s₁ s₂) : ∃ t, s₁.tasks[n]? = some t := by
  obtain ⟨e, he, rfl, -, hdone⟩ := (reaches_of_reaches h₁ h).pastsRecorded rfl n u d hu hd
  rw [history_eq_later h] at he
  rcases List.mem_append.mp he with hnew | hold
  · obtain ⟨s₂, newer, hmade⟩ := h.exists_madeIn_of_later (history_eq_later h) hnew
    obtain ⟨i, t, k, -, -, -, -, hperform⟩ := hmade.event
    exact absurd hmade.reaches (hnot e s₂ hdone ⟨i, hperform⟩ hmade.before)
  · obtain ⟨t, ht, -⟩ := h₁.historyRecorded rfl e hold
    exact ⟨t, ht⟩

/-- **One pass is under way.**  Of the later sends of a forwarder by tasks that were there
before, there is at most one. -/
theorem countP_later_le_one {later : List ServiceEntry} (hlater : s.history = later ++ s₁.history)
    {k : ℕ} {p : ServiceEntry → Bool}
    (hp : ∀ e ∈ later, p e = true → isSend e.done = true ∧ e.job = .cycle k ∧
      ∃ t, s₁.tasks[e.task]? = some t) : later.countP p ≤ 1 := by
  by_cases hany : ∃ e ∈ later, p e = true
  · obtain ⟨e, he, hpe⟩ := hany
    obtain ⟨-, hjob, t, ht⟩ := hp e he hpe
    obtain ⟨hjob₁, hopen⟩ := h.not_hasReturned_of_later hlater he ht
    have hreach := reaches_of_reaches h₁ h
    obtain ⟨u, hu, -⟩ := h.exists_task ht
    refine hreach.countP_le_one rfl rfl hlater hu
      (countP_isSend_le_one fun d older => noSend_of_suffix hreach (List.mem_of_getElem? hu)) ?_
    intro e' he' hpe'
    obtain ⟨hsend', hjob', t', ht'⟩ := hp e' he' hpe'
    obtain ⟨hjob₁', hopen'⟩ := h.not_hasReturned_of_later hlater he' ht'
    refine ⟨?_, hsend'⟩
    -- two passes of one forwarder that are both under way are the same
    by_contra hne
    have hsame : SameForwarder t'.job t.job := by
      rw [hjob₁', hjob₁, hjob', hjob]
      exact ⟨k, rfl, rfl⟩
    rcases takeTurns_of_reaches h₁ e'.task e.task t' t ht' ht hne hsame with hdone | hdone
    · exact hopen' hdone
    · exact hopen hdone
  · have hzero : later.countP p = 0 :=
      List.countP_eq_zero.mpr fun e he hpe => hany ⟨e, he, hpe⟩
    omega

end UnderWay

/-! ## After a pause -/

/-- What a look at the flag is answered. -/
theorem answer_of_readStatus {ext : External} {e : ServiceEntry} (h : Performed ext e)
    {channel : WebhookChannel} {status : Option ChannelForwardStatus}
    (hdone : e.done = (⟨.readStatus channel, status⟩ : DoneCall)) :
    status = e.before.statuses channel := by
  obtain ⟨i, h⟩ := h
  rcases e with ⟨n, job, c, answer, before, after⟩
  cases hdone
  exact (congrArg Prod.fst h).symm

/-- A pass that sends while its channel is paused looked at the flag before. -/
theorem exists_task_of_paused {ok₁ : ServiceState → ServiceEvent → Prop} {s₁ s : ServiceState}
    {channel : WebhookChannel} (h₁ : state.machine.Reaches ok₁ state.initial s₁)
    (h : state.machine.Reaches (NotResumed channel) s₁ s) (hpaused : IsPaused s₁.shared channel)
    {later : List ServiceEntry} (hlater : s.history = later ++ s₁.history) {e : ServiceEntry}
    (he : e ∈ later) (hsend : isSend e.done = true) {k : ℕ} {fw : Forwarder}
    (hjob : e.job = .cycle k) (hfw : state.forwarders[k]? = some fw)
    (hchannel : fw.channel = channel) : ∃ t, s₁.tasks[e.task]? = some t := by
  obtain ⟨s₂, newer, hmade⟩ := h.exists_madeIn_of_later hlater he
  obtain ⟨i, u, next, -, hu, hujob, hrest, -⟩ := hmade.event
  obtain ⟨about, request, answer, hdone⟩ := exists_send_of_isSend hsend
  have hcall : e.call = .send about request := congrArg Sigma.fst hdone
  obtain ⟨status, hread, hunpaused⟩ := (reaches_of_reaches h₁ hmade.reaches).next_permitted rfl
    start_readsFlag (List.mem_of_getElem? hu) hrest k fw (hujob.trans hjob) hfw ⟨_, _, hcall⟩
  refine exists_task_of_call h₁ hmade.reaches hu hread ?_
  intro e' s₃ hdone' hperformed hbefore hreach
  -- since the pause every look finds the flag set
  obtain ⟨status', hstatus', hflag⟩ := isPaused_of_notResumed hreach hpaused
  have hanswer := answer_of_readStatus hperformed hdone'
  rw [← hbefore, hchannel, hstatus'] at hanswer
  rw [hanswer, Option.map_some, Option.getD_some, hflag] at hunpaused
  cases hunpaused

/-! ## After a removal -/

/-- A task that sends a webhook whose id is spent loaded its row before. -/
theorem exists_task_of_spent {ok ok₁ : ServiceState → ServiceEvent → Prop} {s₁ s : ServiceState}
    (h₁ : state.machine.Reaches ok₁ state.initial s₁) (h : state.machine.Reaches ok s₁ s) {id : ℤ}
    (hspent : IsSpent s₁.shared.table id) {later : List ServiceEntry}
    (hlater : s.history = later ++ s₁.history) {e : ServiceEntry} (he : e ∈ later)
    (hsent : sentId e.done = some id) : ∃ t, s₁.tasks[e.task]? = some t := by
  obtain ⟨s₂, newer, hmade⟩ := h.exists_madeIn_of_later hlater he
  obtain ⟨i, u, next, -, hu, -, hrest, -⟩ := hmade.event
  obtain ⟨webhook, request, answer, hdone, hid⟩ := exists_send_of_sentId hsent
  have hcall : e.call = .send (some webhook) request := congrArg Sigma.fst hdone
  have hpermitted := (reaches_of_reaches h₁ hmade.reaches).next_permitted rfl start_obeys
    (List.mem_of_getElem? hu) hrest
  rw [hcall] at hpermitted
  obtain ⟨-, webhook', hwebhook', -, d, hd, row, hrow, hparse⟩ := hpermitted
  obtain rfl : webhook = webhook' := Option.some.inj hwebhook'
  refine exists_task_of_call h₁ hmade.reaches hu hd ?_
  intro e' s₃ hdone' hperformed hbefore hreach
  -- the row of a spent id cannot be loaded any more
  have hmem := hperformed.mem_of_loadedRow (hdone' ▸ hrow)
  rw [← hbefore] at hmem
  exact (isSpent_of_reaches hreach hspent).2 row hmem (id_of_parseWebhookRow hparse hid)

/-! ## Acknowledgement and effect -/

/-- Task `n` has answered the request with this status. -/
def Answered (s : ServiceState) (n : ℕ) (r : Request) (status : ℕ) : Prop :=
  match s.tasks[n]? with
  | none => False
  | some t =>
      match t.rest with
      | .pure (some resp) => t.job = .request r ∧ resp.status = status
      | _ => False

instance (s : ServiceState) (n : ℕ) (r : Request) (status : ℕ) :
    Decidable (Answered s n r status) := by
  unfold Answered
  split
  · infer_instance
  · split <;> infer_instance

theorem exists_of_answered {s : ServiceState} {n : ℕ} {r : Request} {status : ℕ}
    (h : Answered s n r status) : ∃ t resp, s.tasks[n]? = some t ∧ t.job = .request r ∧
      t.rest = .pure (some resp) ∧ resp.status = status := by
  unfold Answered at h
  split at h
  · exact h.elim
  · rename_i t ht
    split at h
    · rename_i resp hrest
      exact ⟨t, resp, ht, h.1, hrest, h.2⟩
    · exact h.elim

/-- The call of task `n` on this input makes it answer the request with 204. -/
structure Acknowledges (state : AppState) (s₀ : ServiceState) (n : ℕ) (i : Input)
    (s₁ : ServiceState) (r : Request) : Prop where
  step : state.machine.next s₀ (.advance n i) = some s₁
  answered : Answered s₁ n r 204

theorem start_tookEffect (job : Job) :
    (state.start job).Obeys state.machine.Answers (fun _ _ => True)
      (fun past response => ∀ r resp, job = .request r → response = some resp →
        resp.status = 204 → r.TookEffect past) [] := by
  cases job with
  | request r =>
      simp only [start]
      rw [CallProgram.obeys_bind]
      refine (handle_tookEffect r).weaken (fun _ _ _ hP => hP) ?_
      rintro past response - htook r' resp hr hresp h204
      cases hr
      cases hresp
      exact htook h204
  | _ =>
      refine CallProgram.obeys_of_forall (fun _ _ => trivial) ?_ _
      intro past response r resp hjob
      cases hjob

section Acknowledged

variable {ok : ServiceState → ServiceEvent → Prop} {s₀ s₁ : ServiceState} {n : ℕ} {i : Input}
  {r : Request} (h₀ : state.machine.Reaches ok state.initial s₀)
  (hack : state.Acknowledges s₀ n i s₁ r)

include h₀ hack

theorem Acknowledges.reaches : state.machine.Reaches (fun _ _ => True) state.initial s₁ :=
  .step (h₀.mono fun _ _ _ => trivial) trivial hack.step

theorem Acknowledges.tookEffect :
    ∃ t, s₁.tasks[n]? = some t ∧ r.TookEffect t.past := by
  obtain ⟨t, resp, ht, hjob, hrest, h204⟩ := exists_of_answered hack.answered
  have hallowed := (hack.reaches h₀).returned_allowed rfl start_tookEffect
    (List.mem_of_getElem? ht) hrest
  exact ⟨t, ht, hallowed r resp hjob rfl h204⟩

/-- A pause that was just acknowledged has set the flag. -/
theorem Acknowledges.isPaused {channel : WebhookChannel} {headers : HeaderMap}
    (hr : r = .pause channel headers) : IsPaused s₁.shared channel := by
  obtain ⟨t, ht, hpause, -⟩ := hack.tookEffect h₀
  have hlast := hpause channel headers hr
  rcases state.machine.next_cases hack.step with ⟨j, hspawn, -⟩ |
    ⟨n', i', t', c, next, hadvance, ht', -, rfl⟩
  · cases hspawn
  · cases hadvance
    rcases TaskMachine.getElem?_advanced ht with ⟨-, rfl⟩ | ⟨hne, -⟩
    · have hcall : c = .updateStatus channel (.paused true) :=
        congrArg Sigma.fst (Option.some.inj hlast)
      subst hcall
      have hregistered : (s₀.shared.statuses channel).isSome = true :=
        eq_of_heq (Sigma.mk.inj (Option.some.inj hlast)).2
      obtain ⟨status, hstatus⟩ := Option.isSome_iff_exists.mp hregistered
      refine ⟨StatusUpdate.apply (.paused true) status, ?_, rfl⟩
      show (if channel = channel then (s₀.shared.statuses channel).map _ else _) = _
      rw [if_pos rfl, hstatus]
      rfl
    · exact absurd rfl hne

end Acknowledged

/-! ## Taking effect -/

/-- The call started a delivery of forwarder `k`. -/
def startsDelivery (k : ℕ) (e : ServiceEntry) : Bool := e.job = .cycle k && isSend e.done

/-- **Pause, clear and delete take effect within one attempt.**  After a pause of its channel was
acknowledged a forwarder starts at most one more delivery before the next resume; and after a
clear or a delete was acknowledged, which it is only once its statement was executed, a forwarder
starts at most one more delivery of all the webhooks it removed. -/
theorem interventions_take_effect {s₀ s₁ : ServiceState}
    (h₀ : state.machine.Reaches (fun _ _ => True) state.initial s₀) {n : ℕ} {i : Input}
    {r : Request} (hack : state.Acknowledges s₀ n i s₁ r) (k : ℕ) :
    (∀ channel headers fw, r = .pause channel headers → state.forwarders[k]? = some fw →
      fw.channel = channel → ∀ s later, state.machine.Reaches (NotResumed channel) s₁ s →
      s.history = later ++ s₁.history → later.countP (startsDelivery k) ≤ 1) ∧
    ∀ q, r.removal = some q →
      (∃ e ∈ s₁.history, e.task = n ∧ ∃ a, e.done = (⟨.sql q, .ok a⟩ : DoneCall)) ∧
      ∀ s later, state.machine.Reaches (fun _ _ => True) s₁ s →
        s.history = later ++ s₁.history →
        later.countP (fun e => startsDelivery k e &&
          (sentId e.done).any fun id => decide (id ∈ removedBy s₁ n)) ≤ 1 := by
  have h₁ := hack.reaches h₀
  constructor
  · intro channel headers fw hr hfw hchannel s later h hlater
    refine countP_later_le_one (k := k) h₁ h hlater fun e he hpe => ?_
    obtain ⟨hjob, hsend⟩ := Bool.and_eq_true_iff.mp hpe
    have hjob : e.job = .cycle k := of_decide_eq_true hjob
    exact ⟨hsend, hjob, exists_task_of_paused h₁ h (hack.isPaused h₀ hr) hlater he hsend hjob hfw
      hchannel⟩
  · intro q hq
    constructor
    · obtain ⟨t, ht, -, hremoved⟩ := hack.tookEffect h₀
      obtain ⟨a, ha⟩ := hremoved q hq
      obtain ⟨e, he, htask, -, hdone⟩ := h₁.pastsRecorded rfl n t _ ht ha
      exact ⟨e, he, htask, a, hdone⟩
    · intro s later h hlater
      refine countP_later_le_one (k := k) h₁ h hlater fun e he hpe => ?_
      obtain ⟨hstarts, hid⟩ := Bool.and_eq_true_iff.mp hpe
      obtain ⟨hjob, hsend⟩ := Bool.and_eq_true_iff.mp hstarts
      obtain ⟨id, hsent, hmem⟩ := (Option.any_eq_true _ _).mp hid
      exact ⟨hsend, of_decide_eq_true hjob, exists_task_of_spent h₁ h
        (isSpent_of_mem_removedBy h₁ (of_decide_eq_true hmem)) hlater he hsent⟩

/-- A webhook is received, and a pass has looked at the flag and peeked at it. -/
def peekedRun : List ServiceEvent :=
  ServiceEvent.task (.request .small) 0 (List.replicate 3 (Input.calm 1000 200)) ++
    ServiceEvent.task (.refresh 0) 1 (List.replicate 3 (Input.calm 1000 200)) ++
    ServiceEvent.task (.cycle 0) 2 (List.replicate 4 (Input.calm 1000 200))

/-- The request is answered while the pass is between its peek and its send: the one delivery the
theorem leaves room for is made. -/
theorem interventions_take_effect_small :
    (∃ s₀ s₁ s later,
      small.Acknowledges s₀ 3 (Input.calm 1000 200) s₁ (.pause "orders" HeaderMap.small) ∧
      small.machine.Reaches (NotResumed "orders") s₁ s ∧ s.history = later ++ s₁.history ∧
      later.countP (startsDelivery 0) = 1) ∧
    ∃ s₀ s₁ s later,
      small.Acknowledges s₀ 3 (Input.calm 1000 200) s₁ (.clear "orders" HeaderMap.small) ∧
      small.machine.Reaches (fun _ _ => True) s₁ s ∧ s.history = later ++ s₁.history ∧
      removedBy s₁ 3 = [1] ∧
      later.countP (fun e => startsDelivery 0 e &&
        (sentId e.done).any fun id => decide (id ∈ removedBy s₁ 3)) = 1 := by
  constructor
  · have hrun : ∃ s₀, small.machine.runPermitted (fun _ _ => True) small.initial
          (peekedRun ++ ServiceEvent.task (.request (.pause "orders" HeaderMap.small)) 3 []) =
          some s₀ ∧
        ∃ s₁, small.machine.next s₀ (.advance 3 (Input.calm 1000 200)) = some s₁ ∧
          Answered s₁ 3 (.pause "orders" HeaderMap.small) 204 ∧
        ∃ s, small.machine.runPermitted (NotResumed "orders") s₁
          [.advance 2 (Input.calm 1000 200)] = some s ∧
          1 ≤ (later s₁ s).countP (startsDelivery 0) := by
      decide +kernel
    obtain ⟨s₀, hs₀, s₁, hstep, hanswered, s, hs, hcount⟩ := hrun
    have h := TaskMachine.reaches_of_runPermitted hs
    refine ⟨s₀, s₁, s, later s₁ s, ⟨hstep, hanswered⟩, h, history_eq_later h,
      le_antisymm ?_ hcount⟩
    exact (interventions_take_effect (TaskMachine.reaches_of_runPermitted hs₀)
      ⟨hstep, hanswered⟩ 0).1 "orders" HeaderMap.small _ rfl rfl rfl s _ h (history_eq_later h)
  · have hrun : ∃ s₀, small.machine.runPermitted (fun _ _ => True) small.initial
          (peekedRun ++ ServiceEvent.task (.request (.clear "orders" HeaderMap.small)) 3
            (List.replicate 2 (Input.calm 1000 200))) = some s₀ ∧
        ∃ s₁, small.machine.next s₀ (.advance 3 (Input.calm 1000 200)) = some s₁ ∧
          Answered s₁ 3 (.clear "orders" HeaderMap.small) 204 ∧ removedBy s₁ 3 = [1] ∧
        ∃ s, small.machine.runPermitted (fun _ _ => True) s₁
          [.advance 2 (Input.calm 1000 200)] = some s ∧
          1 ≤ (later s₁ s).countP fun e =>
            startsDelivery 0 e && (sentId e.done).any fun id => decide (id ∈ removedBy s₁ 3) := by
      decide +kernel
    obtain ⟨s₀, hs₀, s₁, hstep, hanswered, hremoved, s, hs, hcount⟩ := hrun
    have h := TaskMachine.reaches_of_runPermitted hs
    refine ⟨s₀, s₁, s, later s₁ s, ⟨hstep, hanswered⟩, h, history_eq_later h, hremoved,
      le_antisymm ?_ hcount⟩
    exact ((interventions_take_effect (TaskMachine.reaches_of_runPermitted hs₀)
      ⟨hstep, hanswered⟩ 0).2 _ rfl).2 s _ h (history_eq_later h)

end AppState
