/-
# A backlog is worked off

While its target accepts and the database works, a forwarder sends its whole backlog, oldest first
and every webhook once, and does not sleep before nothing is due any more.  In the same way polls
hand out all that is stored, batch after batch, oldest batch first.
-/
import KaimanWebhooks.Attempts
import KaimanWebhooks.Draining
import KaimanWebhooks.Pacing
import KaimanWebhooks.Parity
import KaimanWebhooks.Polling

/-! ## Rows that leave -/

namespace Table

variable {t : Table} {p : Row → Bool}

/-- Dropping some of the rows drops them from every part of the table. -/
theorem filter_rows_keep (q : Row → Bool) :
    (t.keep p).rows.filter q = (t.rows.filter q).filter p := by
  rw [keep, List.filter_filter, List.filter_filter]
  exact List.filter_congr fun r _ => Bool.and_comm _ _

/-- Rows that were picked from a list and the others are the list. -/
theorem perm_picked {rows picked : List Row} (hnodup : rows.Nodup) (hpicked : picked.Nodup)
    (hsub : ∀ r ∈ picked, r ∈ rows) {p : Row → Bool} (hp : ∀ r ∈ rows, p r = true ↔ r ∉ picked) :
    (picked ++ rows.filter p).Perm rows := by
  have happend : (picked ++ rows.filter p).Nodup := by
    rw [List.nodup_append]
    refine ⟨hpicked, hnodup.filter _, ?_⟩
    rintro a ha b hb rfl
    obtain ⟨hrow, hkept⟩ := List.mem_filter.mp hb
    exact (hp a hrow).mp hkept ha
  refine (List.perm_ext_iff_of_nodup happend hnodup).mpr fun r => ?_
  rw [List.mem_append, List.mem_filter]
  constructor
  · rintro (hr | ⟨hr, -⟩)
    · exact hsub r hr
    · exact hr
  · intro hr
    by_cases hmem : r ∈ picked
    · exact Or.inl hmem
    · exact Or.inr ⟨hr, (hp r hr).mpr hmem⟩

end Table

namespace Forwarder

open AppState

variable (fw : Forwarder)

/-! ## A healthy environment -/

/-- The statement does not fail, and the target accepts what the forwarder sends. -/
structure Healthy (i : Input) : Prop where
  fault : i.fault = none
  accepts : ∀ webhook request, fw.buildRequest webhook = some request →
    fw.Accepts (sendRequest fw.db.ext i.answers request).1

/-- The channel is not paused. -/
def Unpaused (w : World) : Prop :=
  ((w.statuses fw.channel).map ChannelForwardStatus.paused).getD false = false

/-- The row can be read and its request can be built. -/
def Deliverable (row : Row) : Prop :=
  ∃ webhook request, parseWebhookRow fw.db.ext row = some webhook ∧
    fw.buildRequest webhook = some request

/-- The call is a sleep. -/
def isSleep : DoneCall → Bool
  | ⟨.sleep _, _⟩ => true
  | _ => false

/-- What the peek finds when it reads the clock and runs its statement on these inputs. -/
def found (ω : ℕ → Input) (w : World) : Option Row :=
  ((Query.peekOldestDueByChannel fw.channel (Prog.asI64 (ω 0).unixSeconds)).execute (ω 2).choice
    w.table).1

variable {fw} {w : World}

/-- An update that does not pause a channel leaves it unpaused. -/
theorem Unpaused.update (h : fw.Unpaused w) {w' : World} {update : StatusUpdate}
    (hstatus : w'.statuses fw.channel = (w.statuses fw.channel).map update.apply)
    (hupdate : ∀ flag, update ≠ .paused flag) : fw.Unpaused w' := by
  have happly : ∀ status, (update.apply status).paused = status.paused := by
    intro status
    cases update with
    | paused flag => exact absurd rfl (hupdate flag)
    | _ => rfl
  unfold Unpaused at h ⊢
  rw [hstatus, Option.map_map, ← h]
  congr 2
  exact funext happly

variable {ω : ℕ → Input} (hω : ∀ n, fw.Healthy (ω n))

include hω

/-- The peek of a healthy pass. -/
theorem run_peek_healthy :
    fw.peek.run (perform fw.db.ext) ω w =
      ⟨.done (.ok ((fw.found ω w).bind (parseWebhookRow fw.db.ext))), w,
        [⟨.systemNow, (ω 0).unixSeconds⟩, ⟨.instantNow, (ω 1).instant⟩,
          ⟨.sql (.peekOldestDueByChannel fw.channel (Prog.asI64 (ω 0).unixSeconds)),
            .ok (fw.found ω w)⟩]⟩ := by
  unfold peek
  rw [CallProgram.bind_eq, CallProgram.bind_call, CallProgram.run_call]
  simp only [CallProgram.bind_pure_left, Sqlite.peekOldestDueByChannel]
  rw [run_statement_of_fault_eq_none (hω 2).fault]
  rfl

/-- The removal of a delivered webhook. -/
theorem run_onDelivered_healthy (h : fw.Unpaused w) (id : ℤ) :
    ∃ w' calls, (fw.onDelivered id).run (perform fw.db.ext) ω w = ⟨.done .drained, w', calls⟩ ∧
      w'.table = (w.table.keep fun r => r.id ≠ id) ∧ fw.Unpaused w' ∧
        calls.filter isSend = [] ∧ calls.filter isSleep = [] := by
  unfold onDelivered
  rw [CallProgram.bind_eq, CallProgram.run_bind]
  simp only [Sqlite.deleteById]
  rw [run_statement_of_fault_eq_none (hω 1).fault]
  exact ⟨_, _, rfl, rfl, h.update (if_pos rfl) (by simp), rfl, rfl⟩

/-- The delivery of a webhook. -/
theorem run_deliver_healthy (h : fw.Unpaused w) (id : ℤ) {webhook : Webhook} {request : HttpRequest}
    (hrequest : fw.buildRequest webhook = some request) :
    ∃ w' calls answer,
      (fw.deliver id webhook request).run (perform fw.db.ext) ω w = ⟨.done .drained, w', calls⟩ ∧
        w'.table = (w.table.keep fun r => r.id ≠ id) ∧ fw.Unpaused w' ∧ fw.Accepts answer ∧
          calls.filter isSend = [⟨.send (some webhook) request, answer⟩] ∧
            calls.filter isSleep = [] := by
  obtain ⟨resp, hanswer, hstatus⟩ := (hω 0).accepts webhook request hrequest
  have hdelivered : fw.onAnswer id webhook (.ok resp) = fw.onDelivered id := if_pos hstatus
  have hsent : perform fw.db.ext (.send (some webhook) request) (ω 0) w = (.ok resp,
      { w with wire := w.wire ++ (sendRequest fw.db.ext (ω 0).answers request).2 }) :=
    Prod.ext hanswer rfl
  unfold deliver
  rw [CallProgram.bind_eq, CallProgram.bind_call, CallProgram.run_call, hsent]
  simp only [CallProgram.bind_pure_left]
  obtain ⟨w', calls, hrun, htable, hunpaused, hsends, hsleeps⟩ := run_onDelivered_healthy
    (fun n => hω (n + 1)) (w := { w with
      wire := w.wire ++ (sendRequest fw.db.ext (ω 0).answers request).2 }) h id
  rw [hdelivered, hrun]
  refine ⟨w', _, .ok resp, rfl, htable, hunpaused, ⟨resp, rfl, hstatus⟩, ?_, ?_⟩
  · rw [List.filter_cons_of_pos rfl, hsends]
  · rw [List.filter_cons_of_neg (by simp [isSleep]), hsleeps]

/-- A healthy pass that finds a webhook delivers it. -/
theorem run_forwardNext_found (h : fw.Unpaused w) {row : Row} {webhook : Webhook}
    {request : HttpRequest} (hfound : fw.found ω w = some row)
    (hparse : parseWebhookRow fw.db.ext row = some webhook)
    (hrequest : fw.buildRequest webhook = some request) :
    ∃ w' calls answer, fw.forwardNext.run (perform fw.db.ext) ω w = ⟨.done .drained, w', calls⟩ ∧
      w'.table = (w.table.keep fun r => r.id ≠ row.id) ∧ fw.Unpaused w' ∧ fw.Accepts answer ∧
        calls.filter isSend = [⟨.send (some webhook) request, answer⟩] ∧
          calls.filter isSleep = [] := by
  have hid := (parseWebhookRow_eq_some hparse).1
  obtain ⟨w', calls, answer, hrun, htable, hunpaused, haccepts, hsends, hsleeps⟩ :=
    run_deliver_healthy (fun n => hω (n + 3)) h row.id hrequest
  unfold forwardNext
  rw [CallProgram.bind_eq, CallProgram.run_bind, run_peek_healthy hω, hfound, Option.bind_some,
    hparse]
  simp only [onPeeked, hid, hrequest, List.length_cons, List.length_nil]
  rw [hrun]
  exact ⟨w', _, answer, rfl, htable, hunpaused, haccepts, hsends, hsleeps⟩

/-- A healthy pass that finds nothing counts the queue. -/
theorem run_forwardNext_nothing (h : fw.Unpaused w) (hfound : fw.found ω w = none) :
    ∃ w' calls, fw.forwardNext.run (perform fw.db.ext) ω w = ⟨.done .idle, w', calls⟩ ∧
      w'.table = w.table ∧ fw.Unpaused w' ∧ calls.filter isSend = [] ∧
        calls.filter isSleep = [] := by
  unfold forwardNext
  rw [CallProgram.bind_eq, CallProgram.run_bind, run_peek_healthy hω, hfound, Option.bind_none]
  simp only [onPeeked, refreshQueueSize, Sqlite.countByChannel, CallProgram.bind_eq,
    CallProgram.bind_assoc, List.length_cons, List.length_nil]
  rw [CallProgram.run_bind, run_statement_of_fault_eq_none (hω (1 + 3)).fault]
  exact ⟨_, _, rfl, rfl, h.update (if_pos rfl) (by simp), rfl, rfl⟩

/-! ## One cycle -/

omit hω in
/-- A cycle of a channel that is not paused starts with a pass. -/
theorem run_cycle_unpaused (ω : ℕ → Input) (h : fw.Unpaused w) :
    ∃ status, fw.cycle.run (perform fw.db.ext) ω w =
      let ex := (fw.forwardNext.bind fun progress => match progress with
        | .drained => CallProgram.pure ()
        | .idle => Prog.sleep fw.interval).run (perform fw.db.ext) (fun n => ω (n + 1)) w
      ⟨ex.outcome, ex.state, ⟨.readStatus fw.channel, status⟩ :: ex.calls⟩ := by
  refine ⟨w.statuses fw.channel, ?_⟩
  simp only [cycle, isPaused, CallProgram.bind_eq, CallProgram.bind_call,
    CallProgram.bind_pure_left, CallProgram.pure_eq, CallProgram.run_call]
  have hstatus : perform fw.db.ext (.readStatus fw.channel) (ω 0) w = (w.statuses fw.channel, w) :=
    rfl
  have hunpaused : ((w.statuses fw.channel).map ChannelForwardStatus.paused).getD false = false := h
  rw [hstatus]
  dsimp only
  rw [hunpaused]
  rfl

variable (fw) in
/-- **What a cycle hands out**: it sends the webhooks of the rows, one or none, which the target
accepts, and sleeps for the interval when there is none. -/
def Hands (batch : List Row) (ex : Executed Unit) : Prop :=
  ex.outcome = .done () ∧
    List.Forall₂ (fun row d => ∃ webhook request answer,
      parseWebhookRow fw.db.ext row = some webhook ∧ fw.buildRequest webhook = some request ∧
        fw.Accepts answer ∧ d = (⟨.send (some webhook) request, answer⟩ : DoneCall)) batch
      (ex.calls.filter isSend) ∧
      ex.calls.filter isSleep = if batch = [] then [⟨.sleep fw.interval, ()⟩] else []

/-- A healthy cycle that finds a webhook hands it out. -/
theorem hands_cycle_found (h : fw.Unpaused w) {row : Row}
    (hfound : fw.found (fun n => ω (n + 1)) w = some row) (hrow : fw.Deliverable row) :
    let ex := fw.cycle.run (perform fw.db.ext) ω w
    fw.Hands [row] ex ∧ ex.state.table = (w.table.keep fun r => r.id ≠ row.id) ∧
      fw.Unpaused ex.state := by
  obtain ⟨webhook, request, hparse, hrequest⟩ := hrow
  obtain ⟨w', calls, answer, hrun, htable, hunpaused, haccepts, hsends, hsleeps⟩ :=
    run_forwardNext_found (fun n => hω (n + 1)) h hfound hparse hrequest
  obtain ⟨status, hcycle⟩ := run_cycle_unpaused ω h
  rw [CallProgram.run_bind, hrun] at hcycle
  rw [hcycle]
  refine ⟨⟨rfl, ?_, ?_⟩, htable, hunpaused⟩
  · simp only [isSend, List.filter_cons_of_neg, List.filter_append, hsends, CallProgram.run_pure,
      List.filter_nil, Bool.false_eq_true, not_false_eq_true]
    exact List.Forall₂.cons ⟨webhook, request, answer, hparse, hrequest, haccepts, rfl⟩
      List.Forall₂.nil
  · simp only [isSleep, List.filter_cons_of_neg, List.filter_append, hsleeps, CallProgram.run_pure,
      List.filter_nil, Bool.false_eq_true, not_false_eq_true]
    rfl

/-- A healthy cycle that finds nothing sleeps. -/
theorem hands_cycle_nothing (h : fw.Unpaused w)
    (hfound : fw.found (fun n => ω (n + 1)) w = none) :
    let ex := fw.cycle.run (perform fw.db.ext) ω w
    fw.Hands [] ex ∧ ex.state.table = w.table ∧ fw.Unpaused ex.state := by
  obtain ⟨w', calls, hrun, htable, hunpaused, hsends, hsleeps⟩ :=
    run_forwardNext_nothing (fun n => hω (n + 1)) h hfound
  obtain ⟨status, hcycle⟩ := run_cycle_unpaused ω h
  rw [CallProgram.run_bind, hrun] at hcycle
  rw [hcycle]
  refine ⟨⟨rfl, ?_, ?_⟩, htable, hunpaused⟩
  · simp only [isSend, List.filter_cons_of_neg, List.filter_append, hsends, CallProgram.run_call,
      CallProgram.run_pure, List.filter_nil, Bool.false_eq_true, not_false_eq_true]
    exact List.Forall₂.nil
  · simp only [isSleep, List.filter_cons_of_neg, List.filter_append, hsleeps, CallProgram.run_call,
      CallProgram.run_pure, Bool.false_eq_true, not_false_eq_true]
    rfl

end Forwarder

/-! ## The backlog -/

namespace Forwarder

variable (fw : Forwarder)

/-- The inputs of a cycle are healthy, and no row of the channel falls due. -/
def Favours (t₀ : Table) (now : ℤ) (ω : ℕ → Input) : Prop :=
  ∀ n, fw.Healthy (ω n) ∧
    ∀ r ∈ t₀.inChannel fw.channel, r.isDue (Prog.asI64 (ω n).unixSeconds) = r.isDue now

/-- The rows of the table that are not in the backlog. -/
def others (now : ℤ) (t : Table) : List Row :=
  t.rows.filter fun r => !(r.inChannel fw.channel && r.isDue now)

/-- The table holds some of the rows of an earlier one, and all those that were not in the
backlog. -/
structure Remains (t₀ : Table) (now : ℤ) (w : World) : Prop where
  unpaused : fw.Unpaused w
  sub : ∀ r ∈ w.table.rows, r ∈ t₀.rows
  others : fw.others now w.table = fw.others now t₀

variable {fw} {t₀ : Table} {now : ℤ} {w : World}

/-- Deleting a row of the backlog leaves the others. -/
theorem Remains.keep (h : fw.Remains t₀ now w) {w' : World} {row : Row}
    (hrow : row ∈ w.table.dueRows fw.channel now)
    (htable : w'.table = w.table.keep fun r => r.id ≠ row.id) (hunpaused : fw.Unpaused w') :
    fw.Remains t₀ now w' := by
  refine ⟨hunpaused, ?_, ?_⟩
  · intro r hr
    rw [htable] at hr
    exact h.sub r (Table.mem_rows_keep.mp hr).1
  · rw [← h.others, htable, Forwarder.others, Table.filter_rows_keep]
    refine List.filter_eq_self.mpr fun r hr => ?_
    obtain ⟨hmem, hother⟩ := List.mem_filter.mp hr
    obtain ⟨hrow, hqueued⟩ := List.mem_filter.mp hrow
    refine decide_eq_true fun hid => ?_
    obtain rfl := w.table.eq_of_id_eq hmem hrow hid
    rw [hqueued] at hother
    cases hother

/-- **A row that is deleted is a batch of one** taken from the backlog. -/
theorem takesBatch_keep {t : Table} {row : Row} (hrow : row ∈ t.dueRows fw.channel now)
    (hold : ∀ r ∈ t.dueRows fw.channel now, row.Older r) :
    TakesBatch Row.Older 1 (t.dueRows fw.channel now) [row]
      ((t.keep fun r => r.id ≠ row.id).dueRows fw.channel now) := by
  have hnodup : (t.dueRows fw.channel now).Nodup := (List.Nodup.of_map Row.id t.nodup).filter _
  have hrest : (t.keep fun r => r.id ≠ row.id).dueRows fw.channel now =
      (t.dueRows fw.channel now).filter fun r => r.id ≠ row.id := Table.filter_rows_keep _
  rw [hrest]
  refine ⟨?_, ?_, ?_⟩
  · refine Table.perm_picked hnodup (List.nodup_singleton row) ?_ fun r hr => ?_
    · intro r hr
      rw [List.mem_singleton.mp hr]
      exact hrow
    · rw [List.mem_singleton, decide_eq_true_eq]
      refine not_congr ⟨fun hid => ?_, fun h => congrArg Row.id h⟩
      exact t.eq_of_id_eq (List.mem_filter.mp hr).1 (List.mem_filter.mp hrow).1 hid
  · intro a ha b hb
    rw [List.mem_singleton.mp ha]
    exact hold b (List.mem_of_mem_filter hb)
  · have hpos := List.length_pos_of_mem hrow
    rw [List.length_singleton]
    omega

/-- In a favourable cycle the peek goes by the backlog. -/
theorem found_eq {ω : ℕ → Input} (hω : fw.Favours t₀ now ω) (h : fw.Remains t₀ now w) :
    fw.found (fun n => ω (n + 1)) w =
      (orderBy Row.Older (ω 3).choice.order (w.table.dueRows fw.channel now)).head? := by
  have hdue : w.table.dueRows fw.channel (Prog.asI64 (ω 1).unixSeconds) =
      w.table.dueRows fw.channel now := by
    refine List.filter_congr fun r hr => ?_
    cases hchannel : r.inChannel fw.channel with
    | false => rw [Bool.false_and, Bool.false_and]
    | true =>
        rw [Bool.true_and, Bool.true_and]
        exact (hω 1).2 r (List.mem_filter.mpr ⟨h.sub r hr, hchannel⟩)
  show (orderBy Row.Older (ω 3).choice.order
    (w.table.dueRows fw.channel (Prog.asI64 (ω 1).unixSeconds))).head? = _
  rw [hdue]

/-- **A favourable cycle takes a batch** of the backlog and hands it out. -/
theorem exists_batch_of_cycle {ω : ℕ → Input} (hω : fw.Favours t₀ now ω)
    (hready : ∀ r ∈ t₀.dueRows fw.channel now, fw.Deliverable r) (h : fw.Remains t₀ now w) :
    let ex := fw.cycle.run (perform fw.db.ext) ω w
    ∃ batch, fw.Hands batch ex ∧ TakesBatch Row.Older 1 (w.table.dueRows fw.channel now) batch
      (ex.state.table.dueRows fw.channel now) ∧ fw.Remains t₀ now ex.state := by
  have hhealthy := fun n => (hω n).1
  have hpeek := found_eq hω h
  intro ex
  cases hfound : fw.found (fun n => ω (n + 1)) w with
  | none =>
      obtain ⟨hhands, htable, hunpaused⟩ := hands_cycle_nothing hhealthy h.unpaused hfound
      rw [hfound] at hpeek
      have hnil : w.table.dueRows fw.channel now = [] := by
        have hlength := length_orderBy Row.Older (ω 3).choice.order
          (w.table.dueRows fw.channel now)
        rw [List.head?_eq_none_iff.mp hpeek.symm] at hlength
        exact List.eq_nil_of_length_eq_zero hlength.symm
      refine ⟨[], hhands, ?_, hunpaused, ?_, ?_⟩
      · rw [htable, hnil]
        exact ⟨List.Perm.refl [], fun a ha => absurd ha List.not_mem_nil, rfl⟩
      · rw [htable]
        exact h.sub
      · rw [htable]
        exact h.others
  | some row =>
      rw [hfound] at hpeek
      have hrow : row ∈ w.table.dueRows fw.channel now :=
        (mem_orderBy _ _).mp (List.mem_of_mem_head? hpeek.symm)
      have hold : ∀ r ∈ w.table.dueRows fw.channel now, row.Older r := fun r hr =>
        rel_of_head?_orderBy Row.Older _ hpeek.symm hr
      obtain ⟨hmem, hqueued⟩ := List.mem_filter.mp hrow
      obtain ⟨hhands, htable, hunpaused⟩ := hands_cycle_found hhealthy h.unpaused hfound
        (hready row (List.mem_filter.mpr ⟨h.sub row hmem, hqueued⟩))
      refine ⟨[row], hhands, ?_, h.keep hrow htable hunpaused⟩
      rw [htable]
      exact takesBatch_keep hrow hold

/-- **The backlog is worked off.**  While the storage works, the target accepts and no further
webhook of the channel falls due, the cycles of a forwarder send the webhooks that are due one by
one, oldest first, and do not sleep before none is left.  Nothing else leaves the table. -/
theorem backlog_is_worked_off (fw : Forwarder) {now : ℤ} {w : World} {ωs : List (ℕ → Input)}
    (hωs : ∀ ω ∈ ωs, fw.Favours w.table now ω) (hunpaused : fw.Unpaused w)
    (hready : ∀ r ∈ w.table.dueRows fw.channel now, fw.Deliverable r) :
    let w' := fw.cycle.afterRounds (perform fw.db.ext) ωs w
    let backlog := w.table.dueRows fw.channel now
    ∃ batches, List.Forall₂ fw.Hands batches (fw.cycle.rounds (perform fw.db.ext) ωs w) ∧
      (∀ i batch, batches[i]? = some batch → batch.length = min 1 (backlog.length - i)) ∧
      batches.flatten.Pairwise Row.Older ∧
      (batches.flatten ++ w'.table.dueRows fw.channel now).Perm backlog ∧
      (backlog.length ≤ ωs.length → w'.table.dueRows fw.channel now = []) ∧
      fw.others now w'.table = fw.others now w.table := by
  intro w' backlog
  have hstart : fw.Remains w.table now w := ⟨hunpaused, fun r hr => hr, rfl⟩
  obtain ⟨batches, hhands, hdrains, hend⟩ := exists_drains_of_rounds (perform fw.db.ext)
    (fun v : World => v.table.dueRows fw.channel now)
    (fun ω v hω hv => exists_batch_of_cycle hω hready hv) hωs hstart
  have hlength : batches.length = ωs.length :=
    hhands.length_eq.trans (CallProgram.length_rounds _ _ _ _)
  refine ⟨batches, hhands, fun i batch hbatch => ?_, hdrains.pairwise_flatten, hdrains.perm,
    fun hall => hdrains.eq_nil ?_, hend.others⟩
  · rw [hdrains.length_batch hbatch, Nat.one_mul]
  · rw [hlength, Nat.one_mul]
    exact hall

/-- The target of the small service accepts everything. -/
theorem healthy_calm (secs : ℕ) : small.Healthy (Input.calm secs 200) := by
  refine ⟨rfl, fun webhook request _ => ⟨⟨200, [], .ok ""⟩, ?_, rfl⟩⟩
  have hsent : follow small.db.ext.redirects maxRedirects (Input.calm secs 200).answers
      request.onWire = (.ok ⟨200, [], .ok ""⟩, [⟨request.onWire, .ok ⟨200, [], .ok ""⟩⟩]) :=
    follow_last rfl rfl
  exact congrArg Prod.fst hsent

/-- A queue of so many webhooks, received one second after the other and never attempted. -/
def queued : ℕ → World
  | 0 => ⟨Table.empty, AppState.small.initialStatuses, []⟩
  | n + 1 =>
      { queued n with
        table := (queued n).table.insert
          ⟨.text "orders", .text "\x7b\x7d", .blob [123, 125], .int n⟩ }

theorem exists_of_mem_queued {n : ℕ} {r : Row} (hr : r ∈ (queued n).table.rows) :
    ∃ (id : ℤ) (m : ℕ), r = Row.inserted id
      ⟨.text "orders", .text "\x7b\x7d", .blob [123, 125], .int m⟩ := by
  induction n with
  | zero => cases hr
  | succ n ih =>
      rcases List.mem_append.mp hr with hr | hr
      · exact ih hr
      · exact ⟨_, n, List.mem_singleton.mp hr⟩

theorem length_queued (n : ℕ) : (queued n).table.rows.length = n := by
  induction n with
  | zero => rfl
  | succ n ih =>
      have hrows : (queued (n + 1)).table.rows.length = (queued n).table.rows.length + 1 :=
        List.length_append
      rw [hrows, ih]

/-- All of the queue is in the channel. -/
theorem inChannel_queued (n : ℕ) :
    (queued n).table.inChannel small.channel = (queued n).table.rows := by
  refine List.filter_eq_self.mpr fun r hr => ?_
  obtain ⟨id, m, rfl⟩ := exists_of_mem_queued hr
  rfl

/-- All of the queue is due, at any time. -/
theorem dueRows_queued (n : ℕ) (now : ℤ) :
    (queued n).table.dueRows small.channel now = (queued n).table.rows := by
  refine List.filter_eq_self.mpr fun r hr => ?_
  obtain ⟨id, m, rfl⟩ := exists_of_mem_queued hr
  rfl

theorem wellTyped_queued {n : ℕ} : ∀ r ∈ (queued n).table.rows, r.WellTyped := by
  intro r hr
  obtain ⟨id, m, rfl⟩ := exists_of_mem_queued hr
  exact Row.wellTyped_inserted _ _ _ _ _

theorem unpaused_queued (n : ℕ) : small.Unpaused (queued n) := by
  induction n with
  | zero => rfl
  | succ n ih => exact ih

/-- Three webhooks are queued.  The first three of four cycles deliver one each, the oldest
first, and the fourth one sleeps. -/
theorem backlog_is_worked_off_small :
    ∃ first second third, [first, second, third].Pairwise Row.Older ∧
      [first, second, third].Perm (queued 3).table.rows ∧
      List.Forall₂ small.Hands [[first], [second], [third], []]
        (small.cycle.rounds (perform small.db.ext)
          (List.replicate 4 fun _ => Input.calm 2000 200) (queued 3)) := by
  have hready : ∀ r ∈ (queued 3).table.dueRows small.channel (Prog.asI64 2000),
      small.Deliverable r := by
    intro r hr
    obtain ⟨webhook, hparse⟩ :=
      (wellTyped_queued r (List.mem_of_mem_filter hr)).exists_webhook small.db.ext
    exact ⟨webhook, _, hparse, rfl⟩
  have hfavours : ∀ ω ∈ List.replicate 4 (fun _ : ℕ => Input.calm 2000 200),
      small.Favours (queued 3).table (Prog.asI64 2000) ω := by
    intro ω hω n
    rw [List.eq_of_mem_replicate hω]
    exact ⟨healthy_calm 2000, fun _ _ => rfl⟩
  obtain ⟨batches, hhands, hlengths, hsorted, hperm, hnone, -⟩ :=
    backlog_is_worked_off small hfavours (unpaused_queued 3) hready
  rw [dueRows_queued, length_queued] at hlengths hnone
  rw [hnone (by simp), List.append_nil, dueRows_queued] at hperm
  have hfour := hhands.length_eq
  rw [CallProgram.length_rounds, List.length_replicate] at hfour
  match batches, hfour, hlengths with
  | [a, b, c, d], _, hlengths =>
      obtain ⟨first, rfl⟩ := List.length_eq_one_iff.mp (hlengths 0 a rfl)
      obtain ⟨second, rfl⟩ := List.length_eq_one_iff.mp (hlengths 1 b rfl)
      obtain ⟨third, rfl⟩ := List.length_eq_one_iff.mp (hlengths 2 c rfl)
      obtain rfl := List.eq_nil_of_length_eq_zero (hlengths 3 d rfl)
      exact ⟨first, second, third, hsorted, hperm, hhands⟩

end Forwarder

/-! ## Polls -/

namespace AppState

variable (state : AppState)

/-- **What a poll answers**: the webhooks of the rows, each one read. -/
def AnswersWith (batch : List Row) (ex : Executed HttpResponse) : Prop :=
  ∃ webhooks, List.Forall₂ (fun row webhook => parseWebhookRow state.db.ext row = some webhook)
      batch webhooks ∧
    ex.outcome = .done ⟨200, [], .webhooks (webhooks.map state.webhookDto)⟩

/-- The rows of the other channels. -/
def elsewhere (channel : WebhookChannel) (t : Table) : List Row :=
  t.rows.filter fun r => !r.inChannel channel

variable {state} {channel : String} {headers : HeaderMap} {w : World}

/-- A destructive read takes a batch of the channel. -/
theorem takesBatch_readAndDelete (t : Table) (choice : ScanChoice) :
    let q : Query := .readAndDeleteByChannel channel Sqlite.readLimit
    TakesBatch Row.Older 1000 (t.inChannel channel) (q.execute choice t).1
      ((q.execute choice t).2.inChannel channel) := by
  intro q
  have hlimit : (0 : ℤ) ≤ Sqlite.readLimit := by decide
  have hnodup : (t.inChannel channel).Nodup := (List.Nodup.of_map Row.id t.nodup).filter _
  let picked := t.picked choice channel Sqlite.readLimit
  have hperm : (q.execute choice t).1.Perm picked := choice.returning.perm picked
  have hleft : ∀ r ∈ (q.execute choice t).2.inChannel channel,
      r ∈ t.inChannel channel ∧ r ∉ picked := by
    intro r hr
    obtain ⟨hrow, hchannel⟩ := List.mem_filter.mp hr
    obtain ⟨hmem, hnot⟩ := mem_rows_readAndDelete.mp hrow
    exact ⟨List.mem_filter.mpr ⟨hmem, hchannel⟩, hnot⟩
  refine ⟨?_, ?_, ?_⟩
  · have hrest : (q.execute choice t).2.inChannel channel =
        (t.inChannel channel).filter fun r => r.id ∉ picked.map Row.id := Table.filter_rows_keep _
    rw [hrest]
    refine Table.perm_picked hnodup (hperm.nodup_iff.mpr nodup_picked) ?_ fun r hr => ?_
    · exact fun r hr => t.mem_of_mem_picked (hperm.mem_iff.mp hr)
    · rw [decide_eq_true_eq, hperm.mem_iff, not_iff_not, List.mem_map]
      refine ⟨?_, fun hmem => ⟨r, hmem, rfl⟩⟩
      rintro ⟨r', hr', hid⟩
      have hrow' := List.mem_of_mem_filter (t.mem_of_mem_picked hr')
      exact t.eq_of_id_eq hrow' (List.mem_of_mem_filter hr) hid ▸ hr'
  · intro a ha b hb
    exact older_of_picked_of_left hlimit (hperm.mem_iff.mp ha) (hleft b hb).1 (hleft b hb).2
  · rw [hperm.length_eq]
    exact length_picked hlimit

/-- A poll whose statement succeeds answers with what it took. -/
theorem run_readWebhooksRoute (hauthorized : state.authorize headers channel = .ok ())
    (htyped : ∀ r ∈ w.table.rows, r.WellTyped) {ω : ℕ → Input} (hω : ∀ n, (ω n).fault = none) :
    let ex := (state.readWebhooksRoute channel headers).run (perform state.db.ext) ω w
    let q : Query := .readAndDeleteByChannel channel Sqlite.readLimit
    state.AnswersWith (q.execute (ω 1).choice w.table).1 ex ∧
      ex.state.table = (q.execute (ω 1).choice w.table).2 := by
  intro ex q
  have hrun : ex = ⟨.done ⟨200, [], .webhooks (((q.execute (ω 1).choice w.table).1.filterMap
      (parseWebhookRow state.db.ext)).map state.webhookDto)⟩,
      { w with table := (q.execute (ω 1).choice w.table).2 },
      [⟨.instantNow, (ω 0).instant⟩, ⟨.sql q, .ok (q.execute (ω 1).choice w.table).1⟩]⟩ := by
    unfold ex readWebhooksRoute
    rw [authorizeInPlace_eq, hauthorized]
    simp only [orRespond, pollFor, Sqlite.readAndDeleteWebhooks,
      Sqlite.readAndDeleteByChannel, CallProgram.bind_eq]
    rw [CallProgram.run_bind, run_statement_of_fault_eq_none (hω 1)]
    rfl
  rw [hrun]
  refine ⟨⟨_, forall₂_filterMap_parse fun r hr => htyped r ?_, rfl⟩, rfl⟩
  exact List.mem_of_mem_filter (w.table.mem_of_mem_picked ((Shuffle.mem_order _).mp hr))

/-- **A poll takes a batch** of its channel and answers with it. -/
theorem exists_batch_of_poll (hauthorized : state.authorize headers channel = .ok ()) {t₀ : Table}
    (ω : ℕ → Input) (w : World) (hω : ∀ n, (ω n).fault = none)
    (hw : (∀ r ∈ w.table.rows, r.WellTyped) ∧ elsewhere channel w.table = elsewhere channel t₀) :
    let ex := (state.readWebhooksRoute channel headers).run (perform state.db.ext) ω w
    ∃ batch, state.AnswersWith batch ex ∧
      TakesBatch Row.Older 1000 (w.table.inChannel channel) batch
        (ex.state.table.inChannel channel) ∧
        (∀ r ∈ ex.state.table.rows, r.WellTyped) ∧
          elsewhere channel ex.state.table = elsewhere channel t₀ := by
  obtain ⟨htyped, helsewhere⟩ := hw
  obtain ⟨hanswer, htable⟩ := run_readWebhooksRoute hauthorized htyped hω
  dsimp only
  rw [htable, ← helsewhere]
  exact ⟨_, hanswer, takesBatch_readAndDelete _ _, Query.wellTyped_execute htyped,
    filter_not_inChannel_readAndDelete⟩

/-- **Polls drain a channel.**  While the storage works, polls of a channel that come one after the
other hand out all that is stored there, a thousand webhooks at a time, the oldest batch first, and
touch nothing else. -/
theorem polls_drain_the_channel (state : AppState)
    (hauthorized : state.authorize headers channel = .ok ())
    (htyped : ∀ r ∈ w.table.rows, r.WellTyped) {ωs : List (ℕ → Input)}
    (hωs : ∀ ω ∈ ωs, ∀ n, (ω n).fault = none) :
    let poll := state.readWebhooksRoute channel headers
    let w' := poll.afterRounds (perform state.db.ext) ωs w
    let stored := w.table.inChannel channel
    ∃ batches, List.Forall₂ state.AnswersWith batches (poll.rounds (perform state.db.ext) ωs w) ∧
      (∀ i batch, batches[i]? = some batch → batch.length = min 1000 (stored.length - 1000 * i)) ∧
      (batches.Pairwise fun batch batch' => ∀ a ∈ batch, ∀ b ∈ batch', a.Older b) ∧
      (batches.flatten ++ w'.table.inChannel channel).Perm stored ∧
      (stored.length ≤ 1000 * ωs.length → w'.table.inChannel channel = []) ∧
      elsewhere channel w'.table = elsewhere channel w.table := by
  intro poll w' stored
  obtain ⟨batches, hanswers, hdrains, -, hend⟩ := exists_drains_of_rounds (perform state.db.ext)
    (fun v : World => v.table.inChannel channel) (exists_batch_of_poll hauthorized) hωs
    ⟨htyped, rfl⟩
  have hlength : batches.length = ωs.length :=
    hanswers.length_eq.trans (CallProgram.length_rounds _ _ _ _)
  refine ⟨batches, hanswers, fun i batch hbatch => hdrains.length_batch hbatch, hdrains.ordered,
    hdrains.perm, fun hall => hdrains.eq_nil ?_, hend⟩
  rw [hlength]
  exact hall

/-- Of two and a half thousand webhooks the first two polls hand out a thousand each, the older
ones first, and the third one hands out the rest. -/
theorem polls_drain_the_channel_small :
    ∃ first second third : List Row,
      [first, second, third].map List.length = [1000, 1000, 500] ∧
      List.Forall₂ small.AnswersWith [first, second, third]
        ((small.readWebhooksRoute "orders" .small).rounds (perform small.db.ext)
          (List.replicate 3 fun _ => Input.calm 3000 200) (Forwarder.queued 2500)) ∧
      ([first, second, third].Pairwise fun batch batch' =>
        ∀ a ∈ batch, ∀ b ∈ batch', a.Older b) ∧
      (first ++ (second ++ third)).Perm (Forwarder.queued 2500).table.rows := by
  have hcalm : ∀ ω ∈ List.replicate 3 (fun _ : ℕ => Input.calm 3000 200), ∀ n,
      (ω n).fault = none := by
    intro ω hω n
    rw [List.eq_of_mem_replicate hω]
    rfl
  obtain ⟨batches, hanswers, hlengths, hordered, hperm, hnone, -⟩ :=
    polls_drain_the_channel small authorize_small Forwarder.wellTyped_queued hcalm
  have hchannel := Forwarder.inChannel_queued 2500
  rw [show Forwarder.small.channel = "orders" from rfl] at hchannel
  rw [hchannel, Forwarder.length_queued] at hlengths hnone
  rw [hnone (by simp), List.append_nil, hchannel] at hperm
  have hthree := hanswers.length_eq
  rw [CallProgram.length_rounds, List.length_replicate] at hthree
  match batches, hthree, hlengths with
  | [first, second, third], _, hlengths =>
      have hfirst := hlengths 0 first rfl
      have hsecond := hlengths 1 second rfl
      have hthird := hlengths 2 third rfl
      refine ⟨first, second, third, ?_, hanswers, hordered, by simpa using hperm⟩
      simp only [List.map_cons, List.map_nil, hfirst, hsecond, hthird]
      decide

end AppState
