/-
# Destructive polling

A poll removes the oldest rows of its channel, at most a thousand of them, and returns
the webhooks it removed.  No webhook is returned twice: the rows a poll removed are gone,
and no id is given out again.
-/
import KaimanWebhooks.Ledger

/-! ## The statement -/

section Statement

variable {t : Table} {choice : ScanChoice} {channel : WebhookChannel} {limit : ℤ}

/-- A destructive read takes as many rows as there are, up to its limit. -/
theorem length_picked (hlimit : 0 ≤ limit) :
    (t.picked choice channel limit).length = min limit.toNat (t.inChannel channel).length := by
  unfold Table.picked limitRows
  rw [if_neg (by omega), List.length_take, length_orderBy]

theorem nodup_picked : (t.picked choice channel limit).Nodup := by
  have hrows : (t.inChannel channel).Nodup := (List.Nodup.of_map Row.id t.nodup).filter _
  have hscan : (orderBy Row.Older choice.order (t.inChannel channel)).Nodup :=
    (orderBy_perm _ _ _).nodup_iff.mpr hrows
  unfold Table.picked limitRows
  split
  · exact hscan
  · exact hscan.sublist (List.take_sublist _ _)

/-- What a destructive read leaves of a table is what it did not pick. -/
theorem mem_rows_readAndDelete {r : Row} :
    r ∈ ((Query.readAndDeleteByChannel channel limit).execute choice t).2.rows ↔
      r ∈ t.rows ∧ r ∉ t.picked choice channel limit := by
  unfold Query.execute
  rw [Table.mem_rows_keep]
  refine and_congr_right fun hr => ?_
  rw [decide_eq_true_eq, not_iff_not, List.mem_map]
  constructor
  · rintro ⟨r', hr', hid⟩
    have hmem := List.mem_of_mem_filter (t.mem_of_mem_picked hr')
    exact t.eq_of_id_eq hmem hr hid ▸ hr'
  · exact fun hpicked => ⟨r, hpicked, rfl⟩

/-- A destructive read leaves the rows of the other channels alone. -/
theorem filter_not_inChannel_readAndDelete :
    ((Query.readAndDeleteByChannel channel limit).execute choice t).2.rows.filter
        (fun r => !r.inChannel channel) = t.rows.filter fun r => !r.inChannel channel := by
  show (t.rows.filter _).filter _ = _
  rw [List.filter_filter]
  refine List.filter_congr fun r hr => ?_
  cases hchannel : r.inChannel channel with
  | true => rfl
  | false =>
      have hpicked : r.id ∉ (t.picked choice channel limit).map Row.id := by
        intro hid
        obtain ⟨r', hr', hid'⟩ := List.mem_map.mp hid
        obtain ⟨hrow', hchannel'⟩ := List.mem_filter.mp (t.mem_of_mem_picked hr')
        obtain rfl := t.eq_of_id_eq hrow' hr hid'
        cases hchannel.symm.trans hchannel'
      simpa using hpicked

/-- **Oldest first**: a row of the channel that was left behind is not older than one that
was picked. -/
theorem older_of_picked_of_left (hlimit : 0 ≤ limit) {r r' : Row}
    (hr : r ∈ t.picked choice channel limit) (hr' : r' ∈ t.inChannel channel)
    (hleft : r' ∉ t.picked choice channel limit) : r.Older r' := by
  unfold Table.picked limitRows at hr hleft
  rw [if_neg (by omega)] at hr hleft
  have hscan : r' ∈ orderBy Row.Older choice.order (t.inChannel channel) :=
    (mem_orderBy _ _).mpr hr'
  rw [← List.take_append_drop limit.toNat (orderBy _ _ _), List.mem_append] at hscan
  exact rel_of_mem_take_of_mem_drop Row.Older choice.order hr (hscan.resolve_left hleft)

end Statement

/-! ## Polls of a run -/

/-- The channel a poll is about and the webhooks it returns. -/
def pollOf (ext : External) : DoneCall → Option (WebhookChannel × List Webhook)
  | ⟨.sql (.readAndDeleteByChannel channel _), .ok rows⟩ =>
      some (channel, rows.filterMap (parseWebhookRow ext))
  | _ => none

/-- The rows an entry took out of the table. -/
def removedRows (e : ServiceEntry) : List Row :=
  e.before.table.rows.filter fun r => r ∉ e.after.table.rows

/-- **What a poll owes**: it returns the webhooks of the rows it removed, each of them once,
all of its channel, as many as there are up to a thousand, none younger than one it leaves
behind; and it leaves the rows of the other channels alone. -/
structure HandsOut (ext : External) (e : ServiceEntry) (channel : WebhookChannel)
    (webhooks : List Webhook) : Prop where
  removed : ∃ rows : List Row, rows.Perm (removedRows e) ∧
    List.Forall₂ (fun row webhook => parseWebhookRow ext row = some webhook) rows webhooks
  nodup : (webhooks.map Webhook.id).Nodup
  ofChannel : ∀ webhook ∈ webhooks, webhook.channel = channel
  count : webhooks.length = min 1000 (e.before.table.inChannel channel).length
  oldest : ∀ webhook ∈ webhooks, ∀ row ∈ e.after.table.inChannel channel,
    ∃ receivedAt, row.receivedAt = .int receivedAt ∧ webhook.receivedAt ≤ receivedAt
  others : e.after.table.rows.filter (fun r => !r.inChannel channel) =
    e.before.table.rows.filter (fun r => !r.inChannel channel)

/-- Rows that can all be read are read one by one. -/
theorem forall₂_filterMap_parse {ext : External} {rows : List Row} (h : ∀ r ∈ rows, r.WellTyped) :
    List.Forall₂ (fun row webhook => parseWebhookRow ext row = some webhook) rows
      (rows.filterMap (parseWebhookRow ext)) := by
  induction rows with
  | nil => exact List.Forall₂.nil
  | cons row rows ih =>
      obtain ⟨webhook, hread⟩ := (h row List.mem_cons_self).exists_webhook ext
      rw [List.filterMap_cons, hread]
      exact List.Forall₂.cons hread (ih fun r hr => h r (List.mem_cons_of_mem _ hr))

/-- The ids of webhooks that were read one by one are those of the rows. -/
theorem map_id_of_forall₂ {ext : External} {rows : List Row} {webhooks : List Webhook}
    (h : List.Forall₂ (fun row webhook => parseWebhookRow ext row = some webhook) rows webhooks) :
    webhooks.map Webhook.id = rows.map fun r => some r.id := by
  induction h with
  | nil => rfl
  | cons hread _ ih => rw [List.map_cons, List.map_cons, ih, (parseWebhookRow_eq_some hread).1]

/-- The rows a poll removed are the ones it picked. -/
theorem perm_removedRows {e : ServiceEntry} {picked : List Row} (hpicked : picked.Nodup)
    (hmem : ∀ r ∈ picked, r ∈ e.before.table.rows)
    (hleft : ∀ r, r ∈ e.after.table.rows ↔ r ∈ e.before.table.rows ∧ r ∉ picked) :
    picked.Perm (removedRows e) := by
  have hbefore : e.before.table.rows.Nodup := List.Nodup.of_map Row.id e.before.table.nodup
  apply (List.perm_ext_iff_of_nodup hpicked (hbefore.filter _)).mpr
  intro r
  rw [List.mem_filter, decide_eq_true_eq, hleft r]
  constructor
  · intro hr
    exact ⟨hmem r hr, fun h => h.2 hr⟩
  · rintro ⟨hr, hgone⟩
    by_contra hnot
    exact hgone ⟨hr, hnot⟩

/-- **One poll.**  An entry that executed a destructive read of a thousand rows on a table
of well-typed rows hands them out. -/
theorem handsOut_of_execute {ext : External} {e : ServiceEntry} {choice : ScanChoice}
    {channel : WebhookChannel} (htyped : ∀ r ∈ e.before.table.rows, r.WellTyped)
    (hafter : e.after = { e.before with
      table := ((Query.readAndDeleteByChannel channel 1000).execute choice e.before.table).2 }) :
    HandsOut ext e channel (((Query.readAndDeleteByChannel channel 1000).execute choice
      e.before.table).1.filterMap (parseWebhookRow ext)) := by
  let picked := e.before.table.picked choice channel 1000
  let rows := choice.returning.order picked
  show HandsOut ext e channel (rows.filterMap (parseWebhookRow ext))
  have hmem : ∀ r ∈ rows, r ∈ e.before.table.inChannel channel := fun r hr =>
    e.before.table.mem_of_mem_picked ((Shuffle.mem_order _).mp hr)
  have hleft : ∀ r, r ∈ e.after.table.rows ↔ r ∈ e.before.table.rows ∧ r ∉ picked := by
    intro r
    rw [hafter]
    exact mem_rows_readAndDelete
  have hread : List.Forall₂ (fun row webhook => parseWebhookRow ext row = some webhook) rows
      (rows.filterMap (parseWebhookRow ext)) :=
    forall₂_filterMap_parse fun r hr => htyped r (List.mem_of_mem_filter (hmem r hr))
  have hnodup : rows.Nodup := (choice.returning.perm picked).nodup_iff.mpr nodup_picked
  refine ⟨⟨rows, ?_, hread⟩, ?_, ?_, ?_, ?_, ?_⟩
  · exact perm_removedRows hnodup (fun r hr => List.mem_of_mem_filter (hmem r hr)) fun r => by
      rw [hleft r, Shuffle.mem_order]
  · rw [map_id_of_forall₂ hread]
    refine hnodup.map_on fun r hr r' hr' hid => ?_
    exact e.before.table.eq_of_id_eq (List.mem_of_mem_filter (hmem r hr))
      (List.mem_of_mem_filter (hmem r' hr')) (Option.some.inj hid)
  · intro webhook hwebhook
    obtain ⟨r, hr, hparse⟩ := List.mem_filterMap.mp hwebhook
    have hchannel : r.channel = .text channel := by
      simpa [Row.inChannel] using (List.mem_filter.mp (hmem r hr)).2
    exact SqlValue.text.inj ((parseWebhookRow_eq_some hparse).2.1.symm.trans hchannel)
  · rw [← hread.length_eq, Shuffle.length_order]
    have hlimit : (0 : ℤ) ≤ 1000 := by omega
    exact length_picked hlimit
  · intro webhook hwebhook r' hr'
    obtain ⟨r, hr, hparse⟩ := List.mem_filterMap.mp hwebhook
    obtain ⟨hrow', hchannel'⟩ := List.mem_filter.mp hr'
    obtain ⟨hbefore', hgone⟩ := (hleft r').mp hrow'
    obtain ⟨receivedAt, hreceived⟩ := (htyped r' hbefore').receivedAt
    refine ⟨receivedAt, hreceived, ?_⟩
    have hlimit : (0 : ℤ) ≤ 1000 := by omega
    have hold : r.Older r' := older_of_picked_of_left hlimit ((Shuffle.mem_order _).mp hr)
      (List.mem_filter.mpr ⟨hbefore', hchannel'⟩) hgone
    unfold Row.Older at hold
    rw [hreceived, (parseWebhookRow_eq_some hparse).2.2.2.2.1, SqlValue.le_int] at hold
    exact of_decide_eq_true hold
  · rw [hafter]
    exact filter_not_inChannel_readAndDelete

/-! ## No webhook twice -/

/-- The webhooks an entry's poll returned and those of another entry's poll have different
ids. -/
def NoneShared (ext : External) (e e' : ServiceEntry) : Prop :=
  ∀ channel webhooks channel' webhooks', pollOf ext e.done = some (channel, webhooks) →
    pollOf ext e'.done = some (channel', webhooks') →
      ∀ w ∈ webhooks, ∀ w' ∈ webhooks', w.id ≠ w'.id

/-- A poll's entry executed its statement. -/
theorem Performed.exists_of_pollOf {ext : External} {e : ServiceEntry} (h : Performed ext e)
    {channel : WebhookChannel} {webhooks : List Webhook}
    (hpoll : pollOf ext e.done = some (channel, webhooks)) :
    ∃ limit choice, e.call = .sql (.readAndDeleteByChannel channel limit) ∧
      webhooks = ((Query.readAndDeleteByChannel channel limit).execute choice
        e.before.table).1.filterMap (parseWebhookRow ext) ∧
      e.after = { e.before with
        table :=
          ((Query.readAndDeleteByChannel channel limit).execute choice e.before.table).2 } := by
  rcases h.cases with ⟨-, hquiet⟩ | ⟨q, choice, hdone, hafter⟩
  · unfold pollOf at hpoll
    split at hpoll
    · rename_i hd
      exact absurd hd (hquiet _ _)
    · cases hpoll
  · rw [hdone] at hpoll
    cases q with
    | readAndDeleteByChannel channel' limit =>
        cases hpoll
        exact ⟨limit, choice, congrArg Sigma.fst hdone, rfl, hafter⟩
    | _ => cases hpoll

/-- A webhook a poll returned was read from a row that was there before and is gone after. -/
theorem Performed.exists_row_of_pollOf {ext : External} {e : ServiceEntry} (h : Performed ext e)
    {channel : WebhookChannel} {webhooks : List Webhook}
    (hpoll : pollOf ext e.done = some (channel, webhooks)) {w : Webhook} (hw : w ∈ webhooks) :
    ∃ r ∈ e.before.table.rows, w.id = some r.id ∧ IsSpent e.after.table r.id := by
  obtain ⟨limit, choice, -, rfl, hafter⟩ := h.exists_of_pollOf hpoll
  obtain ⟨r, hr, hparse⟩ := List.mem_filterMap.mp hw
  have hpicked : r ∈ e.before.table.picked choice channel limit := (Shuffle.mem_order _).mp hr
  have hbefore : r ∈ e.before.table.rows :=
    List.mem_of_mem_filter (e.before.table.mem_of_mem_picked hpicked)
  refine ⟨r, hbefore, (parseWebhookRow_eq_some hparse).1, ?_, ?_⟩
  · rw [hafter]
    exact e.before.table.le_seq r hbefore
  · intro r' hr' hid
    rw [hafter] at hr'
    obtain ⟨hr', hleft⟩ := mem_rows_readAndDelete.mp hr'
    rw [e.before.table.eq_of_id_eq hr' hbefore hid] at hleft
    exact hleft hpicked

/-- The webhooks polled along a run: all different, all gone. -/
structure PolledOnce (ext : External) (s : ServiceState) : Prop where
  spent : ∀ e ∈ s.history, ∀ channel webhooks, pollOf ext e.done = some (channel, webhooks) →
    ∀ w ∈ webhooks, ∃ id, w.id = some id ∧ IsSpent s.shared.table id
  disjoint : s.history.Pairwise (NoneShared ext)

namespace AppState

variable {state : AppState} {ok : ServiceState → ServiceEvent → Prop} {s : ServiceState}

/-- What a poll of the history returned is gone for good. -/
theorem isSpent_of_pollOf (h : state.machine.Reaches ok state.initial s) {e : ServiceEntry}
    (he : e ∈ s.history) {channel : WebhookChannel} {webhooks : List Webhook}
    (hpoll : pollOf state.db.ext e.done = some (channel, webhooks)) {w : Webhook}
    (hw : w ∈ webhooks) : ∃ id, w.id = some id ∧ IsSpent s.shared.table id := by
  obtain ⟨r, -, hid, hspent⟩ := (performed_of_mem_history h he).exists_row_of_pollOf hpoll hw
  exact ⟨r.id, hid, isSpent_of_mem_history h he hspent⟩

theorem polledOnce_of_reaches (h : state.machine.Reaches ok state.initial s) :
    PolledOnce state.db.ext s where
  spent _ he _ _ hpoll _ hw := isSpent_of_pollOf h he hpoll hw
  disjoint := by
    refine h.pairwise_history rfl ?_
    intro s₁ n i t c k hreach _ _ _ e' he' channel webhooks channel' webhooks' hpoll hpoll' w hw
      w' hw' hid
    have hperformed : Performed state.db.ext (state.machine.entry s₁ n t c i) := ⟨i, rfl⟩
    obtain ⟨r, hr, hrid, -⟩ := hperformed.exists_row_of_pollOf hpoll hw
    obtain ⟨id, hid', hspent⟩ := isSpent_of_pollOf hreach he' hpoll' hw'
    -- the row is still there, and its id is spent
    apply hspent.2 r hr
    exact Option.some.inj (hrid.symm.trans (hid.trans hid'))

/-- Every poll of a run hands out what it removed. -/
theorem handsOut_of_pollOf (h : state.machine.Reaches ok state.initial s) {e : ServiceEntry}
    (he : e ∈ s.history) {channel : WebhookChannel} {webhooks : List Webhook}
    (hpoll : pollOf state.db.ext e.done = some (channel, webhooks)) :
    HandsOut state.db.ext e channel webhooks := by
  obtain ⟨limit, choice, hcall, rfl, hafter⟩ :=
    (performed_of_mem_history h he).exists_of_pollOf hpoll
  obtain ⟨past, hprotocol, -⟩ := protocol_of_mem_history h he
  rw [hcall] at hprotocol
  obtain rfl : limit = 1000 := hprotocol.1
  exact handsOut_of_execute (fun r hr => (stored_of_mem_before h he hr).2) hafter

/-- A poll that answered 200 answered with the webhooks its statement returned. -/
theorem exists_pollOf_of_response (h : state.machine.Reaches ok state.initial s) {n : ℕ}
    {t : ServiceTask} (ht : s.tasks[n]? = some t) {channel : WebhookChannel} {headers : HeaderMap}
    (hjob : t.job = .request (.poll channel headers)) {resp : HttpResponse}
    (hrest : t.rest = .pure (some resp)) (hstatus : resp.status = 200) :
    ∃ e ∈ s.history, e.task = n ∧ ∃ webhooks,
      pollOf state.db.ext e.done = some (channel, webhooks) ∧
        resp.body = .webhooks (webhooks.map state.webhookDto) := by
  have hreturned := h.returned_allowed rfl start_obeys (List.mem_of_getElem? ht) hrest
  rw [hjob] at hreturned
  obtain ⟨rows, hrows, rfl⟩ := hreturned.2 channel headers resp rfl rfl hstatus
  obtain ⟨e, he, htask, -, hdone⟩ := h.pastsRecorded rfl n t _ ht hrows
  refine ⟨e, he, htask, rows.filterMap (parseWebhookRow state.db.ext), ?_, rfl⟩
  rw [hdone]
  rfl

/-- **Destructive polling hands out each webhook exactly once**, in every state of every run:
what each poll returned is what it removed, no two polls returned the same webhook, and a
poll answered 200 with just those webhooks. -/
theorem polls_hand_out_exactly_once (state : AppState) {s : ServiceState}
    (h : state.machine.Reaches (fun _ _ => True) state.initial s) :
    (∀ e ∈ s.history, ∀ channel webhooks, pollOf state.db.ext e.done = some (channel, webhooks) →
      HandsOut state.db.ext e channel webhooks) ∧
    s.history.Pairwise (NoneShared state.db.ext) ∧
    ∀ n t channel headers resp, s.tasks[n]? = some t → t.job = .request (.poll channel headers) →
      t.rest = .pure (some resp) → resp.status = 200 →
        ∃ e ∈ s.history, e.task = n ∧ ∃ webhooks,
          pollOf state.db.ext e.done = some (channel, webhooks) ∧
            resp.body = .webhooks (webhooks.map state.webhookDto) :=
  ⟨fun _ he _ _ hpoll => handsOut_of_pollOf h he hpoll, (polledOnce_of_reaches h).disjoint,
    fun _ _ _ _ _ ht hjob hrest hstatus => exists_pollOf_of_response h ht hjob hrest hstatus⟩

/-- Two webhooks are received and two polls of their channel start; one of them reads, a third
webhook comes in, and the other one reads. -/
def pollEvents : List ServiceEvent :=
  ServiceEvent.task (.request .small) 0 (List.replicate 3 (Input.calm 1000 200)) ++
    ServiceEvent.task (.request .small) 1 (List.replicate 3 (Input.calm 1001 200)) ++
    [.spawn (.request (.poll "orders" .small)), .spawn (.request (.poll "orders" .small)),
      .advance 2 (Input.calm 1002 200), .advance 3 (Input.calm 1002 200),
      .advance 3 (Input.calm 1002 200)] ++
    ServiceEvent.task (.request .small) 4 (List.replicate 3 (Input.calm 1003 200)) ++
    [.advance 2 (Input.calm 1004 200)]

/-- The first poll to read takes the two webhooks that are there, and the other one takes the
one that came in between. -/
theorem polls_hand_out_exactly_once_small :
    ∃ s : ServiceState,
      (s.history.filterMap fun e => (pollOf External.plain e.done).map fun p =>
        p.2.map Webhook.id) = [[some 3], [some 1, some 2]] ∧
      answeredStatuses s = [200, 200, 200, 200, 200] ∧
      (∀ e ∈ s.history, ∀ channel webhooks,
        pollOf External.plain e.done = some (channel, webhooks) →
          HandsOut External.plain e channel webhooks) ∧
      s.history.Pairwise (NoneShared External.plain) ∧
      ∀ n t channel headers resp, s.tasks[n]? = some t →
        t.job = .request (.poll channel headers) → t.rest = .pure (some resp) →
          resp.status = 200 → ∃ e ∈ s.history, e.task = n ∧ ∃ webhooks,
            pollOf External.plain e.done = some (channel, webhooks) ∧
              resp.body = .webhooks (webhooks.map small.webhookDto) := by
  have hrun : ∃ s, small.machine.runEvents small.initial pollEvents = some s ∧
      (s.history.filterMap fun e => (pollOf External.plain e.done).map fun p =>
        p.2.map Webhook.id) = [[some 3], [some 1, some 2]] ∧
      answeredStatuses s = [200, 200, 200, 200, 200] := by
    decide +kernel
  obtain ⟨s, hs, hpolled, hanswered⟩ := hrun
  have hreaches : small.machine.Reaches (fun _ _ => True) small.initial s :=
    TaskMachine.reaches_of_runEvents hs fun _ _ _ => trivial
  obtain ⟨hhands, hdisjoint, hanswers⟩ := polls_hand_out_exactly_once small hreaches
  exact ⟨s, hpolled, hanswered, hhands, hdisjoint, hanswers⟩

end AppState
