/-
# What the queue view promises

The view of a queue lists its webhooks and reports one time for all of them: the soonest of
their due times, or none when one of them is due at any time.  The forwarder asks the database
instead, with a rule of its own for rows without a due time.  The two agree at every moment:
from the view one can tell when a peek will find a webhook.
-/
import KaimanWebhooks.Attempts
import KaimanWebhooks.Authorization
import KaimanWebhooks.Polling

/-! ## The soonest of many times -/

theorem List.mapM_id_of_none_mem {α : Type} {l : List (Option α)} (h : none ∈ l) :
    l.mapM id = none := by
  induction l with
  | nil => cases h
  | cons o l ih =>
      rw [List.mapM_cons]
      cases o with
      | none => rfl
      | some a =>
          rw [ih ((List.mem_cons.mp h).resolve_left (by simp))]
          rfl

theorem List.mapM_id_map_some {α : Type} (l : List α) : (l.map some).mapM id = some l := by
  induction l with
  | nil => rfl
  | cons a l ih =>
      rw [List.map_cons, List.mapM_cons, ih]
      rfl

theorem List.exists_eq_map_some {α : Type} {l : List (Option α)} (h : none ∉ l) :
    ∃ r : List α, l = r.map some := by
  induction l with
  | nil => exact ⟨[], rfl⟩
  | cons o l ih =>
      obtain ⟨r, rfl⟩ := ih fun hmem => h (List.mem_cons_of_mem _ hmem)
      cases o with
      | none => exact absurd List.mem_cons_self h
      | some a => exact ⟨a :: r, rfl⟩

/-- **One time stands for many.**  The soonest of some due times, which is missing as soon as
one of them is, has come exactly when one of them has come or is missing. -/
theorem exists_due_iff (times : List (Option ℤ)) (now : ℤ) :
    (∃ time ∈ times, ∀ due, time = some due → due ≤ now) ↔
      times ≠ [] ∧ ∀ due, (times.mapM id).bind List.min? = some due → due ≤ now := by
  -- one missing time hides all others, and is one that has come
  by_cases hnone : none ∈ times
  · rw [List.mapM_id_of_none_mem hnone]
    exact ⟨fun _ => ⟨List.ne_nil_of_mem hnone, fun _ h => by cases h⟩,
      fun _ => ⟨none, hnone, fun _ h => by cases h⟩⟩
  · obtain ⟨dues, rfl⟩ := List.exists_eq_map_some hnone
    rw [List.mapM_id_map_some, Option.bind_some]
    constructor
    · rintro ⟨time, htime, hdue⟩
      refine ⟨List.ne_nil_of_mem htime, fun soonest hsoonest => ?_⟩
      obtain ⟨due, hmem, rfl⟩ := List.mem_map.mp htime
      exact ((List.min?_eq_some_iff.mp hsoonest).2 due hmem).trans (hdue due rfl)
    · rintro ⟨hne, hdue⟩
      have hdues : dues ≠ [] := by
        rintro rfl
        exact hne rfl
      obtain ⟨soonest, hsoonest⟩ :=
        Option.isSome_iff_exists.mp (List.isSome_min?_of_ne_nil hdues)
      refine ⟨some soonest, List.mem_map.mpr ⟨soonest, (List.min?_eq_some_iff.mp hsoonest).1, rfl⟩,
        fun due heq => ?_⟩
      exact Option.some.inj heq ▸ hdue soonest hsoonest

/-! ## Rows, webhooks and items -/

/-- The due time of a webhook is that of its row. -/
theorem isDue_iff_of_parse {ext : External} {row : Row} {webhook : Webhook}
    (h : parseWebhookRow ext row = some webhook) (now : ℤ) :
    row.isDue now = true ↔ ∀ due, webhook.nextAttemptAt = some due → due ≤ now := by
  have hcell : decodeOption (decodeInt "next_attempt_at") row.nextAttemptAt =
      .ok webhook.nextAttemptAt := by
    have hread := readWebhookRow_of_parseWebhookRow h
    simp only [readWebhookRow, Except.bind_eq_ok] at hread
    obtain ⟨_, -, _, -, _, -, _, -, _, -, _, -, _, -, next, hnext, hwebhook⟩ := hread
    cases hwebhook
    exact hnext
  unfold Row.isDue
  cases hvalue : row.nextAttemptAt with
  | null =>
      rw [hvalue] at hcell
      have hnone : webhook.nextAttemptAt = none := (Except.ok.inj hcell).symm
      simp [hnone]
  | int next =>
      rw [hvalue] at hcell
      have hsome : webhook.nextAttemptAt = some next := (Except.ok.inj hcell).symm
      simp [hsome]
  | real _ | text _ | blob _ =>
      -- a row with such a cell is not read
      rw [hvalue] at hcell
      cases hcell

namespace AppState

variable (state : AppState)

/-- The row shows as the item. -/
def ShowsAs (row : Row) (item : QueueItemDto) : Prop :=
  ∃ webhook, parseWebhookRow state.db.ext row = some webhook ∧
    state.queueItemDto webhook = some item

/-- **What a view of a queue tells about the table**: every row of the channel is shown, each of
them once, their number is the queue size, and at every time a peek, when the storage works,
finds a webhook if and only if the queue is not empty and the reported time is missing or has
come. -/
structure Mirrors (view : QueueResponse) (channel : WebhookChannel) (t : Table) : Prop where
  items : ∃ rows : List Row, rows.Perm (t.inChannel channel) ∧
    List.Forall₂ state.ShowsAs rows view.items
  queueSize : view.status.queueSize = view.items.length
  due : ∀ (now : ℤ) (ω : ℕ → Input) (w : World), (∀ n, (ω n).fault = none) → w.table = t →
    ∃ found, ((state.db.peekOldestDueByChannel channel now).run (perform state.db.ext)
        ω w).outcome = .done (.ok found) ∧
      (found.isSome = true ↔ view.items ≠ [] ∧
        (view.status.nextAttemptAt = none ∨
          ∃ due, view.status.nextAttemptAt = some due ∧ due ≤ now))

variable {state}

/-- Items are shown row by row. -/
theorem forall₂_showsAs {rows : List Row} (h : ∀ r ∈ rows, r.WellTyped) :
    List.Forall₂ state.ShowsAs rows
      ((rows.filterMap (parseWebhookRow state.db.ext)).filterMap state.queueItemDto) := by
  have hread := @forall₂_filterMap_parse state.db.ext rows h
  generalize rows.filterMap (parseWebhookRow state.db.ext) = webhooks at hread
  induction hread with
  | nil => exact List.Forall₂.nil
  | @cons row webhook rows webhooks hparse hrest ih =>
      have hid : webhook.id = some row.id := (parseWebhookRow_eq_some hparse).1
      have hitem : ∃ item, state.queueItemDto webhook = some item := by
        unfold queueItemDto
        rw [hid]
        exact ⟨_, rfl⟩
      obtain ⟨item, hitem⟩ := hitem
      rw [List.filterMap_cons, hitem]
      exact List.Forall₂.cons ⟨webhook, hparse, hitem⟩
        (ih fun r hr => h r (List.mem_cons_of_mem _ hr))

/-- An item is due when its row is. -/
theorem ShowsAs.isDue_iff {row : Row} {item : QueueItemDto} (h : state.ShowsAs row item)
    (now : ℤ) : row.isDue now = true ↔ ∀ due, item.nextAttemptAt = some due → due ≤ now := by
  obtain ⟨webhook, hparse, hitem⟩ := h
  obtain ⟨id, -, rfl⟩ := Option.map_eq_some_iff.mp hitem
  exact isDue_iff_of_parse hparse now

/-- A row is due when an item is. -/
theorem exists_isDue_iff {rows : List Row} {items : List QueueItemDto}
    (h : List.Forall₂ state.ShowsAs rows items) (now : ℤ) :
    (∃ row ∈ rows, row.isDue now = true) ↔
      ∃ item ∈ items, ∀ due, item.nextAttemptAt = some due → due ≤ now := by
  induction h with
  | nil => simp
  | cons hshows _ ih =>
      rw [List.exists_mem_cons_iff, List.exists_mem_cons_iff, hshows.isDue_iff, ih]

/-- The time a view reports stands for the due times of its items. -/
theorem exists_item_due_iff (items : List QueueItemDto) (now : ℤ) :
    (∃ item ∈ items, ∀ due, item.nextAttemptAt = some due → due ≤ now) ↔
      items ≠ [] ∧ (soonestDue items = none ∨ ∃ due, soonestDue items = some due ∧ due ≤ now) := by
  have hsoonest : soonestDue items =
      ((items.map QueueItemDto.nextAttemptAt).mapM id).bind List.min? := by
    rw [List.mapM_map]
    rfl
  have hmany := exists_due_iff (items.map QueueItemDto.nextAttemptAt) now
  simp only [← hsoonest, List.mem_map, exists_exists_and_eq_and, ne_eq, List.map_eq_nil_iff]
    at hmany
  rw [hmany]
  refine and_congr_right fun _ => ?_
  cases soonestDue items <;> simp

/-- A peek finds a webhook when a row of the channel is due. -/
theorem isSome_peek_iff {t : Table} (htyped : ∀ r ∈ t.rows, r.WellTyped)
    (channel : WebhookChannel) (now : ℤ) (choice : ScanChoice) :
    ((((Query.peekOldestDueByChannel channel now).execute choice t).1.bind
      (parseWebhookRow state.db.ext)).isSome = true) ↔
      ∃ row ∈ t.inChannel channel, row.isDue now = true := by
  have hdue : ∀ row, row ∈ t.dueRows channel now ↔
      row ∈ t.inChannel channel ∧ row.isDue now = true := fun row => by
    rw [Table.mem_dueRows, Table.inChannel, List.mem_filter, and_assoc]
  -- which row comes first is left open, but not whether there is one
  have hscan : ∀ row, row ∈ orderBy Row.Older choice.order (t.dueRows channel now) ↔
      row ∈ t.dueRows channel now := fun row => mem_orderBy _ _
  show ((orderBy Row.Older choice.order (t.dueRows channel now)).head?.bind _).isSome = true ↔ _
  cases hhead : (orderBy Row.Older choice.order (t.dueRows channel now)).head? with
  | none =>
      rw [List.head?_eq_none_iff] at hhead
      refine iff_of_false (by simp) ?_
      rintro ⟨row, hrow, hisDue⟩
      have hmem := (hscan row).mpr ((hdue row).mpr ⟨hrow, hisDue⟩)
      rw [hhead] at hmem
      cases hmem
  | some row =>
      have hmem := (hscan row).mp (List.mem_of_mem_head? hhead)
      obtain ⟨webhook, hparse⟩ := (htyped row (Table.mem_dueRows.mp hmem).1).exists_webhook
        state.db.ext
      refine iff_of_true ?_ ⟨row, (hdue row).mp hmem⟩
      rw [Option.bind_some, hparse]
      rfl

/-- **The view made from an answer of the database mirrors the table.** -/
theorem mirrors_of_listQueue {t : Table} (htyped : ∀ r ∈ t.rows, r.WellTyped)
    {channel : WebhookChannel} {rows : List Row} (hrows : rows.Perm (t.inChannel channel))
    {view : QueueResponse} (hitems : view.items =
      (rows.filterMap (parseWebhookRow state.db.ext)).filterMap state.queueItemDto)
    (hsize : view.status.queueSize = view.items.length)
    (hnext : view.status.nextAttemptAt = soonestDue view.items) :
    state.Mirrors view channel t := by
  have hshows : List.Forall₂ state.ShowsAs rows view.items := by
    rw [hitems]
    exact forall₂_showsAs fun r hr => htyped r (List.mem_of_mem_filter (hrows.mem_iff.mp hr))
  refine ⟨⟨rows, hrows, hshows⟩, hsize, fun now ω w hω hw => ?_⟩
  -- from the peek to the rows, to the items, to the time reported
  refine ⟨_, by rw [Sqlite.peekOldestDueByChannel, run_statement_of_fault_eq_none (hω 1)], ?_⟩
  rw [hw, isSome_peek_iff htyped, hnext, ← exists_item_due_iff, ← exists_isDue_iff hshows]
  simp only [hrows.mem_iff]

/-! ## Every view of a run -/

/-- The view a task returned was made from an answer of the database to this task. -/
def ViewsAnswer (state : AppState) (job : Job) (past : List DoneCall)
    (response : Option HttpResponse) : Prop :=
  ∀ channel headers resp, job = .request (.queue channel headers) → response = some resp →
    resp.status = 200 → ∃ (rows : List Row) (view : QueueResponse),
      (⟨.sql (.listQueueByChannel channel), .ok rows⟩ : DoneCall) ∈ past ∧
      resp.body = .queue view ∧
      view.items = (rows.filterMap (parseWebhookRow state.db.ext)).filterMap state.queueItemDto ∧
      view.status.queueSize = view.items.length ∧
      view.status.nextAttemptAt = soonestDue view.items

theorem viewsAnswer_of_status {job : Job} {past : List DoneCall} {response : HttpResponse}
    (h : response.status ≠ 200) : state.ViewsAnswer job past (some response) := by
  rintro _ _ _ - ⟨⟩ hstatus
  exact absurd hstatus h

/-- A refusal has a status of its own. -/
theorem status_of_result {d : Decision} {response : HttpResponse}
    (h : d.result = .error response) : response.status ≠ 200 := by
  cases d <;> cases h <;> simp [HttpResponse.text]

theorem status_of_findForwardTarget {channel : String} {response : HttpResponse}
    (h : state.findForwardTarget channel = .error response) : response.status ≠ 200 := by
  simp only [findForwardTarget] at h
  split at h
  · cases h
    simp [HttpResponse.text]
  · split at h <;> cases h
    simp [HttpResponse.text]

theorem status_ofError (e : WebhookRepositoryError) : (HttpResponse.ofError e).status ≠ 200 := by
  cases e <;> simp [HttpResponse.ofError, HttpResponse.storageBusy, HttpResponse.text,
    WebhookRepositoryError.isBusy]

theorem getQueueRoute_viewsAnswer (channel : String) (headers : HeaderMap) :
    (state.getQueueRoute channel headers).Obeys state.machine.Answers (fun _ _ => True)
      (fun past response =>
        state.ViewsAnswer (.request (.queue channel headers)) past (some response)) [] := by
  refine obeys_orRespond (fun response h => viewsAnswer_of_status ?_) fun _ _ =>
    obeys_orRespond (fun response h => viewsAnswer_of_status (status_of_findForwardTarget h))
      fun _ _ => ?_
  · rw [authorize_eq_result] at h
    exact status_of_result h
  · refine Sqlite.obeys_bind_statement (fun _ _ _ => trivial) (fun _ _ => trivial) ?_ ?_
    · intro new rows _ _
      refine ⟨trivial, fun status _ => ?_⟩
      rintro _ _ _ ⟨⟩ ⟨⟩ -
      exact ⟨rows, _, List.mem_cons_of_mem _ List.mem_cons_self, rfl, rfl, rfl, rfl⟩
    · intro new e _ _
      exact viewsAnswer_of_status (status_ofError e)

/-- Every task of the service views only what it was answered. -/
theorem start_viewsAnswer (job : Job) :
    (state.start job).Obeys state.machine.Answers (fun _ _ => True) (state.ViewsAnswer job) [] := by
  by_cases hjob : ∃ channel headers, job = .request (.queue channel headers)
  · obtain ⟨channel, headers, rfl⟩ := hjob
    exact (CallProgram.obeys_bind _ _).mpr (getQueueRoute_viewsAnswer channel headers)
  · refine CallProgram.obeys_of_forall (fun _ _ => trivial) (fun past response => ?_) _
    rintro channel headers _ rfl
    exact absurd ⟨channel, headers, rfl⟩ hjob

/-- **The queue view tells exactly when the forwarder will have work.**  In every run, a request
for the view of a queue that was answered with 200 was answered with a view that mirrors the
table as it was when the task listed the queue. -/
theorem queue_view_mirrors_table (state : AppState) {s : ServiceState}
    (h : state.machine.Reaches (fun _ _ => True) state.initial s) {n : ℕ} {t : ServiceTask}
    (ht : s.tasks[n]? = some t) {channel : String} {headers : HeaderMap}
    (hjob : t.job = .request (.queue channel headers)) {resp : HttpResponse}
    (hrest : t.rest = .pure (some resp)) (hstatus : resp.status = 200) :
    ∃ view, resp.body = .queue view ∧ ∃ e ∈ s.history, e.task = n ∧
      e.call = .sql (.listQueueByChannel channel) ∧
      state.Mirrors view channel e.before.table := by
  have hreturned := h.returned_allowed rfl start_viewsAnswer (List.mem_of_getElem? ht) hrest
  obtain ⟨rows, view, hlisted, hbody, hitems, hsize, hnext⟩ :=
    hreturned channel headers resp hjob rfl hstatus
  obtain ⟨e, he, htask, -, hdone⟩ := h.pastsRecorded rfl n t _ ht hlisted
  refine ⟨view, hbody, e, he, htask, congrArg Sigma.fst hdone, ?_⟩
  -- the statement that answered the task is that listing, in the order it happened to have
  have hrows : rows.Perm (e.before.table.inChannel channel) := by
    rcases (performed_of_mem_history h he).cases with ⟨-, hquiet⟩ | ⟨q, choice, hexec, -⟩
    · exact absurd hdone (hquiet _ _)
    · rw [hdone] at hexec
      obtain rfl : Query.listQueueByChannel channel = q :=
        Call.sql.inj (congrArg Sigma.fst hexec)
      cases hexec
      exact orderBy_perm _ _ _
  exact mirrors_of_listQueue (fun r hr => (stored_of_mem_before h he hr).2) hrows hitems hsize hnext

/-- A run in which the queue is viewed while its one webhook waits after a failure. -/
def viewEvents : List ServiceEvent :=
  ServiceEvent.task (.request .small) 0 (List.replicate 3 (Input.calm 1000 200)) ++
    ServiceEvent.task (.refresh 0) 1 (List.replicate 3 (Input.calm 1000 200)) ++
    ServiceEvent.task (.cycle 0) 2 (List.replicate 10 (Input.calm 1001 500)) ++
    ServiceEvent.task (.request (.queue "orders" .small)) 3
      (List.replicate 3 (Input.calm 1002 200))

/-- The time reported in the queue view a task returned. -/
def viewedNext (t : ServiceTask) : Option ℤ :=
  match t.job, t.rest with
  | .request (.queue _ _), .pure (some ⟨200, _, .queue view⟩) => view.status.nextAttemptAt
  | _, _ => none

theorem exists_of_viewedNext {t : ServiceTask} {next : ℤ} (h : viewedNext t = some next) :
    ∃ channel headers resp view, t.job = .request (.queue channel headers) ∧
      t.rest = .pure (some resp) ∧ resp.status = 200 ∧ resp.body = .queue view ∧
      view.status.nextAttemptAt = some next := by
  unfold viewedNext at h
  split at h
  · rename_i hjob hrest
    exact ⟨_, _, _, _, hjob, hrest, rfl, rfl, h⟩
  · cases h

/-- The one webhook of the queue was refused and is parked: the view reports a time that is
still to come, and mirrors the table of its statement. -/
theorem queue_view_mirrors_table_waiting :
    ∃ (view : QueueResponse) (channel : WebhookChannel) (t : Table),
      (∃ next, view.status.nextAttemptAt = some next ∧ 1002 < next) ∧
        small.Mirrors view channel t := by
  have hrun : ∃ s, small.machine.runEvents small.initial viewEvents = some s ∧
      ∃ t, s.tasks[3]? = some t ∧ ∃ next, viewedNext t = some next ∧ 1002 < next := by
    decide +kernel
  obtain ⟨s, hs, t, ht, next, hviewed, hnext⟩ := hrun
  obtain ⟨channel, headers, resp, view, hjob, hrest, hstatus, hbody, hview⟩ :=
    exists_of_viewedNext hviewed
  have hreaches : small.machine.Reaches (fun _ _ => True) small.initial s :=
    TaskMachine.reaches_of_runEvents hs fun _ _ _ => trivial
  obtain ⟨view', hbody', e, -, -, -, hmirrors⟩ :=
    queue_view_mirrors_table small hreaches ht hjob hrest hstatus
  obtain rfl : view = view' := ResponseBody.queue.inj (hbody.symm.trans hbody')
  exact ⟨view, channel, _, ⟨next, hview, hnext⟩, hmirrors⟩

end AppState
