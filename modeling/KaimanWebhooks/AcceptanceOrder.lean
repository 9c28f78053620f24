/-
# Served in the order of acceptance

Webhooks are ordered by their time of receipt, which counts whole seconds.  A webhook that was
accepted before the request for another one came was received no later and has the lower id.
It is served first as long as the database, in what SQL leaves to it, puts no row behind a
younger one: neither among rows of one second nor among the rows a `DELETE` returns.
-/
import KaimanWebhooks.Clock
import KaimanWebhooks.Polling

/-! ## Rows in turn -/

/-- The row was received no later than the other one, and stored before it. -/
def Row.Precedes (a b : Row) : Prop := a.Older b ∧ a.id < b.id

/-- No row comes behind one that it precedes. -/
def InTurn (rows : List Row) : Prop := rows.Pairwise fun a b => ¬b.Precedes a

/-- Rows that were received at the same time stand in the order of their ids. -/
def TiesById (rows : List Row) : Prop :=
  rows.Pairwise fun a b => a.Older b → b.Older a → a.id < b.id

instance : DecidableRel Row.Precedes := fun _ _ => inferInstanceAs (Decidable (_ ∧ _))

instance (rows : List Row) : Decidable (InTurn rows) :=
  inferInstanceAs (Decidable (List.Pairwise _ _))

instance (rows : List Row) : Decidable (TiesById rows) :=
  inferInstanceAs (Decidable (List.Pairwise _ _))

section Rows

variable {rows : List Row} {a b : Row}

/-- An ordered scan that breaks ties by id has its rows in turn. -/
theorem inTurn_orderBy {σ : Shuffle Row} (h : TiesById (σ.order rows)) :
    InTurn (orderBy Row.Older σ rows) := by
  have hties := orderBy_ties Row.Older σ h
  refine ((orderBy_pairwise Row.Older σ rows).and hties).imp ?_
  rintro a b ⟨hab, htie⟩ ⟨hba, hlt⟩
  have hlt' := htie hab hba
  omega

/-- What precedes a row stands in front of it. -/
theorem InTurn.mem_front {front behind : List Row} (h : InTurn (front ++ b :: behind))
    (ha : a ∈ front ++ b :: behind) (hab : a.Precedes b) : a ∈ front := by
  rcases List.mem_append.mp ha with ha | ha
  · exact ha
  · rcases List.mem_cons.mp ha with rfl | ha
    · exact absurd hab.2 (lt_irrefl _)
    · have hbehind := (List.pairwise_append.mp h).2.1
      exact absurd hab ((List.pairwise_cons.mp hbehind).1 a ha)

theorem InTurn.not_precedes_head (h : InTurn rows) (hb : rows.head? = some b) (ha : a ∈ rows) :
    ¬a.Precedes b := by
  obtain ⟨behind, rfl⟩ := List.head?_eq_some_iff.mp hb
  intro hab
  have hfront : a ∈ [] := @InTurn.mem_front a b [] behind h ha hab
  cases hfront

/-- A limit takes no row without the ones that precede it. -/
theorem InTurn.mem_limitRows (h : InTurn rows) {limit : ℤ} (hb : b ∈ limitRows limit rows)
    (ha : a ∈ rows) (hab : a.Precedes b) : a ∈ limitRows limit rows := by
  unfold limitRows at hb ⊢
  split_ifs at hb ⊢ with hlimit
  · exact ha
  · unfold InTurn at h
    rw [← List.take_append_drop limit.toNat rows] at h ha
    rcases List.mem_append.mp ha with ha | ha
    · exact ha
    · exact absurd hab ((List.pairwise_append.mp h).2.2 b hb a ha)

end Rows

/-! ## What the database may choose -/

/-- The order the database chooses for the rows of a call keeps them in turn. -/
def Call.KeepsTurn (i : Input) (t : Table) : Call Query → Prop
  | .sql (.peekOldestDueByChannel channel now) =>
      i.fault = none → TiesById (i.choice.order.order (t.dueRows channel now))
  | .sql (.readAndDeleteByChannel channel limit) =>
      i.fault = none → TiesById (i.choice.order.order (t.inChannel channel)) ∧
        InTurn (i.choice.returning.order (t.picked i.choice channel limit))
  | _ => True

instance (i : Input) (t : Table) (c : Call Query) : Decidable (c.KeepsTurn i t) :=
  match c with
  | .sql q => by unfold Call.KeepsTurn; cases q <;> infer_instance
  | .instantNow | .systemNow | .subsecNanos | .sleep _ | .send _ _ | .readStatus _
  | .updateStatus _ _ | .logError _ => isTrue trivial

/-- Whatever the next call of a task scans, it keeps the rows in turn. -/
def KeepsTurn (s : ServiceState) : ServiceEvent → Prop
  | .spawn _ => True
  | .advance n i => ∀ c ∈ s.nextCall n, c.KeepsTurn i s.shared.table

instance (s : ServiceState) (e : ServiceEvent) : Decidable (KeepsTurn s e) :=
  match e with
  | .spawn _ | .advance _ _ => by unfold KeepsTurn; infer_instance

/-! ## Accepting a webhook -/

/-- The response of a task that has returned one. -/
def TaskState.response (t : ServiceTask) : Option HttpResponse :=
  match t.rest with
  | .pure response => response
  | _ => none

/-- The task stored a webhook of the channel under the id. -/
def Stores (s : ServiceState) (n : ℕ) (channel : WebhookChannel) (id : ℤ) : Prop :=
  ∃ e ∈ s.history, e.task = n ∧
    ∃ content ∈ storedRow e.done, content.1 = id ∧ content.2.channel = .text channel

/-- The task stored a webhook of the channel under the id and was answered 200. -/
structure Accepts (s : ServiceState) (n : ℕ) (channel : WebhookChannel) (id : ℤ) : Prop where
  stores : Stores s n channel id
  answered : ((s.tasks[n]?).bind TaskState.response).map HttpResponse.status = some 200

instance (s : ServiceState) (n : ℕ) (channel : WebhookChannel) (id : ℤ) :
    Decidable (Stores s n channel id) := by
  unfold Stores
  infer_instance

instance (s : ServiceState) (n : ℕ) (channel : WebhookChannel) (id : ℤ) :
    Decidable (Accepts s n channel id) :=
  decidable_of_iff (Stores s n channel id ∧
    ((s.tasks[n]?).bind TaskState.response).map HttpResponse.status = some 200)
    ⟨fun h => ⟨h.1, h.2⟩, fun h => ⟨h.stores, h.answered⟩⟩

/-- **First come, first served**, for the webhook stored under `a` and a later one: the later
one is not selected while the first is queued and due, and a poll that returns it returns the
first before it, unless that had left the queue. -/
structure ServedFirst (ext : External) (s : ServiceState) (a b : ℤ) : Prop where
  selected : ∀ e ∈ s.history, ∀ channel now row,
    e.call = .sql (.peekOldestDueByChannel channel now) → loadedRow e.done = some row →
      row.id = b → ∀ r ∈ e.before.table.rows, r.id = a → r.isDue now = false
  polled : ∀ e ∈ s.history, ∀ channel webhooks, pollOf ext e.done = some (channel, webhooks) →
    ∀ w ∈ webhooks, w.id = some b → (∃ r ∈ e.before.table.rows, r.id = a) →
      ∃ front behind, webhooks = front ++ w :: behind ∧ ∃ w' ∈ front, w'.id = some a

namespace AppState

/-! ## The time of receipt -/

/-- What is stored as the time of receipt was read off the clock before. -/
def StampsReceipt (past : List DoneCall) : Call Query → Prop
  | .sql (.insert _ _ _ receivedAt) => receivedAt ∈ readings past
  | _ => True

/-- The jobs that store webhooks. -/
def isReceive : Job → Bool
  | .request (.receive _ _ _ _) => true
  | _ => false

section Receive

variable {state : AppState}

theorem stampsReceipt_of_isTiming {past : List DoneCall} {c : Call Query}
    (h : c.isTiming = true) : StampsReceipt past c := by
  cases c <;> trivial

theorem stampsReceipt_receive (clientIp : IpAddr) (channel : String) (headers : HeaderMap)
    (body : Bytes) :
    (state.start (.request (.receive clientIp channel headers body))).Obeys state.machine.Answers
      StampsReceipt (fun _ _ => True) [] := by
  simp only [start, handle, receiveWebhookRoute]
  rw [CallProgram.obeys_bind]
  refine obeys_orRespond (fun _ _ => trivial) fun _ _ => ?_
  simp only [Sqlite.receiveWebhook, Sqlite.insert, CallProgram.bind_eq, CallProgram.bind_call,
    CallProgram.bind_pure_left]
  refine ⟨trivial, fun secs _ => ?_⟩
  refine Sqlite.obeys_bind_statement (fun _ _ => stampsReceipt_of_isTiming) ?_
    (fun _ _ _ _ => trivial) (fun _ _ _ _ => trivial)
  intro waiting _
  simp only [StampsReceipt, Webhook.new, readings, List.filterMap_append, List.mem_append]
  exact Or.inr List.mem_cons_self

/-- **A webhook is stored with a time its task has read before**, whatever its calls are
answered. -/
theorem start_stampsReceipt (job : Job) :
    (state.start job).Obeys state.machine.Answers
      (fun past c => isReceive job = true → StampsReceipt past c) (fun _ _ => True) [] := by
  cases job with
  | request r =>
      cases r with
      | receive clientIp channel headers body =>
          exact (stampsReceipt_receive clientIp channel headers body).weaken
            (fun _ _ _ hP _ => hP) fun _ _ _ hQ => hQ
      | _ => exact CallProgram.obeys_of_not Bool.false_ne_true (fun _ _ => trivial) _
  | _ => exact CallProgram.obeys_of_not Bool.false_ne_true (fun _ _ => trivial) _

end Receive

/-! ## Runs -/

section Runs

variable {state : AppState} {ok : ServiceState → ServiceEvent → Prop} {s : ServiceState}

/-- Ids are given out in ascending order. -/
theorem storedRows_pairwise (h : state.machine.Reaches ok state.initial s) :
    (storedRows s).Pairwise fun p q => q.1 < p.1 := by
  rw [storedRows, List.pairwise_filterMap]
  refine h.pairwise_history rfl ?_
  intro s₁ n i t c k hreach _ _ _ e he p hp q hq
  have hperformed : Performed state.db.ext (state.machine.entry s₁ n t c i) := ⟨i, rfl⟩
  have hid : p.1 = s₁.shared.table.seq + 1 := (hperformed.of_storedRow hp).1
  have hle := (ledger_of_reaches hreach).le_seq q (List.mem_filterMap.mpr ⟨e, he, hq⟩)
  omega

/-- A stored webhook carries a time its task read before. -/
theorem exists_reading_of_storedRow (h : state.machine.Reaches ok state.initial s)
    {e : ServiceEntry} (he : e ∈ s.history) {p : ℤ × Content} (hrow : storedRow e.done = some p) :
    ∃ receivedAt, p.2.receivedAt = .int receivedAt ∧
      ∃ d ∈ s.history, d.task = e.task ∧ reading d.done = some receivedAt := by
  obtain ⟨channel, headers, payload, receivedAt, hdone, hcontent⟩ := exists_sql_of_storedRow hrow
  have hcall : e.call = .sql (.insert channel headers payload receivedAt) :=
    congrArg Sigma.fst hdone
  refine ⟨receivedAt, by rw [hcontent], ?_⟩
  have hreceive : isReceive e.job = true := by
    obtain ⟨past, hprotocol, -⟩ := protocol_of_mem_history h he
    rw [hcall] at hprotocol
    obtain ⟨clientIp, headers, hjob, -⟩ := hprotocol
    rw [hjob]
    rfl
  obtain ⟨past, hstamps, hpast⟩ := h.protocol_of_mem rfl rfl start_stampsReceipt he
  have hstamps := hstamps hreceive
  rw [hcall] at hstamps
  obtain ⟨d, hd, hreading⟩ := List.mem_filterMap.mp hstamps
  obtain ⟨e', he', htask, -, rfl⟩ := hpast d hd
  exact ⟨e', he', htask, hreading⟩

/-- How a peek that found a row stands in the history. -/
theorem done_of_loadedRow {e : ServiceEntry} {channel : WebhookChannel} {now : ℤ} {row : Row}
    (hcall : e.call = .sql (.peekOldestDueByChannel channel now))
    (hrow : loadedRow e.done = some row) :
    e.done = (⟨.sql (.peekOldestDueByChannel channel now), .ok (some row)⟩ : DoneCall) := by
  rcases e with ⟨n, job, c, answer, before, after⟩
  obtain rfl : c = .sql (.peekOldestDueByChannel channel now) := hcall
  exact congrArg (Sigma.mk _) (eq_ok_of_loadedRow hrow)

/-- What a poll was answered. -/
theorem exists_done_of_pollOf {ext : External} {d : DoneCall} {channel : WebhookChannel}
    {webhooks : List Webhook} (h : pollOf ext d = some (channel, webhooks)) :
    ∃ limit rows, d = ⟨.sql (.readAndDeleteByChannel channel limit), .ok rows⟩ ∧
      webhooks = rows.filterMap (parseWebhookRow ext) := by
  unfold pollOf at h
  split at h
  · cases h
    exact ⟨_, _, rfl, rfl⟩
  · cases h

end Runs

section Order

variable {state : AppState} {ok : ServiceState → ServiceEvent → Prop} {s₁ s : ServiceState}
  (h₁ : state.machine.Reaches ok state.initial s₁)

include h₁

/-- What a task did that came later is not in the history of the state before. -/
theorem mem_later {later : List ServiceEntry} (hlater : later ++ s₁.history = s.history)
    {e : ServiceEntry} (he : e ∈ s.history) (htask : s₁.tasks.length ≤ e.task) : e ∈ later := by
  rw [← hlater] at he
  refine (List.mem_append.mp he).resolve_right fun hold => ?_
  obtain ⟨t, ht, -⟩ := h₁.historyRecorded rfl e hold
  have hlt := (List.getElem?_eq_some_iff.mp ht).1
  omega

variable (h : state.machine.Reaches ok s₁ s)

include h

/-- **What was accepted first** has the lower id and was received no later than what came after
it. -/
theorem precedes_of_stores (hok : ∀ s e, ok s e → SteadyClock s e) {a b : ℕ}
    {channel : WebhookChannel} {idA idB : ℤ} (ha : Stores s₁ a channel idA)
    (hb : s₁.tasks.length ≤ b) (hstores : Stores s b channel idB) :
    idA < idB ∧ ∃ cA cB atA atB, (idA, cA) ∈ storedRows s ∧ (idB, cB) ∈ storedRows s ∧
      cA.receivedAt = .int atA ∧ cB.receivedAt = .int atB ∧ atA ≤ atB ∧
      cA.channel = .text channel ∧ cB.channel = .text channel := by
  obtain ⟨eA, heA, -, ⟨idA', cA⟩, hrowA, rfl, hchannelA⟩ := ha
  obtain ⟨eB, heB, htaskB, ⟨idB', cB⟩, hrowB, rfl, hchannelB⟩ := hstores
  have hreach := h₁.trans h
  obtain ⟨later, hlater⟩ := h.history_suffix
  have hlaterB : eB ∈ later := mem_later h₁ hlater heB (htaskB ▸ hb)
  have hmemA : (idA', cA) ∈ storedRows s₁ := List.mem_filterMap.mpr ⟨eA, heA, hrowA⟩
  have hmemB : (idB', cB) ∈ later.filterMap fun e => storedRow e.done :=
    List.mem_filterMap.mpr ⟨eB, hlaterB, hrowB⟩
  have hsplit : storedRows s = (later.filterMap fun e => storedRow e.done) ++ storedRows s₁ := by
    rw [storedRows, ← hlater, List.filterMap_append]
    rfl
  -- the time of receipt was read before by the same task
  obtain ⟨atA, hatA, dA, hdA, -, hreadA⟩ := exists_reading_of_storedRow h₁ heA hrowA
  obtain ⟨atB, hatB, dB, hdB, htaskD, hreadB⟩ := exists_reading_of_storedRow hreach heB hrowB
  have hlaterD : dB ∈ later := by
    apply mem_later h₁ hlater hdB
    rw [htaskD, htaskB]
    exact hb
  have hreadings : (readings s.calls).Pairwise (· ≥ ·) := readings_pairwise hok hreach
  unfold TaskSystem.calls at hreadings
  rw [← hlater, List.map_append, readings, List.filterMap_append] at hreadings
  have hids := storedRows_pairwise hreach
  rw [hsplit] at hids
  refine ⟨(List.pairwise_append.mp hids).2.2 _ hmemB _ hmemA, cA, cB, atA, atB, ?_, ?_, hatA, hatB,
    ?_, hchannelA, hchannelB⟩
  · rw [hsplit]
    exact List.mem_append_right _ hmemA
  · rw [hsplit]
    exact List.mem_append_left _ hmemB
  · apply (List.pairwise_append.mp hreadings).2.2 atB _ atA
    · exact List.mem_filterMap.mpr ⟨dA.done, List.mem_map_of_mem hdA, hreadA⟩
    · exact List.mem_filterMap.mpr ⟨dB.done, List.mem_map_of_mem hlaterD, hreadB⟩

/-- Rows of what was accepted first and of what came after it are in turn, and of one channel. -/
theorem rows_precede (hok : ∀ s e, ok s e → SteadyClock s e) {a b : ℕ} {channel : WebhookChannel}
    {idA idB : ℤ} (ha : Stores s₁ a channel idA) (hb : s₁.tasks.length ≤ b)
    (hstores : Stores s b channel idB) {e : ServiceEntry} (he : e ∈ s.history) {rA rB : Row}
    (hrA : rA ∈ e.before.table.rows) (hrB : rB ∈ e.before.table.rows) (hidA : rA.id = idA)
    (hidB : rB.id = idB) : rA.Precedes rB ∧ rA.channel = rB.channel := by
  have hreach := h₁.trans h
  obtain ⟨hlt, cA, cB, atA, atB, hcA, hcB, hatA, hatB, hle, hchannelA, hchannelB⟩ :=
    precedes_of_stores h₁ h hok ha hb hstores
  have hledger := ledger_of_reaches hreach
  have hcontentA : rA.content = cA :=
    hledger.content_eq (hidA ▸ (stored_of_mem_before hreach he hrA).1) hcA
  have hcontentB : rB.content = cB :=
    hledger.content_eq (hidB ▸ (stored_of_mem_before hreach he hrB).1) hcB
  have hreceivedA : rA.receivedAt = .int atA := (congrArg Content.receivedAt hcontentA).trans hatA
  have hreceivedB : rB.receivedAt = .int atB := (congrArg Content.receivedAt hcontentB).trans hatB
  refine ⟨⟨?_, by omega⟩, ?_⟩
  · unfold Row.Older
    rw [hreceivedA, hreceivedB, SqlValue.le_int, decide_eq_true_eq]
    exact hle
  · exact ((congrArg Content.channel hcontentA).trans hchannelA).trans
      ((congrArg Content.channel hcontentB).trans hchannelB).symm

/-- The later webhook is not selected while the first one is queued and due. -/
theorem isDue_eq_false_of_selected (hok : ∀ s e, ok s e → SteadyClock s e ∧ KeepsTurn s e)
    {a b : ℕ} {channel : WebhookChannel} {idA idB : ℤ} (ha : Stores s₁ a channel idA)
    (hb : s₁.tasks.length ≤ b) (hstores : Stores s b channel idB) {e : ServiceEntry}
    (he : e ∈ s.history) {peeked : WebhookChannel} {now : ℤ} {row : Row}
    (hcall : e.call = .sql (.peekOldestDueByChannel peeked now))
    (hrow : loadedRow e.done = some row) (hid : row.id = idB) {r : Row}
    (hr : r ∈ e.before.table.rows) (hrA : r.id = idA) : r.isDue now = false := by
  by_contra hdue
  have hbefore := (performed_of_mem_history (h₁.trans h) he).mem_of_loadedRow hrow
  obtain ⟨hprecedes, hchannel⟩ := rows_precede h₁ h (fun s e hse => (hok s e hse).1) ha hb hstores
    he hr hbefore hrA hid
  obtain ⟨s₂, newer, hmade⟩ := (h₁.trans h).exists_madeIn rfl he
  obtain ⟨i, -, hevent, -, -, hnext, hfault, hexecuted⟩ :=
    exists_executed_of_madeIn hmade (done_of_loadedRow hcall hrow)
  have hties : TiesById (i.choice.order.order (s₂.shared.table.dueRows peeked now)) :=
    (hok _ _ hevent).2 _ hnext hfault
  rw [hmade.before] at hties
  have hhead : (orderBy Row.Older i.choice.order (e.before.table.dueRows peeked now)).head? =
      some row := hexecuted
  obtain ⟨-, hpeeked, -⟩ :=
    Table.mem_dueRows.mp ((mem_orderBy _ _).mp (List.mem_of_mem_head? hhead))
  apply (inTurn_orderBy hties).not_precedes_head hhead _ hprecedes
  refine (mem_orderBy _ _).mpr (Table.mem_dueRows.mpr ⟨hr, ?_, ?_⟩)
  · unfold Row.inChannel at hpeeked ⊢
    rw [hchannel]
    exact hpeeked
  · exact Bool.eq_true_of_not_eq_false hdue

/-- A poll that returns the later webhook returns the first one before it. -/
theorem exists_front_of_polled (hok : ∀ s e, ok s e → SteadyClock s e ∧ KeepsTurn s e)
    {a b : ℕ} {channel : WebhookChannel} {idA idB : ℤ} (ha : Stores s₁ a channel idA)
    (hb : s₁.tasks.length ≤ b) (hstores : Stores s b channel idB) {e : ServiceEntry}
    (he : e ∈ s.history) {polled : WebhookChannel} {webhooks : List Webhook}
    (hpoll : pollOf state.db.ext e.done = some (polled, webhooks)) {w : Webhook}
    (hw : w ∈ webhooks) (hid : w.id = some idB) {r : Row} (hr : r ∈ e.before.table.rows)
    (hrA : r.id = idA) :
    ∃ front behind, webhooks = front ++ w :: behind ∧ ∃ w' ∈ front, w'.id = some idA := by
  obtain ⟨limit, rows, hdone, rfl⟩ := exists_done_of_pollOf hpoll
  obtain ⟨rB, hrB, hparse⟩ := List.mem_filterMap.mp hw
  have hidB : rB.id = idB := id_of_parseWebhookRow hparse hid
  obtain ⟨s₂, newer, hmade⟩ := (h₁.trans h).exists_madeIn rfl he
  obtain ⟨i, -, hevent, -, -, hnext, hfault, hexecuted⟩ := exists_executed_of_madeIn hmade hdone
  obtain ⟨hties, hreturned⟩ := (hok _ _ hevent).2 _ hnext hfault
  rw [hmade.before] at hties hreturned
  have hrows : i.choice.returning.order (e.before.table.picked i.choice polled limit) = rows :=
    hexecuted
  have hpicked : rB ∈ e.before.table.picked i.choice polled limit := by
    rw [← hrows, Shuffle.mem_order] at hrB
    exact hrB
  obtain ⟨hbefore, hpolled⟩ := List.mem_filter.mp (e.before.table.mem_of_mem_picked hpicked)
  obtain ⟨hprecedes, hchannel⟩ := rows_precede h₁ h (fun s e hse => (hok s e hse).1) ha hb hstores
    he hr hbefore hrA hidB
  -- the first webhook is picked as well, and stands in front
  have hpickedA : r ∈ e.before.table.picked i.choice polled limit := by
    refine (inTurn_orderBy hties).mem_limitRows hpicked ?_ hprecedes
    refine (mem_orderBy _ _).mpr (List.mem_filter.mpr ⟨hr, ?_⟩)
    unfold Row.inChannel at hpolled ⊢
    rw [hchannel]
    exact hpolled
  have hreturnedA : r ∈ rows := by
    rw [← hrows, Shuffle.mem_order]
    exact hpickedA
  obtain ⟨front, behind, rfl⟩ := List.append_of_mem hrB
  rw [hrows] at hreturned
  have hfront := hreturned.mem_front hreturnedA hprecedes
  obtain ⟨w', hparse'⟩ :=
    ((stored_of_mem_before (h₁.trans h) he hr).2).exists_webhook state.db.ext
  refine ⟨front.filterMap (parseWebhookRow state.db.ext),
    behind.filterMap (parseWebhookRow state.db.ext), ?_, w',
    List.mem_filterMap.mpr ⟨r, hfront, hparse'⟩, ?_⟩
  · rw [List.filterMap_append, List.filterMap_cons, hparse]
  · rw [(parseWebhookRow_eq_some hparse').1, hrA]

end Order

/-- **First come, first served, when the database keeps the rows in turn.**  In every run under a
clock that does not go back, in which no scan puts a row behind a younger one where SQL leaves
the order open: a webhook that was accepted before the request for another one of its channel
came is served before it. -/
theorem accepted_first_served_first (state : AppState) {s₁ s : ServiceState}
    (h₁ : state.machine.Reaches (fun s e => SteadyClock s e ∧ KeepsTurn s e) state.initial s₁)
    (h : state.machine.Reaches (fun s e => SteadyClock s e ∧ KeepsTurn s e) s₁ s) {a b : ℕ}
    {channel : WebhookChannel} {idA idB : ℤ} (ha : Accepts s₁ a channel idA)
    (hb : s₁.tasks.length ≤ b) (hstores : Stores s b channel idB) :
    ServedFirst state.db.ext s idA idB where
  selected _ he _ _ _ hcall hrow hid _ hr hrA :=
    isDue_eq_false_of_selected h₁ h (fun _ _ hok => hok) ha.stores hb hstores he hcall hrow hid hr
      hrA
  polled _ he _ _ hpoll _ hw hid := fun ⟨_, hr, hrA⟩ =>
    exists_front_of_polled h₁ h (fun _ _ hok => hok) ha.stores hb hstores he hpoll hw hid hr hrA

/-- The second webhook is received in the same second, the forwarder looks for one to deliver,
and a poll takes both. -/
def burstEvents (peek : Input) : List ServiceEvent :=
  ServiceEvent.task (.request .small) 1 (List.replicate 3 (Input.calm 1000 200)) ++
    ServiceEvent.task (.refresh 0) 2 (List.replicate 3 (Input.calm 1000 200)) ++
    ServiceEvent.task (.cycle 0) 3 (List.replicate 4 peek) ++
    ServiceEvent.task (.request (.poll "orders" .small)) 4 (List.replicate 2 (Input.calm 1001 200))

/-- Two webhooks come in one second, and a database that keeps their rows in turn serves the
first one first. -/
theorem accepted_first_served_first_burst :
    ∃ s₁ s : ServiceState, Accepts s₁ 0 "orders" 1 ∧ s₁.tasks.length ≤ 1 ∧ Stores s 1 "orders" 2 ∧
      (s.history.filterMap fun e => (pollOf External.plain e.done).map fun p =>
        p.2.map Webhook.id) = [[some 1, some 2]] ∧
      ServedFirst External.plain s 1 2 := by
  have hrun : ∃ s₁, small.machine.runPermitted (fun s e => SteadyClock s e ∧ KeepsTurn s e)
      small.initial (ServiceEvent.task (.request .small) 0
        (List.replicate 3 (Input.calm 1000 200))) = some s₁ ∧
      Accepts s₁ 0 "orders" 1 ∧ s₁.tasks.length ≤ 1 ∧
      ∃ s, small.machine.runPermitted (fun s e => SteadyClock s e ∧ KeepsTurn s e) s₁
        (burstEvents (Input.calm 1001 200)) = some s ∧ Stores s 1 "orders" 2 ∧
        (s.history.filterMap fun e => (pollOf External.plain e.done).map fun p =>
          p.2.map Webhook.id) = [[some 1, some 2]] := by
    decide +kernel
  obtain ⟨s₁, hs₁, haccepts, hlater, s, hs, hstores, hpolled⟩ := hrun
  exact ⟨s₁, s, haccepts, hlater, hstores, hpolled, accepted_first_served_first small
    (TaskMachine.reaches_of_runPermitted hs₁) (TaskMachine.reaches_of_runPermitted hs) haccepts
    hlater hstores⟩

/-- A database that hands out rows with equal keys in reverse. -/
def reversing : Input :=
  { Input.calm 1001 200 with
    choice := ⟨⟨List.reverse, fun l => l.reverse_perm⟩, Shuffle.unchanged, id⟩ }

/-- **A burst can be served out of turn**: of two webhooks received in one second the forwarder
may select the one that came second, while the one that was accepted before is due. -/
theorem burst_served_out_of_turn :
    ¬∀ (state : AppState) (s₁ s : ServiceState) (a b : ℕ) (channel : WebhookChannel) (idA idB : ℤ),
      state.config.validateConfig state.db.ext = .ok () →
      state.machine.Reaches SteadyClock state.initial s₁ → state.machine.Reaches SteadyClock s₁ s →
      Accepts s₁ a channel idA → s₁.tasks.length ≤ b → Stores s b channel idB →
        ServedFirst state.db.ext s idA idB := by
  intro hclaim
  have hrun : ∃ s₁, small.machine.runPermitted SteadyClock small.initial
      (ServiceEvent.task (.request .small) 0 (List.replicate 3 (Input.calm 1000 200))) = some s₁ ∧
      Accepts s₁ 0 "orders" 1 ∧ s₁.tasks.length ≤ 1 ∧
      ∃ s, small.machine.runPermitted SteadyClock s₁ (burstEvents reversing) = some s ∧
        Stores s 1 "orders" 2 ∧
        ∃ e ∈ s.history, e.call = .sql (.peekOldestDueByChannel "orders" 1001) ∧
          ∃ row ∈ loadedRow e.done, row.id = 2 ∧
            ∃ r ∈ e.before.table.rows, r.id = 1 ∧ r.isDue 1001 = true := by
    decide +kernel
  obtain ⟨s₁, hs₁, haccepts, hlater, s, hs, hstores, e, he, hcall, row, hrow, hid, r, hr, hidA,
    hdue⟩ := hrun
  have hconfig : small.config.validateConfig small.db.ext = .ok () :=
    Except.eq_ok_of_toBool (by decide +kernel)
  have hserved := hclaim small s₁ s 0 1 "orders" 1 2 hconfig
    (TaskMachine.reaches_of_runPermitted hs₁) (TaskMachine.reaches_of_runPermitted hs) haccepts
    hlater hstores
  rw [hserved.selected e he "orders" 1001 row hcall hrow hid r hr hidA] at hdue
  cases hdue

end AppState
