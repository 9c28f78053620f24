/-
# Statements on the webhooks table

The table with its id column, the eleven statements of the storage adapter, and what
each of them can do to a row: insert a new one under a fresh id, take it out, or change
its bookkeeping cells.  No statement changes the channel, the headers, the payload or
the time of receipt of a row, and none reuses an id.
-/
import KaimanWebhooks.Table

/-! ## Tables -/

/-- The rows and the counter the next id is taken from. -/
@[ext] structure Table where
  rows : List Row
  seq : ℤ
  nodup : (rows.map Row.id).Nodup
  le_seq : ∀ r ∈ rows, r.id ≤ seq

namespace Table

def empty : Table := ⟨[], 0, by simp, by simp⟩

/-- A new row under the next id. -/
def insert (t : Table) (c : Content) : Table where
  rows := t.rows ++ [Row.inserted (t.seq + 1) c]
  seq := t.seq + 1
  nodup := by
    rw [List.map_append, List.nodup_append]
    refine ⟨t.nodup, List.nodup_singleton _, ?_⟩
    rintro a ha b hb rfl
    obtain ⟨r, hr, rfl⟩ := List.mem_map.mp ha
    have hseq := t.le_seq r hr
    simp only [List.map_singleton, Row.inserted_id, List.mem_singleton] at hb
    omega
  le_seq := by
    intro r hr
    rcases List.mem_append.mp hr with hr | hr
    · have hseq := t.le_seq r hr
      omega
    · rw [List.mem_singleton.mp hr, Row.inserted_id]

/-- The rows that satisfy `p`. -/
def keep (t : Table) (p : Row → Bool) : Table where
  rows := t.rows.filter p
  seq := t.seq
  nodup := t.nodup.sublist (List.filter_sublist.map Row.id)
  le_seq := fun r hr => t.le_seq r (List.mem_of_mem_filter hr)

/-- Change the row with an id; the change leaves the id alone. -/
def update (t : Table) (id : ℤ) (f : Row → Row) (hf : ∀ r, (f r).id = r.id) : Table where
  rows := t.rows.map fun r => if r.id = id then f r else r
  seq := t.seq
  nodup := by
    have hids : (t.rows.map fun r => if r.id = id then f r else r).map Row.id =
        t.rows.map Row.id := by
      rw [List.map_map]
      refine List.map_congr_left fun r _ => ?_
      simp only [Function.comp_apply]
      split_ifs with h
      · exact hf r
      · rfl
    rw [hids]
    exact t.nodup
  le_seq := by
    intro r' hr'
    obtain ⟨r, hr, rfl⟩ := List.mem_map.mp hr'
    have hseq := t.le_seq r hr
    split_ifs
    · rw [hf]
      exact hseq
    · exact hseq

/-- Two rows with one id are one row. -/
theorem eq_of_id_eq (t : Table) {r r' : Row} (hr : r ∈ t.rows) (hr' : r' ∈ t.rows)
    (h : r.id = r'.id) : r = r' :=
  List.inj_on_of_nodup_map t.nodup hr hr' h

/-- The rows with the id of a row are that row. -/
theorem filter_id_eq {t : Table} {r : Row} (hr : r ∈ t.rows) {id : ℤ} (hid : r.id = id) :
    (t.rows.filter fun r' => r'.id = id) = [r] := by
  have hnodup : (t.rows.filter fun r' => r'.id = id).Nodup :=
    (List.Nodup.of_map Row.id t.nodup).filter _
  refine List.Perm.eq_singleton
    ((List.perm_ext_iff_of_nodup hnodup (List.nodup_singleton r)).mpr ?_)
  intro r'
  simp only [List.mem_filter, decide_eq_true_eq, List.mem_singleton]
  constructor
  · rintro ⟨hr', hid'⟩
    exact t.eq_of_id_eq hr' hr (hid'.trans hid.symm)
  · rintro rfl
    exact ⟨hr, hid⟩

theorem mem_rows_keep {t : Table} {p : Row → Bool} {r : Row} :
    r ∈ (t.keep p).rows ↔ r ∈ t.rows ∧ p r = true := List.mem_filter

/-- A row of an updated table is an old row or the changed one. -/
theorem mem_rows_update {t : Table} {id : ℤ} {f : Row → Row} {hf : ∀ r, (f r).id = r.id}
    {r' : Row} (h : r' ∈ (t.update id f hf).rows) :
    ∃ r ∈ t.rows, (r.id ≠ id ∧ r' = r) ∨ (r.id = id ∧ r' = f r) := by
  obtain ⟨r, hr, hr'⟩ := List.mem_map.mp h
  refine ⟨r, hr, ?_⟩
  by_cases hid : r.id = id
  · exact Or.inr ⟨hid, by rw [← hr', if_pos hid]⟩
  · exact Or.inl ⟨hid, by rw [← hr', if_neg hid]⟩

/-- What becomes of a row of the table in an update. -/
theorem mem_rows_update_of_mem {t : Table} {r : Row} (hr : r ∈ t.rows) (id : ℤ) (f : Row → Row)
    (hf : ∀ r, (f r).id = r.id) :
    (if r.id = id then f r else r) ∈ (t.update id f hf).rows :=
  List.mem_map.mpr ⟨r, hr, rfl⟩

/-- The rows of a channel. -/
def inChannel (t : Table) (channel : WebhookChannel) : List Row :=
  t.rows.filter fun r => r.inChannel channel

end Table

/-! ## Statements -/

/-- The statements of the storage adapter with the values bound to them. -/
inductive Query : Type where
  | insert (channel headers : String) (payload : Bytes) (receivedAt : ℤ)
  | readAndDeleteByChannel (channel : WebhookChannel) (limit : ℤ)
  | peekOldestDueByChannel (channel : WebhookChannel) (now : ℤ)
  | listByChannel (channel : WebhookChannel)
  | deleteById (id : ℤ)
  | recordForwardFailure (now : ℤ) (message : String) (nextAttemptAt id : ℤ)
  | countByChannel (channel : WebhookChannel)
  | listQueueByChannel (channel : WebhookChannel)
  | clearByChannel (channel : WebhookChannel)
  | getById (id : ℤ)
  | resetForwardAttempts (id : ℤ)
  deriving DecidableEq

/-- What a statement is answered with: the new row id, the rows, or a number of rows. -/
abbrev Query.Answer : Query → Type
  | .insert .. => ℤ
  | .readAndDeleteByChannel .. => List Row
  | .peekOldestDueByChannel .. => Option Row
  | .listByChannel _ => List Row
  | .deleteById _ => ℕ
  | .recordForwardFailure .. => ℕ
  | .countByChannel _ => ℤ
  | .listQueueByChannel _ => List Row
  | .clearByChannel _ => ℕ
  | .getById _ => Option Row
  | .resetForwardAttempts _ => ℕ

/-- What SQL leaves open in one execution: the order of rows with equal sort keys, the
order of `RETURNING` rows, and the sum of one and a cell that is no integer. -/
structure ScanChoice where
  order : Shuffle Row
  returning : Shuffle Row
  coerce : SqlValue → SqlValue

/-- `LIMIT`: a negative number is no limit. -/
def limitRows (limit : ℤ) (rows : List Row) : List Row :=
  if limit < 0 then rows else rows.take limit.toNat

/-- The rows a destructive read picks. -/
def Table.picked (t : Table) (choice : ScanChoice) (channel : WebhookChannel) (limit : ℤ) :
    List Row :=
  limitRows limit (orderBy Row.Older choice.order (t.inChannel channel))

/-- The rows a destructive read picks are rows of the channel. -/
theorem Table.mem_of_mem_picked (t : Table) {choice : ScanChoice} {channel : WebhookChannel}
    {limit : ℤ} {r : Row} (h : r ∈ t.picked choice channel limit) : r ∈ t.inChannel channel := by
  rw [Table.picked, limitRows] at h
  split at h
  · exact (mem_orderBy _ _).mp h
  · exact (mem_orderBy _ _).mp (List.mem_of_mem_take h)

/-- The rows of a channel that are due. -/
def Table.dueRows (t : Table) (channel : WebhookChannel) (now : ℤ) : List Row :=
  t.rows.filter fun r => r.inChannel channel && r.isDue now

theorem Table.mem_dueRows {t : Table} {channel : WebhookChannel} {now : ℤ} {r : Row} :
    r ∈ t.dueRows channel now ↔
      r ∈ t.rows ∧ r.inChannel channel = true ∧ r.isDue now = true := by
  rw [Table.dueRows, List.mem_filter, Bool.and_eq_true]

/-- Execute a statement: its answer and the table it leaves. -/
def Query.execute : (q : Query) → ScanChoice → Table → q.Answer × Table
  | .insert channel headers payload receivedAt, _, t =>
      (t.seq + 1, t.insert ⟨.text channel, .text headers, .blob payload, .int receivedAt⟩)
  | .readAndDeleteByChannel channel limit, choice, t =>
      let picked := t.picked choice channel limit
      (choice.returning.order picked, t.keep fun r => r.id ∉ picked.map Row.id)
  | .peekOldestDueByChannel channel now, choice, t =>
      ((orderBy Row.Older choice.order (t.dueRows channel now)).head?, t)
  | .listByChannel channel, choice, t =>
      (orderBy Row.Newer choice.order (t.inChannel channel), t)
  | .deleteById id, _, t => ((t.rows.filter fun r => r.id = id).length, t.keep fun r => r.id ≠ id)
  | .recordForwardFailure now message nextAttemptAt id, choice, t =>
      ((t.rows.filter fun r => r.id = id).length,
        t.update id (Row.failed choice.coerce now message nextAttemptAt) fun _ => rfl)
  | .countByChannel channel, _, t => ((t.inChannel channel).length, t)
  | .listQueueByChannel channel, choice, t =>
      (orderBy Row.Older choice.order (t.inChannel channel), t)
  | .clearByChannel channel, _, t =>
      ((t.inChannel channel).length, t.keep fun r => !r.inChannel channel)
  | .getById id, _, t => (t.rows.find? fun r => r.id = id, t)
  | .resetForwardAttempts id, _, t =>
      ((t.rows.filter fun r => r.id = id).length, t.update id Row.reset fun _ => rfl)

/-! ## What a statement can do to a row -/

namespace Query

/-- The statement, so answered, takes the row out of the table. -/
def Takes : (q : Query) → q.Answer → Row → Prop
  | .readAndDeleteByChannel _ _, rows, r => r ∈ rows
  | .deleteById id, _, r => r.id = id
  | .clearByChannel channel, _, r => r.inChannel channel = true
  | _, _, _ => False

/-- The content a statement inserts. -/
def inserts : Query → Option Content
  | .insert channel headers payload receivedAt =>
      some ⟨.text channel, .text headers, .blob payload, .int receivedAt⟩
  | _ => none

variable {q : Query} {choice : ScanChoice} {t : Table}

/-- The counter moves only when a row is inserted, and then by one. -/
theorem seq_execute :
    (q.execute choice t).2.seq = if q.inserts.isSome then t.seq + 1 else t.seq := by
  cases q <;> rfl

/-- The row `r'` is a later state of the row `r`: only bookkeeping cells may differ. -/
def SameWebhook (r r' : Row) : Prop := r'.id = r.id ∧ r'.content = r.content

/-- **Where a row comes from**: it is a later state of a row that was there, or the
inserted one. -/
theorem mem_rows_execute {r' : Row} (h : r' ∈ (q.execute choice t).2.rows) :
    (∃ r ∈ t.rows, SameWebhook r r') ∨
    (∃ c, q.inserts = some c ∧ r' = Row.inserted (t.seq + 1) c) := by
  have hupdate : ∀ id f hf, (∀ r, (f r).content = r.content) →
      r' ∈ (t.update id f hf).rows → ∃ r ∈ t.rows, SameWebhook r r' := by
    intro id f hf hcontent hr'
    obtain ⟨r, hr, ⟨-, rfl⟩ | ⟨-, rfl⟩⟩ := Table.mem_rows_update hr'
    · exact ⟨r', hr, rfl, rfl⟩
    · exact ⟨r, hr, hf r, hcontent r⟩
  cases q with
  | insert channel headers payload receivedAt =>
      rcases List.mem_append.mp h with h | h
      · exact Or.inl ⟨r', h, rfl, rfl⟩
      · exact Or.inr ⟨_, rfl, List.mem_singleton.mp h⟩
  | readAndDeleteByChannel channel limit =>
      exact Or.inl ⟨r', (Table.mem_rows_keep.mp h).1, rfl, rfl⟩
  | deleteById id => exact Or.inl ⟨r', (Table.mem_rows_keep.mp h).1, rfl, rfl⟩
  | clearByChannel channel => exact Or.inl ⟨r', (Table.mem_rows_keep.mp h).1, rfl, rfl⟩
  | recordForwardFailure now message next id =>
      exact Or.inl (hupdate id _ (Row.failed_id choice.coerce now message next)
        (Row.failed_content choice.coerce now message next) h)
  | resetForwardAttempts id =>
      exact Or.inl (hupdate id _ Row.reset_id Row.reset_content h)
  | peekOldestDueByChannel channel now => exact Or.inl ⟨r', h, rfl, rfl⟩
  | listByChannel channel => exact Or.inl ⟨r', h, rfl, rfl⟩
  | countByChannel channel => exact Or.inl ⟨r', h, rfl, rfl⟩
  | listQueueByChannel channel => exact Or.inl ⟨r', h, rfl, rfl⟩
  | getById id => exact Or.inl ⟨r', h, rfl, rfl⟩

/-- **What becomes of the bookkeeping of a row**: it stays as it was, a failure is recorded, the
attempts are reset, or the row is new. -/
theorem row_cases {r' : Row} (h : r' ∈ (q.execute choice t).2.rows) :
    (r' ∈ t.rows ∧ (∀ now message next, q ≠ .recordForwardFailure now message next r'.id) ∧
      q ≠ .resetForwardAttempts r'.id) ∨
    (∃ now message next, q = .recordForwardFailure now message next r'.id ∧
      ∃ r ∈ t.rows, r.id = r'.id ∧ r' = r.failed choice.coerce now message next) ∨
    (q = .resetForwardAttempts r'.id ∧ ∃ r ∈ t.rows, r.id = r'.id ∧ r' = r.reset) ∨
    (∃ c, q.inserts = some c ∧ r' = Row.inserted (t.seq + 1) c) := by
  have hkept : r' ∈ t.rows →
      (∀ now message next id, q ≠ .recordForwardFailure now message next id) →
      (∀ id, q ≠ .resetForwardAttempts id) →
      r' ∈ t.rows ∧ (∀ now message next, q ≠ .recordForwardFailure now message next r'.id) ∧
        q ≠ .resetForwardAttempts r'.id := fun hr hrecord hreset =>
    ⟨hr, fun now message next => hrecord now message next r'.id, hreset r'.id⟩
  cases q with
  | insert channel headers payload receivedAt =>
      rcases List.mem_append.mp h with h | h
      · exact Or.inl (hkept h (by simp) (by simp))
      · exact Or.inr (Or.inr (Or.inr ⟨_, rfl, List.mem_singleton.mp h⟩))
  | recordForwardFailure now message next id =>
      obtain ⟨r, hr, ⟨hid, rfl⟩ | ⟨rfl, rfl⟩⟩ :=
        @Table.mem_rows_update t id _ (Row.failed_id choice.coerce now message next) r' h
      · refine Or.inl ⟨hr, fun _ _ _ heq => ?_, by simp⟩
        cases heq
        exact hid rfl
      · exact Or.inr (Or.inl ⟨now, message, next, rfl, r, hr, rfl, rfl⟩)
  | resetForwardAttempts id =>
      obtain ⟨r, hr, ⟨hid, rfl⟩ | ⟨rfl, rfl⟩⟩ := @Table.mem_rows_update t id _ Row.reset_id r' h
      · refine Or.inl ⟨hr, by simp, fun heq => ?_⟩
        cases heq
        exact hid rfl
      · exact Or.inr (Or.inr (Or.inl ⟨rfl, r, hr, rfl, rfl⟩))
  | readAndDeleteByChannel channel limit =>
      exact Or.inl (hkept (Table.mem_rows_keep.mp h).1 (by simp) (by simp))
  | deleteById id => exact Or.inl (hkept (Table.mem_rows_keep.mp h).1 (by simp) (by simp))
  | clearByChannel channel => exact Or.inl (hkept (Table.mem_rows_keep.mp h).1 (by simp) (by simp))
  | peekOldestDueByChannel channel now => exact Or.inl (hkept h (by simp) (by simp))
  | listByChannel channel => exact Or.inl (hkept h (by simp) (by simp))
  | countByChannel channel => exact Or.inl (hkept h (by simp) (by simp))
  | listQueueByChannel channel => exact Or.inl (hkept h (by simp) (by simp))
  | getById id => exact Or.inl (hkept h (by simp) (by simp))

/-- **Where a row goes**: it stays, with its content, unless the statement takes it. -/
theorem exists_row_execute {r : Row} (hr : r ∈ t.rows) :
    (∃ r' ∈ (q.execute choice t).2.rows, SameWebhook r r') ∨
      q.Takes (q.execute choice t).1 r := by
  have hupdate : ∀ (id : ℤ) (f : Row → Row) (hf : ∀ r, (f r).id = r.id),
      (∀ r, (f r).content = r.content) → ∃ r' ∈ (t.update id f hf).rows, SameWebhook r r' := by
    intro id f hf hcontent
    refine ⟨_, Table.mem_rows_update_of_mem hr id f hf, ?_⟩
    split_ifs
    · exact ⟨hf r, hcontent r⟩
    · exact ⟨rfl, rfl⟩
  cases q with
  | insert channel headers payload receivedAt =>
      exact Or.inl ⟨r, List.mem_append_left _ hr, rfl, rfl⟩
  | readAndDeleteByChannel channel limit =>
      by_cases hpicked : r.id ∈ (t.picked choice channel limit).map Row.id
      · right
        obtain ⟨r', hr', hid⟩ := List.mem_map.mp hpicked
        have heq := t.eq_of_id_eq (List.mem_of_mem_filter (t.mem_of_mem_picked hr')) hr hid
        exact (Shuffle.mem_order _).mpr (heq ▸ hr')
      · exact Or.inl ⟨r, Table.mem_rows_keep.mpr ⟨hr, by simpa using hpicked⟩, rfl, rfl⟩
  | deleteById id =>
      by_cases hid : r.id = id
      · exact Or.inr hid
      · exact Or.inl ⟨r, Table.mem_rows_keep.mpr ⟨hr, by simpa using hid⟩, rfl, rfl⟩
  | clearByChannel channel =>
      by_cases hch : r.inChannel channel = true
      · exact Or.inr hch
      · exact Or.inl ⟨r, Table.mem_rows_keep.mpr ⟨hr, by simpa using hch⟩, rfl, rfl⟩
  | recordForwardFailure now message next id =>
      exact Or.inl (hupdate id _ (Row.failed_id choice.coerce now message next)
        (Row.failed_content choice.coerce now message next))
  | resetForwardAttempts id => exact Or.inl (hupdate id _ Row.reset_id Row.reset_content)
  | peekOldestDueByChannel channel now => exact Or.inl ⟨r, hr, rfl, rfl⟩
  | listByChannel channel => exact Or.inl ⟨r, hr, rfl, rfl⟩
  | countByChannel channel => exact Or.inl ⟨r, hr, rfl, rfl⟩
  | listQueueByChannel channel => exact Or.inl ⟨r, hr, rfl, rfl⟩
  | getById id => exact Or.inl ⟨r, hr, rfl, rfl⟩

/-- An inserted row is there, under the next id. -/
theorem exists_inserted_execute {c : Content} (h : q.inserts = some c) :
    ∃ r ∈ (q.execute choice t).2.rows, r.id = t.seq + 1 ∧ r.content = c := by
  cases q with
  | insert channel headers payload receivedAt =>
      cases h
      exact ⟨_, List.mem_append_right _ (List.mem_singleton_self _), rfl, rfl⟩
  | _ => cases h

/-- Statements leave a table of well-typed rows well-typed. -/
theorem wellTyped_execute (h : ∀ r ∈ t.rows, r.WellTyped) :
    ∀ r ∈ (q.execute choice t).2.rows, r.WellTyped := by
  have hupdate : ∀ id f hf, (∀ r : Row, r.WellTyped → (f r).WellTyped) →
      ∀ r' ∈ (t.update id f hf).rows, r'.WellTyped := by
    intro id f hf htyped r' hr'
    obtain ⟨r, hr, ⟨-, rfl⟩ | ⟨-, rfl⟩⟩ := Table.mem_rows_update hr'
    · exact h r' hr
    · exact htyped r (h r hr)
  intro r hr
  cases q with
  | insert channel headers payload receivedAt =>
      rcases List.mem_append.mp hr with hr | hr
      · exact h r hr
      · rw [List.mem_singleton.mp hr]
        exact Row.wellTyped_inserted _ channel headers payload receivedAt
  | readAndDeleteByChannel channel limit => exact h r (Table.mem_rows_keep.mp hr).1
  | deleteById id => exact h r (Table.mem_rows_keep.mp hr).1
  | clearByChannel channel => exact h r (Table.mem_rows_keep.mp hr).1
  | recordForwardFailure now message next id =>
      exact hupdate id _ (Row.failed_id choice.coerce now message next)
        (fun r hr => hr.failed choice.coerce now message next) r hr
  | resetForwardAttempts id => exact hupdate id _ Row.reset_id (fun r hr => hr.reset) r hr
  | peekOldestDueByChannel channel now => exact h r hr
  | listByChannel channel => exact h r hr
  | countByChannel channel => exact h r hr
  | listQueueByChannel channel => exact h r hr
  | getById id => exact h r hr

end Query
