/-
# The upgrade of an old database

A new version of the service starts on the database an old one wrote: instances migrate it, then
the service runs on it.  Here the two halves meet.  The columns of the migrated table may stand in
any order, and a row is read from it by the names of its columns (`StoredTable.selectRow`).

Every old row reads as a webhook with the cells it had, due at once where the old version kept no
schedule, and from then on no webhook is lost: it is stored unchanged or left in one of the four
ways.  A later start migrates a table that has all columns, and leaves it alone.
-/
import KaimanWebhooks.Convergence
import KaimanWebhooks.Restart

/-! ## Rows by the names of their columns -/

/-- The column may hold the value: it is of the declared type, or null where null is allowed.
The id is the row id, which is never null. -/
def Column.Holds (c : Column) : SqlValue → Prop
  | .null => c.notNull = false ∧ c.name ≠ "id"
  | .int _ => c.declaredType = "INTEGER"
  | .text _ => c.declaredType = "TEXT"
  | .blob _ => c.declaredType = "BLOB"
  | .real _ => False

instance (c : Column) : (v : SqlValue) → Decidable (c.Holds v)
  | .null => inferInstanceAs (Decidable (c.notNull = false ∧ c.name ≠ "id"))
  | .int _ => inferInstanceAs (Decidable (c.declaredType = "INTEGER"))
  | .text _ => inferInstanceAs (Decidable (c.declaredType = "TEXT"))
  | .blob _ => inferInstanceAs (Decidable (c.declaredType = "BLOB"))
  | .real _ => inferInstanceAs (Decidable False)

/-- A cell of a row by the name of its column. -/
def Row.cell (r : Row) : String → Option SqlValue
  | "id" => some (.int r.id)
  | "channel" => some r.channel
  | "headers" => some r.headers
  | "payload" => some r.payload
  | "received_at" => some r.receivedAt
  | "forward_attempts" => some r.forwardAttempts
  | "last_attempt_at" => some r.lastAttemptAt
  | "last_attempt_error" => some r.lastAttemptError
  | "next_attempt_at" => some r.nextAttemptAt
  | _ => none

namespace StoredTable

/-- The nine columns of a stored row, wherever they stand in the table. -/
def selectRow (t : StoredTable) (stored : List SqlValue) : Option Row := do
  let .int id ← t.cell stored "id" | none
  let channel ← t.cell stored "channel"
  let headers ← t.cell stored "headers"
  let payload ← t.cell stored "payload"
  let receivedAt ← t.cell stored "received_at"
  let forwardAttempts ← t.cell stored "forward_attempts"
  let lastAttemptAt ← t.cell stored "last_attempt_at"
  let lastAttemptError ← t.cell stored "last_attempt_error"
  let nextAttemptAt ← t.cell stored "next_attempt_at"
  return {
    id := id
    channel := channel
    headers := headers
    payload := payload
    receivedAt := receivedAt
    forwardAttempts := forwardAttempts
    lastAttemptAt := lastAttemptAt
    lastAttemptError := lastAttemptError
    nextAttemptAt := nextAttemptAt }

/-- The rows of the table as the service reads them. -/
def selectRows (t : StoredTable) : Option (List Row) := t.rows.mapM t.selectRow

/-- The rows are as a version of the service may have written them: a cell holds what its column
may hold, no id was given twice, and none is above the counter. -/
structure Sound (t : StoredTable) (seq : ℤ) : Prop where
  typed : ∀ stored ∈ t.rows, ∀ c ∈ createdColumns ++ addedColumns,
    ∀ v ∈ t.cell stored c.name, c.Holds v
  nodup : (t.rows.map fun stored => t.cell stored "id").Nodup
  le_seq : ∀ stored ∈ t.rows, ∀ id, t.cell stored "id" = some (.int id) → id ≤ seq

end StoredTable

/-- The row has the cells of a stored row of an old table, and the defaults in the added columns
that table lacks. -/
def CarriesOver (t₀ : StoredTable) (stored : List SqlValue) (r : Row) : Prop :=
  (∀ name ∈ t₀.names, r.cell name = t₀.cell stored name) ∧
    ∀ c ∈ addedColumns, c.name ∉ t₀.names → r.cell c.name = some (addedValue c.name)

section Select

variable {t t₀ : StoredTable} {stored : List SqlValue} {r : Row} {seq : ℤ}

/-- A table that has a column has a cell of it in every row. -/
theorem StoredTable.exists_cell (hstored : stored ∈ t.rows) {name : String}
    (hname : name ∈ t.names) : ∃ v, t.cell stored name = some v :=
  StoredTable.exists_lookup_zip (by rw [StoredTable.names, t.width stored hstored, List.length_map])
    hname

/-- **What a cell of a column is.** -/
theorem Column.Holds.cases {c : Column} {v : SqlValue} (h : c.Holds v) :
    (v = .null ∧ c.notNull = false ∧ c.name ≠ "id") ∨
    (c.declaredType = "INTEGER" ∧ ∃ n, v = .int n) ∨
    (c.declaredType = "TEXT" ∧ ∃ s, v = .text s) ∨
    (c.declaredType = "BLOB" ∧ ∃ b, v = .blob b) := by
  cases v with
  | null => exact Or.inl ⟨rfl, h⟩
  | int n => exact Or.inr (Or.inl ⟨h, n, rfl⟩)
  | real q => exact h.elim
  | text s => exact Or.inr (Or.inr (Or.inl ⟨h, s, rfl⟩))
  | blob b => exact Or.inr (Or.inr (Or.inr ⟨h, b, rfl⟩))

/-- A row whose cells their columns may hold is well typed. -/
theorem Row.wellTyped_of_holds
    (h : ∀ c ∈ createdColumns ++ addedColumns, ∀ v ∈ r.cell c.name, c.Holds v) : r.WellTyped where
  channel := by
    simpa using (h ⟨"channel", "TEXT", true, .null⟩ (by decide) _ rfl).cases
  headers := by
    simpa using (h ⟨"headers", "TEXT", true, .text "\x7b\x7d"⟩ (by decide) _ rfl).cases
  payload := by
    simpa using (h ⟨"payload", "BLOB", true, .null⟩ (by decide) _ rfl).cases
  receivedAt := by
    simpa using (h ⟨"received_at", "INTEGER", true, .null⟩ (by decide) _ rfl).cases
  forwardAttempts := by
    simpa using (h ⟨"forward_attempts", "INTEGER", true, .int 0⟩ (by decide) _ rfl).cases
  lastAttemptAt := by
    simpa using (h ⟨"last_attempt_at", "INTEGER", false, .null⟩ (by decide) _ rfl).cases
  lastAttemptError := by
    simpa using (h ⟨"last_attempt_error", "TEXT", false, .null⟩ (by decide) _ rfl).cases
  nextAttemptAt := by
    simpa using (h ⟨"next_attempt_at", "INTEGER", false, .null⟩ (by decide) _ rfl).cases

/-- **A row of a migrated table is read** with the cells it has, whatever the order of the
columns. -/
theorem StoredTable.Sound.exists_selectRow (h : t.Sound seq)
    (hnames : ∀ name ∈ columnNames, name ∈ t.names) (hstored : stored ∈ t.rows) :
    ∃ r, t.selectRow stored = some r ∧ r.WellTyped ∧
      ∀ name ∈ columnNames, r.cell name = t.cell stored name := by
  have hcell : ∀ name ∈ columnNames, ∃ v, t.cell stored name = some v := fun name hname =>
    StoredTable.exists_cell hstored (hnames name hname)
  obtain ⟨v, hv⟩ := hcell "id" (by decide)
  have hid : ∃ id, v = .int id := by
    simpa using (h.typed stored hstored ⟨"id", "INTEGER", false, .null⟩ (by decide) v hv).cases
  obtain ⟨id, rfl⟩ := hid
  obtain ⟨channel, hchannel⟩ := hcell "channel" (by decide)
  obtain ⟨headers, hheaders⟩ := hcell "headers" (by decide)
  obtain ⟨payload, hpayload⟩ := hcell "payload" (by decide)
  obtain ⟨receivedAt, hreceived⟩ := hcell "received_at" (by decide)
  obtain ⟨attempts, hattempts⟩ := hcell "forward_attempts" (by decide)
  obtain ⟨lastAttemptAt, hat⟩ := hcell "last_attempt_at" (by decide)
  obtain ⟨lastAttemptError, herror⟩ := hcell "last_attempt_error" (by decide)
  obtain ⟨nextAttemptAt, hnext⟩ := hcell "next_attempt_at" (by decide)
  let r : Row := ⟨id, channel, headers, payload, receivedAt, attempts, lastAttemptAt,
    lastAttemptError, nextAttemptAt⟩
  have hsame : ∀ name ∈ columnNames, r.cell name = t.cell stored name := by
    simp [columnNames, createdColumns, addedColumns, Row.cell, hv, hchannel, hheaders, hpayload,
      hreceived, hattempts, hat, herror, hnext, r]
  refine ⟨r, ?_, Row.wellTyped_of_holds fun c hc v hv => ?_, hsame⟩
  · simp [StoredTable.selectRow, hv, hchannel, hheaders, hpayload, hreceived, hattempts, hat,
      herror, hnext, r]
  · rw [hsame c.name (List.mem_map_of_mem hc)] at hv
    exact h.typed stored hstored c hc v hv

end Select

/-! ## Lists side by side -/

/-- Every element on the right has its partner on the left. -/
theorem List.Forall₂.exists_left {α β : Type} {p : α → β → Prop} {l : List α} {l' : List β}
    (h : List.Forall₂ p l l') {b : β} (hb : b ∈ l') : ∃ a ∈ l, p a b := by
  induction h with
  | nil => cases hb
  | @cons a b' l l' hp _ ih =>
      rcases List.mem_cons.mp hb with rfl | hb
      · exact ⟨a, List.mem_cons_self, hp⟩
      · obtain ⟨a', ha', hp'⟩ := ih hb
        exact ⟨a', List.mem_cons_of_mem _ ha', hp'⟩

/-- Partners of partners. -/
theorem List.Forall₂.compose {α β γ : Type} {p : α → β → Prop} {q : β → γ → Prop}
    {r : α → γ → Prop} {l : List α} {m : List β} {n : List γ} (h : List.Forall₂ p l m)
    (h' : List.Forall₂ q m n) (hr : ∀ a b c, p a b → q b c → r a c) : List.Forall₂ r l n := by
  induction h generalizing n with
  | nil =>
      cases h'
      exact .nil
  | cons hp _ ih =>
      cases h' with
      | cons hq hrest => exact .cons (hr _ _ _ hp hq) (ih hrest)

/-- What can be read one by one can be read as a whole. -/
theorem List.exists_mapM_eq_some {α β : Type} {f : α → Option β} {p : α → β → Prop} {l : List α}
    (h : ∀ a ∈ l, ∃ b, f a = some b ∧ p a b) :
    ∃ bs, l.mapM f = some bs ∧ List.Forall₂ p l bs := by
  induction l with
  | nil => exact ⟨[], rfl, .nil⟩
  | cons a l ih =>
      obtain ⟨b, hb, hp⟩ := h a List.mem_cons_self
      obtain ⟨bs, hbs, hps⟩ := ih fun x hx => h x (List.mem_cons_of_mem _ hx)
      refine ⟨b :: bs, ?_, .cons hp hps⟩
      rw [List.mapM_cons, hb, hbs]
      rfl

/-- Lists whose elements agree in what they are mapped to. -/
theorem List.Forall₂.map_eq_map {α β γ : Type} {f : α → γ} {g : β → γ} {l : List α} {l' : List β}
    (h : List.Forall₂ (fun a b => f a = g b) l l') : l.map f = l'.map g := by
  have hmap : List.Forall₂ Eq (l.map f) (l'.map g) :=
    List.forall₂_map_left_iff.mpr (List.forall₂_map_right_iff.mpr h)
  rwa [List.forall₂_eq_eq_eq] at hmap

/-! ## The table the migration leaves -/

section Final

variable {t t₀ final : StoredTable} {seq : ℤ}

/-- The default of an added column is a value it may hold. -/
theorem holds_addedValue : ∀ c ∈ addedColumns, c.Holds (addedValue c.name) := by
  intro c hc
  simp only [addedColumns, List.mem_cons, List.not_mem_nil, or_false] at hc
  rcases hc with rfl | rfl | rfl | rfl <;> simp [addedValue, Column.Holds]

/-- A migration leaves sound rows sound. -/
theorem StoredTable.Sound.of_preserved (h : t₀.Sound seq)
    (hcreated : ∀ c ∈ createdColumns, c.name ∈ t₀.names)
    (hrows : List.Forall₂ (Preserved t₀ final) t₀.rows final.rows) : final.Sound seq := by
  have hid : "id" ∈ t₀.names := hcreated ⟨"id", "INTEGER", false, .null⟩ (by decide)
  refine ⟨fun stored hstored c hc v hv => ?_, ?_, fun stored hstored id hcell => ?_⟩
  · obtain ⟨stored₀, hstored₀, hkept, hnew⟩ := hrows.exists_left hstored
    by_cases hname : c.name ∈ t₀.names
    · rw [hkept c.name hname] at hv
      exact h.typed stored₀ hstored₀ c hc v hv
    · rcases List.mem_append.mp hc with hc | hc
      · exact absurd (hcreated c hc) hname
      · rw [hnew c hc hname] at hv
        obtain rfl : addedValue c.name = v := Option.some.inj hv
        exact holds_addedValue c hc
  · have hids : t₀.rows.map (fun stored => t₀.cell stored "id") =
        final.rows.map fun stored => final.cell stored "id" :=
      (hrows.imp fun _ _ hpreserved => (hpreserved.1 "id" hid).symm).map_eq_map
    rw [← hids]
    exact h.nodup
  · obtain ⟨stored₀, hstored₀, hkept, -⟩ := hrows.exists_left hstored
    rw [hkept "id" hid] at hcell
    exact h.le_seq stored₀ hstored₀ id hcell

/-- **A sound table with all columns is a table of the service.** -/
theorem StoredTable.Sound.exists_table (h : t.Sound seq)
    (hnames : ∀ name ∈ columnNames, name ∈ t.names) :
    ∃ table : Table, table.seq = seq ∧ t.selectRows = some table.rows ∧
      List.Forall₂ (fun stored r => r.WellTyped ∧
        ∀ name ∈ columnNames, r.cell name = t.cell stored name) t.rows table.rows := by
  obtain ⟨rows, hselect, hrows⟩ :=
    List.exists_mapM_eq_some fun stored hstored => h.exists_selectRow hnames hstored
  have hid : ∀ stored r, (∀ name ∈ columnNames, Row.cell r name = t.cell stored name) →
      t.cell stored "id" = some (.int r.id) := fun _ _ hcells => (hcells "id" (by decide)).symm
  have hids : t.rows.map (fun stored => t.cell stored "id") =
      (rows.map Row.id).map fun id => some (SqlValue.int id) := by
    rw [List.map_map]
    exact (hrows.imp fun stored r hcells => hid stored r hcells.2).map_eq_map
  refine ⟨⟨rows, seq, ?_, fun r hr => ?_⟩, rfl, hselect, hrows⟩
  · have hnodup := h.nodup
    rw [hids] at hnodup
    exact hnodup.of_map
  · obtain ⟨stored, hstored, -, hcells⟩ := hrows.exists_left hr
    exact h.le_seq stored hstored r.id (hid stored r hcells)

/-- A row of an old table without a schedule is due at once. -/
theorem CarriesOver.isDue {stored : List SqlValue} {r : Row} (h : CarriesOver t₀ stored r)
    (hname : "next_attempt_at" ∉ t₀.names) (now : ℤ) : r.isDue now = true := by
  have hcell := h.2 ⟨"next_attempt_at", "INTEGER", false, .null⟩ (by decide) hname
  have hnull : r.nextAttemptAt = .null := Option.some.inj hcell
  simp [Row.isDue, hnull]

end Final

/-! ## A table that has all columns -/

/-- The listing an answered call gave. -/
def listedNames : MigrationCall → Option (List String)
  | ⟨.sql .tableInfo, .ok rows⟩ => (rows.mapM tryGetName).toOption
  | _ => none

/-- The names of the indexes of the schema. -/
def indexNames : List String := ["idx_webhooks_channel", "idx_webhooks_received_at"]

/-- A column is added only after a listing that lacks it, and an index only if it is one of the
schema. -/
def AddsUnseen (past : List MigrationCall) : Call Ddl → Prop
  | .sql (.addColumn c) =>
      c ∈ addedColumns ∧ ∃ d ∈ past, ∃ names, listedNames d = some names ∧ c.name ∉ names
  | .sql (.createIndex name _) => name ∈ indexNames
  | _ => True

section Unseen

variable {duplicate : String → SqlxError} {db : Sqlite} {past past' : List MigrationCall}

theorem addsUnseen_of_isTiming {c : Call Ddl} (h : c.isTiming = true) : AddsUnseen past c := by
  cases c <;> trivial

/-- The schema batch adds no column. -/
theorem createSchema_addsUnseen :
    (db.retryMigration Sqlite.createSchema).Obeys (DdlAnswers duplicate db) AddsUnseen
      (fun _ _ => True) past := by
  refine obeys_retryOnLocked (I := fun _ => True) ?_ ?_ ?_ trivial
  · exact fun _ _ _ hc => ⟨addsUnseen_of_isTiming hc, fun _ => trivial⟩
  · intro past _
    refine ⟨trivial, ?_⟩
    rintro (e | u) -
    · simp
    · refine ⟨by simp [AddsUnseen, indexNames], ?_⟩
      rintro (e | u') -
      · simp
      · exact ⟨by simp [AddsUnseen, indexNames], fun _ _ => by simp⟩
  · exact fun _ _ _ _ _ _ _ => trivial

/-- The names that are returned are those of a listing. -/
theorem existingColumns_addsUnseen :
    db.existingColumns.Obeys (DdlAnswers duplicate db) AddsUnseen
      (fun past result => ∀ names, result = .ok names →
        ∃ d ∈ past, listedNames d = some names) past := by
  unfold Sqlite.existingColumns Sqlite.retryMigration
  rw [CallProgram.obeys_bind]
  refine obeys_retryOnLocked_sql (fun _ _ => addsUnseen_of_isTiming) (fun _ _ => trivial) ?_ ?_
  · intro new rows ha hnew
    obtain ⟨names, hnames⟩ := exists_names_of_answers ha
    dsimp only
    rw [hnames]
    rintro names' ⟨⟩
    exact ⟨_, List.mem_cons_self, by simp [listedNames, hnames, Except.toOption]⟩
  · intro after e new hafter _ _ names hnames
    cases hnames

/-- A column that was not seen is added. -/
theorem addColumn_addsUnseen {c : Column} (hc : c ∈ addedColumns)
    (hlisted : ∃ d ∈ past, ∃ names, listedNames d = some names ∧ c.name ∉ names) :
    (db.addColumn c).Obeys (DdlAnswers duplicate db) AddsUnseen (fun _ _ => True) past := by
  obtain ⟨d, hd, names, hnames, hmissing⟩ := hlisted
  unfold Sqlite.addColumn Sqlite.retryMigration
  rw [CallProgram.obeys_bind]
  refine obeys_retryOnLocked_sql (fun _ _ => addsUnseen_of_isTiming) ?_ ?_ ?_
  · exact fun new _ => ⟨hc, d, List.mem_append_right new hd, names, hnames, hmissing⟩
  · exact fun new u _ _ => trivial
  · intro after e new _ _ _
    dsimp only
    split <;> trivial

/-- Only columns that were not seen are added. -/
theorem addMissing_addsUnseen {existing : List String} {columns : List Column}
    (hcolumns : ∀ c ∈ columns, c ∈ addedColumns)
    (hlisted : ∃ d ∈ past, listedNames d = some existing) :
    (db.addMissing existing columns).Obeys (DdlAnswers duplicate db) AddsUnseen
      (fun _ _ => True) past := by
  induction columns generalizing past with
  | nil => trivial
  | cons c columns ih =>
      obtain ⟨d, hd, hnames⟩ := hlisted
      have hrest : ∀ past', past <:+ past' → (db.addMissing existing columns).Obeys
          (DdlAnswers duplicate db) AddsUnseen (fun _ _ => True) past' := fun past' hs =>
        ih (fun x hx => hcolumns x (List.mem_cons_of_mem _ hx)) ⟨d, hs.subset hd, hnames⟩
      unfold Sqlite.addMissing
      split
      · exact hrest past (List.suffix_refl past)
      · rename_i hunseen
        have hmissing : c.name ∉ existing := by simpa using hunseen
        rw [CallProgram.obeys_bind]
        refine (addColumn_addsUnseen (hcolumns c List.mem_cons_self)
          ⟨d, hd, existing, hnames, hmissing⟩).weaken (fun _ _ _ hP => hP) ?_
        rintro past' (e | u) hs -
        · trivial
        · exact hrest past' hs

/-- **An instance adds only columns it did not see.** -/
theorem migrate_addsUnseen :
    db.migrate.Obeys (DdlAnswers duplicate db) AddsUnseen (fun _ _ => True) [] := by
  unfold Sqlite.migrate
  rw [CallProgram.obeys_bind]
  refine createSchema_addsUnseen.weaken (fun _ _ _ hP => hP) ?_
  rintro past (e | u) - -
  · trivial
  · dsimp only
    rw [CallProgram.obeys_bind]
    refine existingColumns_addsUnseen.weaken (fun _ _ _ hP => hP) ?_
    rintro past' (e | names) - hnames
    · trivial
    · exact addMissing_addsUnseen (fun _ h => h) (hnames names rfl)

end Unseen

/-- The call adds a column. -/
def AddsColumn (c : Call Ddl) : Prop := ∃ column, c = .sql (.addColumn column)

/-- What holds along a run from a database whose table has all columns. -/
structure Undisturbed (d : Database) (t : StoredTable) (s : MigrationState) : Prop where
  table : s.shared.table = some t
  indexes : (∀ name ∈ indexNames, name ∈ d.indexes) → s.shared.indexes = d.indexes
  listed : ∀ u ∈ s.tasks, ∀ call ∈ u.past, ∀ names, listedNames call = some names →
    names = t.names
  quiet : ∀ e ∈ s.history, ¬AddsColumn e.call

section Current

variable {db : Sqlite} {d : Database} {s : MigrationState} {t : StoredTable}
  (duplicate : String → SqlxError)

/-- A call that adds no column leaves a table alone. -/
theorem table_performDdl {c : Call Ddl} (hc : ¬AddsColumn c) (i : Input)
    (ht : d.table = some t) : (performDdl duplicate c i d).2.table = some t := by
  rcases performDdl_cases duplicate c i d with hsame | ⟨q, rfl, -, hexecute⟩
  · rw [hsame, ht]
  · rw [hexecute]
    rcases Ddl.execute_cases duplicate q d with hsame | ⟨-, hnone, -⟩ | ⟨column, -, rfl, -⟩
    · rw [hsame, ht]
    · cases hnone.symm.trans ht
    · exact absurd ⟨column, rfl⟩ hc

/-- A listing tells the names of the table. -/
theorem listedNames_performDdl {c : Call Ddl} (i : Input) (ht : d.table = some t)
    {names : List String}
    (hnames : listedNames ⟨c, (performDdl duplicate c i d).1⟩ = some names) : names = t.names := by
  cases c with
  | sql q =>
      cases q with
      | tableInfo =>
          dsimp only [performDdl] at hnames
          cases hfault : i.fault with
          | some e =>
              rw [hfault] at hnames
              cases hnames
          | none =>
              rw [hfault] at hnames
              simp only [Ddl.execute, ht, Option.map_some, Option.getD_some, listedNames,
                mapM_infoRow, Except.toOption, Option.some.injEq] at hnames
              exact hnames.symm
      | _ => cases hnames
  | _ => cases hnames

/-- Where the indexes of the schema are there, a permitted call adds none. -/
theorem indexes_performDdl {past : List MigrationCall} {c : Call Ddl} (hc : AddsUnseen past c)
    (i : Input) (hindexes : ∀ name ∈ indexNames, name ∈ d.indexes) :
    (performDdl duplicate c i d).2.indexes = d.indexes := by
  rcases performDdl_cases duplicate c i d with hsame | ⟨q, rfl, -, hexecute⟩
  · rw [hsame]
  · rw [hexecute]
    cases q with
    | createTable => rfl
    | tableInfo => rfl
    | createIndex name column =>
        unfold Ddl.execute
        dsimp only
        split
        · rfl
        · rw [if_pos (hindexes name hc)]
    | addColumn column =>
        unfold Ddl.execute
        dsimp only
        split
        · rfl
        · split_ifs <;> rfl

variable {duplicate : String → SqlxError}

/-- **A table that has all columns is left alone**, whatever the statements are answered. -/
theorem undisturbed_of_reaches (ht : d.table = some t)
    (hnames : ∀ name ∈ columnNames, name ∈ t.names)
    {ok : MigrationState → TaskEvent Unit Input → Prop}
    (h : (migrationMachine duplicate db).Reaches ok d.initial s) : Undisturbed d t s := by
  refine h.invariant_of_protocol (P := fun _ => AddsUnseen) (Q := fun _ _ _ => True)
    (Undisturbed d t) ?_ ?_ (fun _ => migrate_addsUnseen) ?_ ?_
  · exact ⟨ht, fun _ => rfl, by simp [Database.initial], by simp [Database.initial]⟩
  · intro u hu
    cases hu
  · intro s j hs _ _
    refine ⟨hs.table, hs.indexes, fun u hu call hcall => ?_, hs.quiet⟩
    rcases List.mem_append.mp hu with hu | hu
    · exact hs.listed u hu call hcall
    · rw [List.mem_singleton.mp hu] at hcall
      cases hcall
  · intro s n i u c k hs _ hu _ hpermitted
    have hmem : u ∈ s.tasks := List.mem_of_getElem? hu
    -- a listing that lacks the column would be one of a table that has it
    have hquiet : ¬AddsColumn c := by
      rintro ⟨column, rfl⟩
      obtain ⟨hadded, call, hcall, names, hlisted, hmissing⟩ := hpermitted
      rw [hs.listed u hmem call hcall names hlisted] at hmissing
      exact hmissing (hnames _ (List.mem_map_of_mem (List.mem_append_right _ hadded)))
    refine ⟨table_performDdl duplicate hquiet i hs.table, fun hindexes => ?_,
      fun u' hu' call hcall => ?_, fun e he => ?_⟩
    · have hsame := hs.indexes hindexes
      have hafter := indexes_performDdl duplicate hpermitted i (d := s.shared)
        fun name hname => by rw [hsame]; exact hindexes name hname
      exact hafter.trans hsame
    · rcases List.mem_or_eq_of_mem_set hu' with hu' | rfl
      · exact hs.listed u' hu' call hcall
      · rcases List.mem_cons.mp hcall with rfl | hcall
        · exact fun names hlisted => listedNames_performDdl duplicate i hs.table hlisted
        · exact hs.listed u hmem call hcall
    · rcases List.mem_cons.mp he with rfl | he
      · exact hquiet
      · exact hs.quiet e he

/-- **A migrated database is left alone.**  Any number of instances may start again on a database
that has all columns and indexes, and whatever their statements are answered: none of them sends
an `ALTER TABLE`, and nothing in the database changes. -/
theorem migrated_database_is_left_alone (ht : d.table = some t)
    (hnames : ∀ name ∈ columnNames, name ∈ t.names)
    (hindexes : ∀ name ∈ indexNames, name ∈ d.indexes)
    (h : (migrationMachine duplicate db).Reaches (fun _ _ => True) d.initial s) :
    s.shared = d ∧ ∀ e ∈ s.history, ∀ column, e.call ≠ .sql (.addColumn column) := by
  have hleft := undisturbed_of_reaches ht hnames h
  refine ⟨?_, fun e he column hcall => hleft.quiet e he ⟨column, hcall⟩⟩
  have hsame := hleft.indexes hindexes
  have htable := hleft.table.trans ht.symm
  cases hs : s.shared with
  | mk table indexes =>
      rw [hs] at hsame htable
      cases hsame
      cases htable
      rfl

end Current

/-- A database with all columns, the added ones in an order of their own, and a row. -/
def migratedDatabase : Database where
  table := some
    { columns := createdColumns ++ addedColumns.reverse
      rows := [[.int 1, .text "orders", .text "\x7b\x7d", .blob [123, 125], .int 1000, .null,
        .null, .null, .int 0]]
      width := by simp [createdColumns, addedColumns] }
  indexes := indexNames

/-- Two instances start again, and the listing of the second one fails for good. -/
def startAgainEvents : List (TaskEvent Unit Input) :=
  let calm := Input.calm 1002 200
  let failing := { calm with fault := some (.database (some "10") "disk I/O error") }
  [.spawn (), .spawn ()] ++ (List.replicate 5 [.advance 0 calm, .advance 1 calm]).flatten ++
    [.advance 0 calm, .advance 1 failing]

/-- One of two instances fails at its listing and the other one starts: neither has changed the
migrated database. -/
theorem migrated_database_is_left_alone_small :
    ∃ s : MigrationState, s.tasks.map TaskState.hasReturned = [true, true] ∧
      s.shared = migratedDatabase ∧
      ∀ e ∈ s.history, ∀ column, e.call ≠ .sql (.addColumn column) := by
  have hrun : ∃ s, (migrationMachine duplicateColumn Sqlite.small).runEvents
      migratedDatabase.initial startAgainEvents = some s ∧
      s.tasks.map TaskState.hasReturned = [true, true] := by
    decide +kernel
  obtain ⟨s, hs, hreturned⟩ := hrun
  exact ⟨s, hreturned, migrated_database_is_left_alone rfl (by decide) (by decide)
    (TaskMachine.reaches_of_runEvents hs fun _ _ _ => trivial)⟩

/-! ## The service on the migrated table -/

/-- Rows with one content read as one webhook. -/
theorem keptAs_of_same_content {ext : External} {r₀ r : Row} {accepted webhook : Webhook}
    (hcontent : r.content = r₀.content) (hread₀ : parseWebhookRow ext r₀ = some accepted)
    (hread : parseWebhookRow ext r = some webhook) : KeptAs ext accepted webhook := by
  obtain ⟨-, hchannel₀, ⟨json₀, hjson₀, hheaders₀⟩, hpayload₀, hreceived₀, -⟩ :=
    parseWebhookRow_eq_some hread₀
  obtain ⟨-, hchannel, ⟨json, hjson, hheaders⟩, hpayload, hreceived, -⟩ :=
    parseWebhookRow_eq_some hread
  simp only [Row.content, Content.mk.injEq] at hcontent
  obtain ⟨hc, hh, hp, hr⟩ := hcontent
  refine ⟨?_, ?_, ?_, fun _ => ?_⟩
  · exact SqlValue.text.inj (hchannel.symm.trans (hc.trans hchannel₀))
  · rw [hp, hpayload₀] at hpayload
    exact (Except.ok.inj hpayload).symm
  · exact SqlValue.int.inj (hreceived.symm.trans (hr.trans hreceived₀))
  · obtain rfl : json = json₀ := SqlValue.text.inj (hjson.symm.trans (hh.trans hjson₀))
    rw [hheaders₀, hheaders]
    exact List.Perm.refl _

/-- What a run keeps to about a row of the table it started on. -/
structure KeepsRow (r₀ : Row) (s : ServiceState) : Prop where
  issued : r₀.id ≤ s.shared.table.seq
  wellTyped : ∀ r ∈ s.shared.table.rows, r.WellTyped
  same : ∀ r ∈ s.shared.table.rows, r.id = r₀.id → r.content = r₀.content
  kept : (∃ r ∈ s.shared.table.rows, Query.SameWebhook r₀ r) ∨
    ∃ e ∈ s.history, TookRow e r₀.id r₀.content

/-- **One more call keeps to it.** -/
theorem KeepsRow.cons {ext : External} {r₀ : Row} {s s' : ServiceState} {e : ServiceEntry}
    (h : KeepsRow r₀ s) (hperformed : Performed ext e) (hbefore : e.before = s.shared)
    (hshared : s'.shared = e.after) (hhistory : s'.history = e :: s.history) :
    KeepsRow r₀ s' := by
  refine ⟨?_, ?_, fun r hr hid => ?_, ?_⟩
  · have hseq := hperformed.seq_le
    rw [hbefore] at hseq
    rw [hshared]
    exact h.issued.trans hseq
  · rw [hshared]
    exact hperformed.wellTyped (by rw [hbefore]; exact h.wellTyped)
  · rw [hshared] at hr
    rcases hperformed.mem_after hr with ⟨r₁, hr₁, hsame, hcontent⟩ | hstored
    · rw [hbefore] at hr₁
      exact hcontent.trans (h.same r₁ hr₁ (hsame.symm.trans hid))
    · -- the id of a row that was just stored is above all ids given out before
      have hnext := (hperformed.of_storedRow hstored).1
      have hissued := h.issued
      rw [hbefore] at hnext
      dsimp only at hnext
      omega
  · rw [hshared, hhistory]
    rcases h.kept with ⟨r, hr, hsame⟩ | ⟨e', he', htook⟩
    · rw [← hbefore] at hr
      rcases hperformed.kept_or_took hr with ⟨r', hr', hsame'⟩ | htook
      · exact Or.inl ⟨r', hr', hsame'.1.trans hsame.1, hsame'.2.trans hsame.2⟩
      · rw [hsame.1, hsame.2] at htook
        exact Or.inr ⟨e, List.mem_cons_self, htook⟩
    · exact Or.inr ⟨e', List.mem_cons_of_mem _ he', htook⟩

namespace AppState

variable {state : AppState} {w : World} {l : ServiceLives} {r₀ : Row}
  {ok : ServiceState → ServiceEvent → Prop}

/-- **In any number of lifetimes** the row is kept to. -/
theorem keepsRow_of_outlives (h : state.machine.Outlives state.restarted ok w l)
    (htyped : ∀ r ∈ w.table.rows, r.WellTyped) (hr₀ : r₀ ∈ w.table.rows) :
    KeepsRow r₀ l.whole := by
  refine TaskMachine.Outlives.invariant
    (fun older s => KeepsRow r₀ ⟨s.shared, s.tasks, s.history ++ older⟩) h ?_ ?_ ?_ ?_
  · refine ⟨w.table.le_seq r₀ hr₀, htyped, fun r hr hid => ?_, Or.inl ⟨r₀, hr₀, rfl, rfl⟩⟩
    rw [w.table.eq_of_id_eq hr hr₀ hid]
  · exact fun older s hs => { hs with }
  · exact fun older s j hs _ _ => { hs with }
  · intro older s n i t c k hs _ _ _
    have hperformed : Performed state.db.ext (state.machine.entry s n t c i) := ⟨i, rfl⟩
    exact hs.cons hperformed rfl rfl rfl

/-- The calls of all lifetimes tell of the row. -/
theorem traced_of_outlives (h : state.machine.Outlives state.restarted ok w l)
    (htyped : ∀ r ∈ w.table.rows, r.WellTyped) (hr₀ : r₀ ∈ w.table.rows) :
    state.Traced r₀.id r₀.content l.whole where
  permitted := fun e he => TaskMachine.Outlives.protocol_of_mem h start_obeys he
  performed := fun e he => by
    obtain ⟨-, -, -, -, -, i, hperform⟩ := TaskMachine.Outlives.exists_madeIn h he
    exact ⟨i, hperform⟩
  found := fun e he r hr => by
    obtain ⟨l', -, hl', -, hbefore, -⟩ := TaskMachine.Outlives.exists_madeIn h he
    have hkeeps := keepsRow_of_outlives hl' htyped hr₀
    rw [← hbefore] at hr
    exact ⟨hkeeps.wellTyped r hr, hkeeps.same r hr⟩

/-- **A webhook the service found is stored until it leaves.** -/
theorem isStored_or_left_of_outlives (h : state.machine.Outlives state.restarted ok w l)
    (htyped : ∀ r ∈ w.table.rows, r.WellTyped) (hr₀ : r₀ ∈ w.table.rows) {accepted : Webhook}
    (hread₀ : parseWebhookRow state.db.ext r₀ = some accepted) :
    state.IsStored l.current r₀.id accepted ∨
      ∃ e ∈ l.history, state.Left r₀.id accepted e := by
  have hkeeps := keepsRow_of_outlives h htyped hr₀
  rcases hkeeps.kept with ⟨r, hr, hid, hcontent⟩ | ⟨e, he, htook⟩
  · left
    obtain ⟨webhook, hread⟩ := (hkeeps.wellTyped r hr).exists_webhook state.db.ext
    exact ⟨r, webhook, Table.filter_id_eq hr hid, hread,
      keptAs_of_same_content hcontent hread₀ hread⟩
  · right
    exact (traced_of_outlives h htyped hr₀).exists_left
      (fun _ _ hcontent hread => keptAs_of_same_content hcontent hread₀ hread) he htook

/-- What the service starts on with a table. -/
def startedOn (state : AppState) (table : Table) : World := ⟨table, state.initialStatuses, []⟩

/-- **What an upgrade owes** for a table `t₀` of an old version: the database `d` it leaves holds
the rows of `table`, whatever later starts do; each row has the cells of its old row, and is due
at once if that had no schedule; and whatever the service does then, in any number of lifetimes,
the webhook of each row is stored unchanged or left in one of the four ways. -/
structure Upgrades (state : AppState) (duplicate : String → SqlxError) (t₀ : StoredTable)
    (seq : ℤ) (d : Database) (table : Table) : Prop where
  selected : ∃ final, final.selectRows = some table.rows ∧ d.table = some final ∧
    ∀ s, (migrationMachine duplicate state.db).Reaches (fun _ _ => True) d.initial s →
      s.shared.table = some final
  counter : table.seq = seq
  carried : List.Forall₂ (CarriesOver t₀) t₀.rows table.rows
  due : "next_attempt_at" ∉ t₀.names → ∀ r ∈ table.rows, ∀ now, r.isDue now = true
  kept : ∀ l, state.machine.Outlives state.restarted (fun _ _ => True) (state.startedOn table) l →
    ∀ r ∈ table.rows, ∃ accepted, parseWebhookRow state.db.ext r = some accepted ∧
      (state.IsStored l.current r.id accepted ∨ ∃ e ∈ l.history, state.Left r.id accepted e)

/-- **An upgrade loses nothing.**  Whatever version wrote the database, and however the statements
of the migrating instances interleave: if statements fail only for a lock and no instance exhausts
its limits, then as soon as one has returned, the table is one of the service, with all old rows,
and no webhook of it is lost from then on. -/
theorem an_upgrade_loses_nothing (state : AppState) {duplicate : String → SqlxError}
    (hduplicate : ∀ name, isDuplicateColumn (duplicate name) = true) {d₀ : Database} {seq : ℤ}
    (hstart : Startable d₀) (hsound : d₀.startTable.Sound seq) {m : MigrationState}
    (h : (migrationMachine duplicate state.db).Reaches OnlyLocks d₀.initial m)
    (hlimits : ∀ t ∈ m.tasks, ¬Instance.GaveUp t)
    (hreturned : ∃ t ∈ m.tasks, ∃ result, t.rest = .pure result) :
    ∃ table, state.Upgrades duplicate d₀.startTable seq m.shared table := by
  have hmigrating := migrating_of_reaches hduplicate hstart h
  obtain ⟨t, ht, result, hresult⟩ := hreturned
  have hachieved := h.tasksObey (P := fun _ => Permitted) (Q := fun _ => Achieved)
    (fun t ht => absurd ht List.not_mem_nil) (fun _ => obeys_migrate) t ht
  rw [hresult] at hachieved
  have hall := (hmigrating.ok_of_returned ht hresult hachieved (hlimits t ht)).2
  obtain ⟨final, hfinal, hperm, hrows⟩ := hmigrating.grown.final hstart hall
  have hnames : ∀ name ∈ columnNames, name ∈ final.names := fun name hname =>
    hperm.mem_iff.mpr hname
  obtain ⟨table, hseq, hselect, hcells⟩ :=
    (hsound.of_preserved hstart.start.2.1 hrows).exists_table hnames
  have htyped : ∀ r ∈ table.rows, r.WellTyped := fun r hr =>
    (hcells.exists_left hr).elim fun _ hstored => hstored.2.1
  have hcarried : List.Forall₂ (CarriesOver d₀.startTable) d₀.startTable.rows table.rows := by
    refine hrows.compose hcells fun stored₀ stored r hpreserved hr => ⟨fun name hname => ?_, ?_⟩
    · rw [hr.2 name (hstart.start.2.2 name hname), hpreserved.1 name hname]
    · intro c hc hmissing
      rw [hr.2 c.name (List.mem_map_of_mem (List.mem_append_right _ hc)),
        hpreserved.2 c hc hmissing]
  refine ⟨table, ⟨final, hselect, hfinal, fun s hs => ?_⟩, hseq, hcarried, ?_, fun l hl r hr => ?_⟩
  · exact (undisturbed_of_reaches hfinal hnames hs).table
  · intro hname r hr now
    obtain ⟨stored, -, hstored⟩ := hcarried.exists_left hr
    exact hstored.isDue hname now
  · obtain ⟨accepted, hread⟩ := (htyped r hr).exists_webhook state.db.ext
    exact ⟨accepted, hread, isStored_or_left_of_outlives hl htyped hr hread⟩

/-- The row of the old database is one an old version may have written. -/
theorem sound_oldDatabase : oldDatabase.startTable.Sound 1 := by
  refine ⟨by decide, by decide, fun stored hstored id hcell => ?_⟩
  obtain rfl := List.mem_singleton.mp hstored
  obtain rfl : 1 = id := SqlValue.int.inj (Option.some.inj hcell)
  exact le_refl 1

/-- Two instances upgrade an old database with one row: every later process finds the row under
its id, with what it held. -/
theorem an_upgrade_loses_nothing_small :
    ∃ m : MigrationState, m.tasks.map TaskState.hasReturned = [true, true] ∧
      ∃ table, small.Upgrades duplicateColumn oldDatabase.startTable 1 m.shared table := by
  have hrun : ∃ m, (migrationMachine duplicateColumn small.db).runPermitted OnlyLocks
      oldDatabase.initial migrationEvents = some m ∧
      m.tasks.map TaskState.hasReturned = [true, true] ∧
      ∀ t ∈ m.tasks, lastIsLock t.past = false ∧ TaskState.hasReturned t = true := by
    decide +kernel
  obtain ⟨m, hm, hboth, hreturned⟩ := hrun
  have hlimits : ∀ t ∈ m.tasks, ¬Instance.GaveUp t := fun t ht => not_gaveUp (hreturned t ht).1
  have hlength : m.tasks.length = 2 := by simpa using congrArg List.length hboth
  obtain ⟨t, ht⟩ := List.exists_mem_of_length_pos (l := m.tasks) (by omega)
  exact ⟨m, hboth, an_upgrade_loses_nothing small isDuplicateColumn_duplicateColumn
    startable_oldDatabase sound_oldDatabase (TaskMachine.reaches_of_runPermitted hm) hlimits
    ⟨t, ht, TaskState.hasReturned_iff.mp (hreturned t ht).2⟩⟩

end AppState
