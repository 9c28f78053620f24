/-
# The schema of the webhooks table

The statements the migration issues, and what they do to a database whose table may have any
columns: `CREATE … IF NOT EXISTS`, the column listing and `ALTER TABLE … ADD COLUMN`.  Each of
them is atomic.  A column is only ever added, behind the others, and every row gets its
default, so a table grows (`StoredTable.Grows`) and a cell that was there stays.
-/
import KaimanWebhooks.Calls

/-! ## Columns -/

/-- A column as its definition states it. -/
structure Column where
  name : String
  declaredType : String
  notNull : Bool
  default : SqlValue
  deriving DecidableEq

/-- The columns `CREATE TABLE` makes. -/
def createdColumns : List Column :=
  [⟨"id", "INTEGER", false, .null⟩,
   ⟨"channel", "TEXT", true, .null⟩,
   ⟨"headers", "TEXT", true, .text "\x7b\x7d"⟩,
   ⟨"payload", "BLOB", true, .null⟩,
   ⟨"received_at", "INTEGER", true, .null⟩]

/-- The columns added after the initial release. -/
def addedColumns : List Column :=
  [⟨"forward_attempts", "INTEGER", true, .int 0⟩,
   ⟨"last_attempt_at", "INTEGER", false, .null⟩,
   ⟨"last_attempt_error", "TEXT", false, .null⟩,
   -- null means "now", which is what a row written before backoff existed reads as
   ⟨"next_attempt_at", "INTEGER", false, .null⟩]

/-- The names of all nine columns. -/
def columnNames : List String := (createdColumns ++ addedColumns).map Column.name

theorem nodup_columnNames : columnNames.Nodup := by decide

/-! ## Tables of any width -/

/-- A table as it is stored: every row has a value in every column. -/
structure StoredTable where
  columns : List Column
  rows : List (List SqlValue)
  width : ∀ r ∈ rows, r.length = columns.length

namespace StoredTable

def names (t : StoredTable) : List String := t.columns.map Column.name

/-- What a row reads as in a column. -/
def cell (t : StoredTable) (row : List SqlValue) (name : String) : Option SqlValue :=
  (t.names.zip row).lookup name

/-- The table `CREATE TABLE` makes. -/
def created : StoredTable := ⟨createdColumns, [], by simp⟩

/-- The table with one more column, in which every row reads as the default. -/
def addColumn (t : StoredTable) (c : Column) : StoredTable where
  columns := t.columns ++ [c]
  rows := t.rows.map (· ++ [c.default])
  width := by
    intro r hr
    obtain ⟨r', hr', rfl⟩ := List.mem_map.mp hr
    rw [List.length_append, List.length_append, t.width r' hr']
    rfl

theorem names_addColumn (t : StoredTable) (c : Column) :
    (t.addColumn c).names = t.names ++ [c.name] := by
  unfold names addColumn
  simp

/-- `t'` is `t` with the columns `new` behind its own, each row extended by their defaults. -/
structure GrowsBy (t t' : StoredTable) (new : List Column) : Prop where
  columns : t'.columns = t.columns ++ new
  rows : t'.rows = t.rows.map (· ++ new.map Column.default)

variable {t t' : StoredTable} {new : List Column}

theorem growsBy_refl (t : StoredTable) : t.GrowsBy t [] := ⟨by simp, by simp⟩

theorem GrowsBy.addColumn (h : t.GrowsBy t' new) (c : Column) :
    t.GrowsBy (t'.addColumn c) (new ++ [c]) where
  columns := by
    show t'.columns ++ [c] = _
    rw [h.columns, List.append_assoc]
  rows := by
    show t'.rows.map (· ++ [c.default]) = _
    rw [h.rows, List.map_map]
    exact List.map_congr_left fun r _ => by simp

theorem GrowsBy.names (h : t.GrowsBy t' new) : t'.names = t.names ++ new.map Column.name := by
  unfold StoredTable.names
  rw [h.columns, List.map_append]

/-- A lookup among pairs of lists of one length finds a name exactly when it is there. -/
theorem exists_lookup_zip {names : List String} {values : List SqlValue}
    (hlength : values.length = names.length) {name : String} (hname : name ∈ names) :
    ∃ v, (names.zip values).lookup name = some v := by
  induction names generalizing values with
  | nil => cases hname
  | cons x names ih =>
      cases values with
      | nil => cases hlength
      | cons v values =>
          rw [List.zip_cons_cons, List.lookup_cons]
          by_cases hx : name = x
          · exact ⟨v, by simp [hx]⟩
          · obtain ⟨v', hv'⟩ := ih (Nat.succ.inj hlength)
              ((List.mem_cons.mp hname).resolve_left hx)
            exact ⟨v', by rw [beq_false_of_ne hx]; exact hv'⟩

/-- In the zip of columns and their defaults every column is found with its default. -/
theorem lookup_zip_default {columns : List Column} (hnodup : (columns.map Column.name).Nodup)
    {c : Column} (hc : c ∈ columns) :
    ((columns.map Column.name).zip (columns.map Column.default)).lookup c.name =
      some c.default := by
  induction columns with
  | nil => cases hc
  | cons x columns ih =>
      rw [List.map_cons, List.map_cons, List.zip_cons_cons, List.lookup_cons]
      rw [List.map_cons, List.nodup_cons] at hnodup
      rcases List.mem_cons.mp hc with rfl | hc
      · simp
      · have hne : c.name ≠ x.name := fun h =>
          hnodup.1 (h ▸ List.mem_map_of_mem hc)
        rw [beq_false_of_ne hne]
        exact ih hnodup.2 hc

theorem lookup_eq_none_of_notMem {names : List String} {values : List SqlValue} {name : String}
    (hname : name ∉ names) : (names.zip values).lookup name = none := by
  rw [List.lookup_eq_none_iff]
  intro p hp
  have hfst : p.1 ∈ names := (List.of_mem_zip hp).1
  have hne : name ≠ p.1 := fun heq => hname (heq ▸ hfst)
  simpa using hne

/-- **A cell that was there stays**, in the row that grew out of its row. -/
theorem GrowsBy.cell_eq (h : t.GrowsBy t' new) {row : List SqlValue} (hrow : row ∈ t.rows)
    {name : String} (hname : name ∈ t.names) :
    t'.cell (row ++ new.map Column.default) name = t.cell row name := by
  have hlength : row.length = t.names.length := by
    unfold StoredTable.names
    rw [t.width row hrow, List.length_map]
  obtain ⟨v, hv⟩ := exists_lookup_zip hlength hname
  unfold cell
  rw [h.names, List.zip_append hlength.symm, List.lookup_append, hv]
  rfl

/-- **A column that was missing reads as its default.** -/
theorem GrowsBy.cell_new (h : t.GrowsBy t' new) (hnodup : (new.map Column.name).Nodup)
    {row : List SqlValue} (hrow : row ∈ t.rows) {c : Column} (hc : c ∈ new)
    (hname : c.name ∉ t.names) :
    t'.cell (row ++ new.map Column.default) c.name = some c.default := by
  have hlength : row.length = t.names.length := by
    unfold StoredTable.names
    rw [t.width row hrow, List.length_map]
  unfold cell
  rw [h.names, List.zip_append hlength.symm, List.lookup_append,
    lookup_eq_none_of_notMem hname, Option.none_or, lookup_zip_default hnodup hc]

end StoredTable

/-! ## Statements -/

/-- A database: the webhooks table, if there is one, and the names of its indexes. -/
structure Database where
  table : Option StoredTable
  indexes : List String

/-- The statements of the migration. -/
inductive Ddl : Type where
  | createTable
  | createIndex (name column : String)
  | tableInfo
  | addColumn (c : Column)
  deriving DecidableEq

/-- A row of the column listing, field by field. -/
abbrev InfoRow : Type := List (String × SqlValue)

abbrev Ddl.Answer : Ddl → Type
  | .tableInfo => List InfoRow
  | .createTable => Unit
  | .createIndex _ _ => Unit
  | .addColumn _ => Unit

def Column.infoRow (c : Column) : InfoRow :=
  [("name", .text c.name), ("type", .text c.declaredType),
   ("notnull", .int (if c.notNull then 1 else 0))]

/-- A generic error of the database. -/
def sqliteError (text : String) : SqlxError :=
  .database (some "1") ("error returned from database: (code: 1) " ++ text)

/-- Execute a statement; `duplicate` is the error for a column that is already there. -/
def Ddl.execute (duplicate : String → SqlxError) :
    (q : Ddl) → Database → Except SqlxError q.Answer × Database
  | .createTable, db => (.ok (), { db with table := some (db.table.getD .created) })
  | .createIndex name column, db =>
      match db.table with
      | none => (.error (sqliteError "no such table: main.webhooks"), db)
      | some t =>
          if name ∈ db.indexes then (.ok (), db)
          else if column ∈ t.names then (.ok (), { db with indexes := db.indexes ++ [name] })
          else (.error (sqliteError ("table webhooks has no column named " ++ column)), db)
  | .tableInfo, db => (.ok ((db.table.map fun t => t.columns.map Column.infoRow).getD []), db)
  | .addColumn c, db =>
      match db.table with
      | none => (.error (sqliteError "no such table: webhooks"), db)
      | some t =>
          if c.name ∈ t.names then (.error (duplicate c.name), db)
          else if c.notNull = true ∧ c.default = .null then
            (.error (sqliteError "Cannot add a NOT NULL column with default value NULL"), db)
          else (.ok (), { db with table := some (t.addColumn c) })

/-- Perform a call of the migration.  It makes no others than statements, clock readings and
pauses. -/
def performDdl (duplicate : String → SqlxError) : (c : Call Ddl) → Input → Database →
    Call.Answer Ddl.Answer c × Database
  | .sql q, i, db =>
      match i.fault with
      | some e => (.error e, db)
      | none => q.execute duplicate db
  | .instantNow, i, db => (i.instant, db)
  | .systemNow, i, db => (i.unixSeconds, db)
  | .subsecNanos, i, db => (i.nanos, db)
  | .sleep _, _, db => ((), db)
  | .send _ _, i, db => (i.answers 0, db)
  | .readStatus _, _, db => (none, db)
  | .updateStatus _ _, _, db => (false, db)
  | .logError _, _, db => ((), db)

/-! ## What a statement does to the table -/

namespace Database

/-- The table has a column of this name. -/
def Has (db : Database) (name : String) : Prop := ∃ t, db.table = some t ∧ name ∈ t.names

/-- The table a migration starts from: the one that is there, or a new one. -/
def startTable (db : Database) : StoredTable := db.table.getD .created

/-- The table is not lost, and it grew out of the one `db₀` started from by columns among the
added ones, none of them twice. -/
structure GrownFrom (db₀ db : Database) : Prop where
  kept : db₀.table.isSome → db.table.isSome
  grown : ∀ t, db.table = some t →
    ∃ new, db₀.startTable.GrowsBy t new ∧ (∀ c ∈ new, c ∈ addedColumns) ∧ t.names.Nodup

end Database

namespace Ddl

variable {duplicate : String → SqlxError} {db : Database}

/-- **Everything a statement can do to the table**: nothing, make it, or add a column that was
not there. -/
theorem execute_cases (duplicate : String → SqlxError) (q : Ddl) (db : Database) :
    (q.execute duplicate db).2.table = db.table ∨
    (q = .createTable ∧ db.table = none ∧ (q.execute duplicate db).2.table = some .created) ∨
    (∃ c t, q = .addColumn c ∧ db.table = some t ∧ c.name ∉ t.names ∧
      (q.execute duplicate db).2.table = some (t.addColumn c)) := by
  cases q with
  | createTable =>
      cases htable : db.table with
      | none => exact Or.inr (Or.inl ⟨rfl, rfl, by simp [execute, htable]⟩)
      | some t => exact Or.inl (by simp [execute, htable])
  | createIndex name column =>
      left
      unfold execute
      dsimp only
      split
      · rfl
      · split_ifs <;> rfl
  | tableInfo => exact Or.inl rfl
  | addColumn c =>
      unfold execute
      dsimp only
      split
      · exact Or.inl rfl
      · rename_i t htable
        split_ifs with hthere hnull
        · exact Or.inl rfl
        · exact Or.inl rfl
        · exact Or.inr (Or.inr ⟨c, t, rfl, htable, hthere, rfl⟩)

/-- No statement removes the table. -/
theorem isSome_execute (q : Ddl) (h : db.table.isSome) :
    (q.execute duplicate db).2.table.isSome := by
  rcases execute_cases duplicate q db with htable | ⟨-, -, htable⟩ | ⟨c, t, -, -, -, htable⟩ <;>
    rw [htable]
  · exact h
  · rfl
  · rfl

/-- No statement removes a column. -/
theorem has_execute (q : Ddl) {name : String} (h : db.Has name) :
    (q.execute duplicate db).2.Has name := by
  obtain ⟨t, ht, hname⟩ := h
  rcases execute_cases duplicate q db with htable | ⟨-, hnone, -⟩ | ⟨c, t', -, ht', -, htable⟩
  · exact ⟨t, htable.trans ht, hname⟩
  · cases hnone.symm.trans ht
  · obtain rfl : t' = t := Option.some.inj (ht'.symm.trans ht)
    refine ⟨_, htable, ?_⟩
    rw [StoredTable.names_addColumn]
    exact List.mem_append_left _ hname

/-- **A growing table goes on growing** under statements that add only the added columns. -/
theorem grownFrom_execute {db₀ : Database} (h : db₀.GrownFrom db) (q : Ddl)
    (hcolumn : ∀ c, q = .addColumn c → c ∈ addedColumns) :
    db₀.GrownFrom (q.execute duplicate db).2 := by
  refine ⟨fun hsome => isSome_execute q (h.kept hsome), fun t' ht' => ?_⟩
  rcases execute_cases duplicate q db with
    htable | ⟨-, hnone, htable⟩ | ⟨c, t, hq, ht, hname, htable⟩
  · exact h.grown t' (htable.symm.trans ht')
  · obtain rfl : StoredTable.created = t' := Option.some.inj (htable.symm.trans ht')
    have hstart : db₀.table = none := by
      by_contra hsome
      have hkept := h.kept (Option.isSome_iff_ne_none.mpr hsome)
      simp [hnone] at hkept
    refine ⟨[], ?_, by simp, by decide⟩
    unfold Database.startTable
    rw [hstart]
    exact StoredTable.growsBy_refl _
  · obtain rfl : t.addColumn c = t' := Option.some.inj (htable.symm.trans ht')
    obtain ⟨new, hgrows, hnew, hnodup⟩ := h.grown t ht
    refine ⟨new ++ [c], hgrows.addColumn c, ?_, ?_⟩
    · intro x hx
      rcases List.mem_append.mp hx with hx | hx
      · exact hnew x hx
      · rw [List.mem_singleton.mp hx]
        exact hcolumn c hq
    · rw [StoredTable.names_addColumn, List.nodup_append]
      refine ⟨hnodup, List.nodup_singleton _, ?_⟩
      rintro a ha b hb rfl
      exact hname (List.mem_singleton.mp hb ▸ ha)

end Ddl
