/-
# The migration of an instance

At startup an instance creates the schema, lists the columns of the table and adds those it
did not see.  Another instance may do so at the same time: the listing may be stale, so "the
column is already there" has to pass for success.

Whatever its calls are answered, an instance keeps to a protocol (`obeys_migrate`): it adds
indexes and columns only once the table was made, and it returns `Ok` only when every added
column was seen, added, or reported to be there.
-/
import KaimanWebhooks.Schema
import KaimanWebhooks.Repository
import KaimanWebhooks.Interleaving

/-- A program over the statements of the migration. -/
abbrev Migration (α : Type) : Type := Prog Ddl.Answer α

/-- An answered call of a migration. -/
abbrev MigrationCall : Type := CallProgram.Done (Call Ddl) (Call.Answer Ddl.Answer)

/-- An error of the driver with what was being done. -/
structure MigrateError where
  context : String
  source : SqlxError

/-- The message is all that tells a column added twice from other errors. -/
def isDuplicateColumn (error : SqlxError) : Bool :=
  decide ("duplicate column".toList <:+: error.text.toList)

/-- The name in a row of the column listing. -/
def tryGetName (row : InfoRow) : Except SqlxError String :=
  match row.lookup "name" with
  | some (.text name) => .ok name
  | some _ => .error (.other "error occurred while decoding column \"name\"")
  | none => .error (.other "no column found for name: name")

namespace Sqlite

variable (db : Sqlite)

/-- Repeat an attempt while the database is locked. -/
def retryMigration {T : Type} (attempt : Migration (Except SqlxError T)) :
    Migration (Except SqlxError T) :=
  retryOnLocked db.ext.float db.retry attempt

/-- The statements of the schema, one after the other; each commits on its own. -/
def createSchema : Migration (Except SqlxError Unit) :=
  (Prog.sql Ddl.createTable).bind fun
    | .error e => .pure (.error e)
    | .ok _ =>
        (Prog.sql (Ddl.createIndex "idx_webhooks_channel" "channel")).bind fun
          | .error e => .pure (.error e)
          | .ok _ => Prog.sql (Ddl.createIndex "idx_webhooks_received_at" "received_at")

/-- The names of the columns the table has now. -/
def existingColumns : Migration (Except MigrateError (List String)) :=
  (db.retryMigration (Prog.sql Ddl.tableInfo)).bind fun
    | .error e => .pure (.error ⟨"failed to read webhooks table info", e⟩)
    | .ok rows =>
        match rows.mapM tryGetName with
        | .error e => .pure (.error ⟨"unexpected PRAGMA table_info layout", e⟩)
        | .ok columns => .pure (.ok columns)

/-- Add a column; that it is already there is success. -/
def addColumn (c : Column) : Migration (Except MigrateError Unit) :=
  (db.retryMigration (Prog.sql (Ddl.addColumn c))).bind fun
    | .ok _ => .pure (.ok ())
    | .error e =>
        if isDuplicateColumn e then .pure (.ok ())
        else .pure (.error ⟨"failed to add column " ++ c.name ++ " to webhooks", e⟩)

/-- Add the columns that were not seen. -/
def addMissing (existing : List String) : List Column → Migration (Except MigrateError Unit)
  | [] => .pure (.ok ())
  | c :: columns =>
      if existing.contains c.name then addMissing existing columns
      else
        (db.addColumn c).bind fun
          | .error e => .pure (.error e)
          | .ok _ => addMissing existing columns

/-- Bring the table to the current schema. -/
def migrate : Migration (Except MigrateError Unit) :=
  (db.retryMigration createSchema).bind fun
    | .error e => .pure (.error ⟨"failed to create webhooks schema", e⟩)
    | .ok _ =>
        db.existingColumns.bind fun
          | .error e => .pure (.error e)
          | .ok existing => db.addMissing existing addedColumns

end Sqlite

/-! ## What the answered calls of an instance tell -/

/-- The call found a column of this name, added it, or was told that it is there. -/
def Confirms (name : String) : MigrationCall → Prop
  | ⟨.sql .tableInfo, .ok rows⟩ => ∃ names, rows.mapM tryGetName = .ok names ∧ name ∈ names
  | ⟨.sql (.addColumn c), .ok _⟩ => c.name = name
  | ⟨.sql (.addColumn c), .error e⟩ => c.name = name ∧ isDuplicateColumn e = true
  | _ => False

/-- The table was made, or was already there. -/
def TableMade (past : List MigrationCall) : Prop :=
  (⟨.sql .createTable, .ok ()⟩ : MigrationCall) ∈ past

/-- Some call of the past confirms a column of this name. -/
def Confirmed (past : List MigrationCall) (name : String) : Prop := ∃ d ∈ past, Confirms name d

/-- The last attempt of a statement: clock readings and pauses do not count. -/
def lastAttempt (past : List MigrationCall) : Option MigrationCall :=
  past.find? fun d => !d.1.isTiming

/-- The last attempt of a statement failed, and not because the column is already there. -/
def Refused (past : List MigrationCall) : Prop :=
  ∃ q e, lastAttempt past = some ⟨.sql q, .error e⟩ ∧
    ¬∃ c, q = .addColumn c ∧ isDuplicateColumn e = true

/-- **The protocol of a migration**: an index or a column is added only once the table was
made, and only the added columns are. -/
def Permitted (past : List MigrationCall) : Call Ddl → Prop
  | .sql (.createIndex _ column) => TableMade past ∧ column ∈ createdColumns.map Column.name
  | .sql (.addColumn c) => TableMade past ∧ c ∈ addedColumns
  | _ => True

/-- What holds when a migration returns. -/
def Achieved (past : List MigrationCall) : Except MigrateError Unit → Prop
  | .ok _ => ∀ c ∈ addedColumns, Confirmed past c.name
  | .error _ => Refused past

section Obeys

variable {duplicate : String → SqlxError} {db : Sqlite} {past past' : List MigrationCall}

theorem permitted_of_isTiming {c : Call Ddl} (h : c.isTiming = true) : Permitted past c := by
  cases c <;> trivial

theorem TableMade.of_suffix (h : TableMade past) (hs : past <:+ past') : TableMade past' :=
  hs.subset h

theorem Confirmed.of_suffix {name : String} (h : Confirmed past name) (hs : past <:+ past') :
    Confirmed past' name := by
  obtain ⟨d, hd, hname⟩ := h
  exact ⟨d, hs.subset hd, hname⟩

theorem refused_of_error {q : Ddl} {e : SqlxError}
    (h : ¬∃ c, q = .addColumn c ∧ isDuplicateColumn e = true) :
    Refused ((⟨.sql q, .error e⟩ : MigrationCall) :: past) := ⟨q, e, rfl, h⟩

/-- Clock readings and pauses after a refusal change nothing about it. -/
theorem Refused.after (h : Refused past) {after : List MigrationCall}
    (hafter : ∀ d ∈ after, d.1.isTiming = true) : Refused (after ++ past) := by
  obtain ⟨q, e, hlast, he⟩ := h
  have hnone : after.find? (fun d => !d.1.isTiming) = none := by
    rw [List.find?_eq_none]
    intro d hd
    simp [hafter d hd]
  refine ⟨q, e, ?_, he⟩
  unfold lastAttempt at hlast ⊢
  rw [List.find?_append, hnone, Option.none_or, hlast]

/-- The machine of the instances: each runs the migration, and any number may be started. -/
def migrationMachine (duplicate : String → SqlxError) (db : Sqlite) :
    TaskMachine (Call Ddl) (Call.Answer Ddl.Answer) (Except MigrateError Unit) Unit Input
      Database where
  perform := performDdl duplicate
  start := fun _ => db.migrate
  mayStart := fun _ _ => true

/-- The answers of the database to a migration. -/
abbrev DdlAnswers (duplicate : String → SqlxError) (db : Sqlite) :
    (c : Call Ddl) → Call.Answer Ddl.Answer c → Prop :=
  (migrationMachine duplicate db).Answers

/-- The names of a column listing can be read. -/
theorem mapM_infoRow (columns : List Column) :
    (columns.map Column.infoRow).mapM tryGetName = .ok (columns.map Column.name) := by
  induction columns with
  | nil => rfl
  | cons c columns ih =>
      rw [List.map_cons, List.mapM_cons, ih]
      rfl

theorem exists_names_of_answers {rows : List InfoRow}
    (h : DdlAnswers duplicate db (.sql .tableInfo) (.ok rows)) :
    ∃ names, rows.mapM tryGetName = .ok names := by
  obtain ⟨i, s, hanswer⟩ := h
  dsimp only [migrationMachine, performDdl] at hanswer
  cases hfault : i.fault with
  | some e =>
      rw [hfault] at hanswer
      cases hanswer
  | none =>
      rw [hfault] at hanswer
      cases htable : s.table with
      | none =>
          simp only [Ddl.execute, htable, Option.map_none, Option.getD_none, Except.ok.injEq]
            at hanswer
          exact ⟨[], by rw [← hanswer]; rfl⟩
      | some t =>
          simp only [Ddl.execute, htable, Option.map_some, Option.getD_some, Except.ok.injEq]
            at hanswer
          exact ⟨_, by rw [← hanswer]; exact mapM_infoRow t.columns⟩

/-- The schema batch ends with the table made. -/
theorem obeys_createSchema :
    (db.retryMigration Sqlite.createSchema).Obeys (DdlAnswers duplicate db) Permitted
      (fun past result =>
        match result with
        | .ok _ => TableMade past
        | .error _ => Refused past) past := by
  refine obeys_retryOnLocked (I := fun _ => True) ?_ ?_ ?_ trivial
  · exact fun _ _ _ hc => ⟨permitted_of_isTiming hc, fun _ => trivial⟩
  · intro past _
    refine ⟨trivial, ?_⟩
    rintro (e | u) -
    · exact ⟨refused_of_error (by simp), fun _ _ => trivial⟩
    · have hmade : ∀ calls,
          TableMade (calls ++ (⟨.sql .createTable, .ok u⟩ : MigrationCall) :: past) :=
        fun calls => List.mem_append_right _ List.mem_cons_self
      refine ⟨⟨hmade [], by decide⟩, ?_⟩
      rintro (e | u') -
      · exact ⟨refused_of_error (by simp), fun _ _ => trivial⟩
      · refine ⟨⟨hmade [_], by decide⟩, ?_⟩
        rintro (e | u'') -
        · exact ⟨refused_of_error (by simp), fun _ _ => trivial⟩
        · exact ⟨hmade [_, _], fun _ _ => trivial⟩
  · intro past c r e _ hc hrefused
    have hone : ∀ d ∈ [(⟨c, r⟩ : MigrationCall)], d.1.isTiming = true := by simpa using hc
    exact hrefused.after hone

/-- The listing confirms the names it returns. -/
theorem obeys_existingColumns :
    db.existingColumns.Obeys (DdlAnswers duplicate db) Permitted
      (fun past result =>
        match result with
        | .ok names => ∀ name ∈ names, Confirmed past name
        | .error _ => Refused past) past := by
  unfold Sqlite.existingColumns Sqlite.retryMigration
  rw [CallProgram.obeys_bind]
  refine obeys_retryOnLocked_sql (fun _ _ => permitted_of_isTiming) (fun _ _ => trivial) ?_ ?_
  · intro new rows ha hnew
    obtain ⟨names, hnames⟩ := exists_names_of_answers ha
    dsimp only
    rw [hnames]
    exact fun name hname => ⟨_, List.mem_cons_self, names, hnames, hname⟩
  · intro after e new hafter _ _
    exact (refused_of_error (by simp)).after hafter

/-- Adding a column confirms it. -/
theorem obeys_addColumn {c : Column} (hmade : TableMade past) (hc : c ∈ addedColumns) :
    (db.addColumn c).Obeys (DdlAnswers duplicate db) Permitted
      (fun past result =>
        match result with
        | .ok _ => Confirmed past c.name
        | .error _ => Refused past) past := by
  unfold Sqlite.addColumn Sqlite.retryMigration
  rw [CallProgram.obeys_bind]
  refine obeys_retryOnLocked_sql (fun _ _ => permitted_of_isTiming)
    (fun new _ => ⟨List.mem_append_right new hmade, hc⟩) ?_ ?_
  · exact fun new u _ _ => ⟨_, List.mem_cons_self, rfl⟩
  · intro after e new hafter _ _
    dsimp only
    split
    · rename_i hduplicate
      exact ⟨_, List.mem_append_right _ List.mem_cons_self, rfl, hduplicate⟩
    · rename_i hother
      refine (refused_of_error ?_).after hafter
      rintro ⟨_, -, hduplicate⟩
      exact hother hduplicate

/-- Adding what was not seen confirms every column. -/
theorem obeys_addMissing {existing : List String} {columns : List Column}
    (hcolumns : ∀ c ∈ columns, c ∈ addedColumns) (hmade : TableMade past)
    (hexisting : ∀ name ∈ existing, Confirmed past name) :
    (db.addMissing existing columns).Obeys (DdlAnswers duplicate db) Permitted
      (fun past result =>
        match result with
        | .ok _ => ∀ c ∈ columns, Confirmed past c.name
        | .error _ => Refused past) past := by
  induction columns generalizing past with
  | nil => exact fun c hc => absurd hc List.not_mem_nil
  | cons c columns ih =>
      have hrest : ∀ past', past <:+ past' → Confirmed past' c.name →
          (db.addMissing existing columns).Obeys (DdlAnswers duplicate db) Permitted
            (fun past result =>
              match result with
              | .ok _ => ∀ c' ∈ c :: columns, Confirmed past c'.name
              | .error _ => Refused past) past' := by
        intro past' hs hconfirmed
        refine (ih (fun x hx => hcolumns x (List.mem_cons_of_mem _ hx)) (hmade.of_suffix hs)
          fun name hname => (hexisting name hname).of_suffix hs).weaken (fun _ _ _ hP => hP) ?_
        rintro past'' (e | u) hs' hresult
        · exact hresult
        · exact List.forall_mem_cons.mpr ⟨hconfirmed.of_suffix hs', hresult⟩
      unfold Sqlite.addMissing
      split
      · rename_i hseen
        exact hrest past (List.suffix_refl past) (hexisting _ (by simpa using hseen))
      · rw [CallProgram.obeys_bind]
        refine (obeys_addColumn hmade (hcolumns c List.mem_cons_self)).weaken
          (fun _ _ _ hP => hP) ?_
        rintro past' (e | u) hs hresult
        · exact hresult
        · exact hrest past' hs hresult

/-- **Every instance keeps to the protocol**, and returns what it achieved. -/
theorem obeys_migrate :
    db.migrate.Obeys (DdlAnswers duplicate db) Permitted Achieved [] := by
  unfold Sqlite.migrate
  rw [CallProgram.obeys_bind]
  refine obeys_createSchema.weaken (fun _ _ _ hP => hP) ?_
  rintro past (e | u) - hschema
  · exact hschema
  · dsimp only
    rw [CallProgram.obeys_bind]
    refine obeys_existingColumns.weaken (fun _ _ _ hP => hP) ?_
    rintro past' (e | names) hs hnames
    · exact hnames
    · refine (obeys_addMissing (fun _ h => h) (hschema.of_suffix hs) hnames).weaken
        (fun _ _ _ hP => hP) ?_
      rintro past'' (e | u') - hresult <;> exact hresult

end Obeys
