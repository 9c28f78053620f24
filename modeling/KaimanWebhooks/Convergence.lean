/-
# Concurrent migration

Any number of instances migrate one database, their statements interleaved.  What an answered
call tells about the database stays true (`Tells.after`), so an instance that returned `Ok`
has made sure of every column, whoever added it; and a permitted statement fails only for a
lock or for a column that is there (`excused_performDdl`), so an instance that does not give
up on a lock returns `Ok`.
-/
import KaimanWebhooks.Migration

/-! ## What stays true of the database -/

/-- What an answered call tells about the database from then on. -/
def Tells (d : Database) (call : MigrationCall) : Prop :=
  (call = ⟨.sql .createTable, .ok ()⟩ → d.table.isSome) ∧
    ∀ name, Confirms name call → d.Has name

/-- The call did not fail, or failed with a lock error or because the column is there. -/
def Excused (call : MigrationCall) : Prop :=
  ∀ q e, call = ⟨.sql q, .error e⟩ →
    e.isRetryableLock = true ∨ ∃ c, q = .addColumn c ∧ isDuplicateColumn e = true

/-- A database a migration may find: without the table, or with the table as some version
left it, the original columns and any of the added ones. -/
def Startable (d : Database) : Prop :=
  ∀ t, d.table = some t → t.names.Nodup ∧ (∀ c ∈ createdColumns, c.name ∈ t.names) ∧
    ∀ name ∈ t.names, name ∈ columnNames

/-- Statements fail only because the database is locked, and no lock error reads like that of
a column added twice. -/
def LockFault (i : Input) : Prop :=
  ∀ e, i.fault = some e → e.isRetryableLock = true ∧ isDuplicateColumn e = false

section Steps

variable {duplicate : String → SqlxError} {d₀ d : Database} {i : Input}

theorem Startable.start (h : Startable d₀) :
    d₀.startTable.names.Nodup ∧ (∀ c ∈ createdColumns, c.name ∈ d₀.startTable.names) ∧
      ∀ name ∈ d₀.startTable.names, name ∈ columnNames := by
  unfold Database.startTable
  cases htable : d₀.table with
  | none => decide
  | some t => exact h t htable

theorem Startable.grownFrom (h : Startable d₀) : d₀.GrownFrom d₀ := by
  refine ⟨id, fun t ht => ⟨[], ?_, by simp, (h t ht).1⟩⟩
  unfold Database.startTable
  rw [ht]
  exact StoredTable.growsBy_refl t

/-- A table that grew has the original columns. -/
theorem Database.GrownFrom.has_created (h : d₀.GrownFrom d) (hstart : Startable d₀)
    {t : StoredTable} (ht : d.table = some t) {c : Column} (hc : c ∈ createdColumns) :
    c.name ∈ t.names := by
  obtain ⟨new, hgrows, -, -⟩ := h.grown t ht
  rw [hgrows.names]
  exact List.mem_append_left _ (hstart.start.2.1 c hc)

/-- Only a statement that commits changes the database. -/
theorem performDdl_cases (duplicate : String → SqlxError) (c : Call Ddl) (i : Input)
    (d : Database) :
    (performDdl duplicate c i d).2 = d ∨
      ∃ q, c = .sql q ∧ i.fault = none ∧
        (performDdl duplicate c i d).2 = (q.execute duplicate d).2 := by
  cases c with
  | sql q =>
      dsimp only [performDdl]
      cases hfault : i.fault with
      | some e => exact Or.inl rfl
      | none => exact Or.inr ⟨q, rfl, rfl, rfl⟩
  | _ => exact Or.inl rfl

/-- **What a call told stays true.** -/
theorem Tells.after {call : MigrationCall} (h : Tells d call) (c : Call Ddl) :
    Tells (performDdl duplicate c i d).2 call := by
  rcases performDdl_cases duplicate c i d with hsame | ⟨q, -, -, hexecute⟩
  · rwa [hsame]
  · rw [hexecute]
    exact ⟨fun hcall => Ddl.isSome_execute q (h.1 hcall),
      fun name hname => Ddl.has_execute q (h.2 name hname)⟩

/-- The answer of a statement that was executed tells the truth. -/
theorem tells_execute (q : Ddl) :
    Tells (q.execute duplicate d).2 ⟨.sql q, (q.execute duplicate d).1⟩ := by
  cases q with
  | createTable => exact ⟨fun _ => rfl, fun _ h => h.elim⟩
  | createIndex name column =>
      exact ⟨nofun, fun _ h => h.elim⟩
  | tableInfo =>
      refine ⟨nofun, ?_⟩
      rintro name ⟨names, hnames, hname⟩
      cases htable : d.table with
      | none =>
          rw [htable] at hnames
          cases hnames
          cases hname
      | some t =>
          rw [htable] at hnames
          have hread : names = t.names := Except.ok.inj (hnames.symm.trans (mapM_infoRow t.columns))
          exact ⟨t, htable, hread ▸ hname⟩
  | addColumn c =>
      refine ⟨nofun, ?_⟩
      intro name hconfirms
      unfold Ddl.execute at hconfirms ⊢
      dsimp only at hconfirms ⊢
      cases htable : d.table with
      | none =>
          rw [htable] at hconfirms
          exact absurd hconfirms.2 (by decide +kernel)
      | some t =>
          rw [htable] at hconfirms
          dsimp only at hconfirms ⊢
          split_ifs at hconfirms ⊢ with hthere hnull
          · exact ⟨t, htable, hconfirms.1 ▸ hthere⟩
          · exact absurd hconfirms.2 (by decide +kernel)
          · obtain rfl : c.name = name := hconfirms
            refine ⟨_, rfl, ?_⟩
            rw [StoredTable.names_addColumn]
            exact List.mem_append_right _ List.mem_cons_self

/-- **An answer tells the truth.** -/
theorem tells_performDdl (hfault : LockFault i) (c : Call Ddl) :
    Tells (performDdl duplicate c i d).2 ⟨c, (performDdl duplicate c i d).1⟩ := by
  cases c with
  | sql q =>
      dsimp only [performDdl]
      cases hf : i.fault with
      | none => exact tells_execute q
      | some e =>
          refine ⟨nofun, fun name hconfirms => ?_⟩
          cases q with
          | addColumn c => cases (hfault e hf).2.symm.trans hconfirms.2
          | _ => exact hconfirms.elim
  | _ => exact ⟨nofun, fun _ h => h.elim⟩

/-- **A permitted call fails only for a lock or a column that is there.** -/
theorem excused_performDdl (hduplicate : ∀ name, isDuplicateColumn (duplicate name) = true)
    (hstart : Startable d₀) (hgrown : d₀.GrownFrom d) (hfault : LockFault i)
    {past : List MigrationCall} (htold : ∀ call ∈ past, Tells d call) {c : Call Ddl}
    (hpermitted : Permitted past c) : Excused ⟨c, (performDdl duplicate c i d).1⟩ := by
  have htable : TableMade past → ∃ t, d.table = some t := fun hmade =>
    Option.isSome_iff_exists.mp ((htold _ hmade).1 rfl)
  intro q e hcall
  obtain ⟨rfl, hanswer⟩ := Sigma.mk.inj hcall
  have hanswer := eq_of_heq hanswer
  dsimp only [performDdl] at hanswer
  cases hf : i.fault with
  | some e' =>
      rw [hf] at hanswer
      cases hanswer
      exact Or.inl (hfault e hf).1
  | none =>
      rw [hf] at hanswer
      right
      cases q with
      | createTable => cases hanswer
      | tableInfo => cases hanswer
      | createIndex name column =>
          obtain ⟨hmade, hcolumn⟩ := hpermitted
          obtain ⟨t, ht⟩ := htable hmade
          obtain ⟨c, hc, rfl⟩ := List.mem_map.mp hcolumn
          have hthere := hgrown.has_created hstart ht hc
          simp only [Ddl.execute, ht, if_pos hthere] at hanswer
          split at hanswer <;> cases hanswer
      | addColumn c =>
          obtain ⟨hmade, hc⟩ := hpermitted
          obtain ⟨t, ht⟩ := htable hmade
          have hnull : ¬(c.notNull = true ∧ c.default = .null) := by
            have hall : ∀ c ∈ addedColumns, ¬(c.notNull = true ∧ c.default = .null) := by decide
            exact hall c hc
          simp only [Ddl.execute, ht, if_neg hnull] at hanswer
          split at hanswer
          · cases hanswer
            exact ⟨c, rfl, hduplicate c.name⟩
          · cases hanswer

end Steps

/-! ## Every interleaving converges -/

/-- The instances and the database they share. -/
abbrev MigrationState : Type :=
  TaskSystem (Call Ddl) (Call.Answer Ddl.Answer) (Except MigrateError Unit) Unit Database

abbrev Instance : Type :=
  TaskState (Call Ddl) (Call.Answer Ddl.Answer) (Except MigrateError Unit) Unit

/-- The state before the first instance starts. -/
def Database.initial (d₀ : Database) : MigrationState := ⟨d₀, [], []⟩

/-- The events of a run in which statements fail only for a lock. -/
def OnlyLocks (_ : MigrationState) : TaskEvent Unit Input → Prop
  | .spawn _ => True
  | .advance _ i => LockFault i

/-- The instance has returned although the last attempt of a statement hit a lock: its
lock-retry limits are exhausted. -/
def Instance.GaveUp (t : Instance) : Prop :=
  (∃ result, t.rest = .pure result) ∧
    ∃ q e, lastAttempt t.past = some ⟨.sql q, .error e⟩ ∧ e.isRetryableLock = true

/-- What holds along a run from `d₀`. -/
structure Migrating (d₀ : Database) (s : MigrationState) : Prop where
  grown : d₀.GrownFrom s.shared
  told : ∀ t ∈ s.tasks, ∀ call ∈ t.past, Tells s.shared call
  excused : ∀ t ∈ s.tasks, ∀ call ∈ t.past, Excused call

/-- Every instance makes at most so many calls: the schema batch, the listing and four columns,
each under the retry loop. -/
def migrationBound (policy : LockRetryPolicy) : ℕ :=
  let attempts := policy.maxAttempts - 1 + 1
  (attempts * 6 + 1) + (attempts * 4 + 1) + 4 * (attempts * 4 + 1)

/-- What a pre-existing row reads as in an added column it did not have. -/
def addedValue (name : String) : SqlValue := if name = "forward_attempts" then .int 0 else .null

/-- The row `row` of the table `t` is the row `row₀` of the table `t₀`, in the columns of `t₀`,
and reads as the default in the added columns `t₀` lacks. -/
def Preserved (t₀ t : StoredTable) (row₀ row : List SqlValue) : Prop :=
  (∀ name ∈ t₀.names, t.cell row name = t₀.cell row₀ name) ∧
    ∀ c ∈ addedColumns, c.name ∉ t₀.names → t.cell row c.name = some (addedValue c.name)

section Runs

variable {duplicate : String → SqlxError} {db : Sqlite} {d₀ : Database} {s : MigrationState}

/-- **One call keeps the invariant.** -/
theorem Migrating.advanced (hduplicate : ∀ name, isDuplicateColumn (duplicate name) = true)
    (hstart : Startable d₀) (h : Migrating d₀ s) {n : ℕ} {i : Input} (hfault : LockFault i)
    {t : Instance} (ht : s.tasks[n]? = some t) {c : Call Ddl}
    {next : Call.Answer Ddl.Answer c → Migration (Except MigrateError Unit)}
    (hpermitted : Permitted t.past c) :
    Migrating d₀ ((migrationMachine duplicate db).advanced s n t c next i) := by
  have hmem : t ∈ s.tasks := List.mem_of_getElem? ht
  have hpast : ∀ u ∈ ((migrationMachine duplicate db).advanced s n t c next i).tasks,
      ∀ call ∈ u.past, call = ⟨c, (performDdl duplicate c i s.shared).1⟩ ∨
        ∃ u' ∈ s.tasks, call ∈ u'.past := by
    intro u hu call hcall
    rcases List.mem_or_eq_of_mem_set hu with hu | rfl
    · exact Or.inr ⟨u, hu, hcall⟩
    · exact (List.mem_cons.mp hcall).imp_right fun hold => ⟨t, hmem, hold⟩
  refine ⟨?_, fun u hu call hcall => ?_, fun u hu call hcall => ?_⟩
  · show d₀.GrownFrom (performDdl duplicate c i s.shared).2
    rcases performDdl_cases duplicate c i s.shared with hsame | ⟨q, rfl, -, hexecute⟩
    · rw [hsame]
      exact h.grown
    · rw [hexecute]
      refine Ddl.grownFrom_execute h.grown q fun column hq => ?_
      subst hq
      exact hpermitted.2
  · rcases hpast u hu call hcall with rfl | ⟨u', hu', hold⟩
    · exact tells_performDdl hfault c
    · exact (h.told u' hu' call hold).after c
  · rcases hpast u hu call hcall with rfl | ⟨u', hu', hold⟩
    · exact excused_performDdl hduplicate hstart h.grown hfault (h.told t hmem) hpermitted
    · exact h.excused u' hu' call hold

/-- **The invariant holds along every run.** -/
theorem migrating_of_reaches (hduplicate : ∀ name, isDuplicateColumn (duplicate name) = true)
    (hstart : Startable d₀)
    (h : (migrationMachine duplicate db).Reaches OnlyLocks d₀.initial s) : Migrating d₀ s := by
  refine h.invariant_of_protocol (P := fun _ => Permitted) (Q := fun _ => Achieved)
    (Migrating d₀) ?_ ?_ (fun _ => obeys_migrate) ?_ ?_
  · exact ⟨hstart.grownFrom, by simp [Database.initial], by simp [Database.initial]⟩
  · intro t ht
    cases ht
  · intro s j hs _ _
    have hpast : ∀ t ∈ ((migrationMachine duplicate db).spawned s j).tasks,
        t ∈ s.tasks ∨ t.past = [] := by
      intro t ht
      rcases List.mem_append.mp ht with ht | ht
      · exact Or.inl ht
      · exact Or.inr (by rw [List.mem_singleton.mp ht])
    refine ⟨hs.grown, fun t ht call hcall => ?_, fun t ht call hcall => ?_⟩
    · rcases hpast t ht with ht | hnil
      · exact hs.told t ht call hcall
      · rw [hnil] at hcall
        cases hcall
    · rcases hpast t ht with ht | hnil
      · exact hs.excused t ht call hcall
      · rw [hnil] at hcall
        cases hcall
  · intro s n i t c k hs hok ht hr hpermitted
    exact hs.advanced hduplicate hstart hok ht hpermitted

/-- Every wait of the default schedule can be computed. -/
theorem backoffAfter_isSome (hretry : db.retry = LockRetryPolicy.default) (number nanos : ℕ) :
    (db.retry.backoffAfter db.ext.float number nanos).isSome := by
  rw [hretry]
  exact backoffAfter_default_isSome db.ext.float number nanos

/-- One statement of a migration returns, within the attempts it has. -/
theorem within_retryMigration_sql (hretry : db.retry = LockRetryPolicy.default) (q : Ddl) :
    (db.retryMigration (Prog.sql q)).Within ((db.retry.maxAttempts - 1 + 1) * 4 + 1) :=
  within_retryOnLocked (k := 1) (fun _ => by simp) (backoffAfter_isSome hretry)

/-- The columns are added one by one, each within its attempts. -/
theorem within_addMissing (hretry : db.retry = LockRetryPolicy.default) (existing : List String)
    (columns : List Column) : (db.addMissing existing columns).Within
      (columns.length * ((db.retry.maxAttempts - 1 + 1) * 4 + 1)) := by
  induction columns with
  | nil => simp [Sqlite.addMissing]
  | cons c columns ih =>
      rw [List.length_cons, Nat.succ_mul]
      unfold Sqlite.addMissing
      split
      · -- the column is there, and no statement is sent
        exact ih.mono (by omega)
      · rw [Nat.add_comm]
        refine CallProgram.Within.bind ?_ ?_
        · refine ((within_retryMigration_sql hretry (.addColumn c)).bind (n := 0) ?_).mono
            (by omega)
          rintro (e | u)
          · dsimp only
            split <;> simp
          · simp
        · rintro (e | u)
          · simp
          · exact ih

/-- A migration returns within its bound, whatever the database answers. -/
theorem within_migrate (hretry : db.retry = LockRetryPolicy.default) :
    db.migrate.Within (migrationBound db.retry) := by
  have hschema : (db.retryMigration Sqlite.createSchema).Within
      ((db.retry.maxAttempts - 1 + 1) * 6 + 1) := by
    refine within_retryOnLocked (k := 3) ?_ (backoffAfter_isSome hretry)
    rintro (e | u)
    · simp
    · rintro (e | u')
      · simp
      · exact fun _ => by simp
  unfold Sqlite.migrate migrationBound
  rw [Nat.add_assoc]
  refine hschema.bind ?_
  rintro (e | u)
  · simp
  · dsimp only
    refine CallProgram.Within.bind ?_ ?_
    · refine ((within_retryMigration_sql hretry .tableInfo).bind (n := 0) ?_).mono (by omega)
      rintro (e | rows)
      · simp
      · dsimp only
        split <;> simp
    · rintro (e | names)
      · simp
      · exact within_addMissing hretry names addedColumns

/-- **An instance that does not give up returns `Ok`** when it returns, and has seen or added
every column. -/
theorem Migrating.ok_of_returned (h : Migrating d₀ s) {t : Instance} (ht : t ∈ s.tasks)
    {result : Except MigrateError Unit} (hresult : t.rest = .pure result)
    (hachieved : Achieved t.past result) (hlimits : ¬t.GaveUp) :
    result = .ok () ∧ ∀ c ∈ addedColumns, s.shared.Has c.name := by
  cases result with
  | ok u =>
      refine ⟨rfl, fun c hc => ?_⟩
      obtain ⟨call, hcall, hconfirms⟩ := hachieved c hc
      exact (h.told t ht call hcall).2 c.name hconfirms
  | error e =>
      obtain ⟨q, e', hlast, hrefused⟩ := hachieved
      have hmem := List.mem_of_find?_eq_some hlast
      rcases h.excused t ht _ hmem q e' rfl with hlock | hduplicate
      · exact absurd ⟨⟨_, hresult⟩, q, e', hlast, hlock⟩ hlimits
      · exact absurd hduplicate hrefused

/-- **A table with every added column is the table the migration is to leave.** -/
theorem Database.GrownFrom.final (h : d₀.GrownFrom s.shared) (hstart : Startable d₀)
    (hall : ∀ c ∈ addedColumns, s.shared.Has c.name) :
    ∃ final, s.shared.table = some final ∧ final.names.Perm columnNames ∧
      List.Forall₂ (Preserved d₀.startTable final) d₀.startTable.rows final.rows := by
  obtain ⟨final, hfinal, -⟩ := hall _ List.mem_cons_self
  obtain ⟨new, hgrows, hnew, hnodup⟩ := h.grown final hfinal
  have hadded : ∀ c ∈ addedColumns, c.name ∈ final.names := by
    intro c hc
    obtain ⟨t, ht, hname⟩ := hall c hc
    cases hfinal.symm.trans ht
    exact hname
  have hnames := hgrows.names
  refine ⟨final, hfinal, ?_, ?_⟩
  · refine (List.perm_ext_iff_of_nodup hnodup nodup_columnNames).mpr fun name => ⟨?_, ?_⟩
    · intro hname
      rw [hnames] at hname
      rcases List.mem_append.mp hname with hname | hname
      · exact hstart.start.2.2 name hname
      · obtain ⟨c, hc, rfl⟩ := List.mem_map.mp hname
        exact List.mem_map_of_mem (List.mem_append_right _ (hnew c hc))
    · intro hname
      obtain ⟨c, hc, rfl⟩ := List.mem_map.mp hname
      rcases List.mem_append.mp hc with hc | hc
      · exact h.has_created hstart hfinal hc
      · exact hadded c hc
  · rw [hgrows.rows, List.forall₂_map_right_iff, List.forall₂_same]
    intro row hrow
    refine ⟨fun name hname => hgrows.cell_eq hrow hname, fun c hc hmissing => ?_⟩
    have hvalue : ∀ c ∈ addedColumns, c.default = addedValue c.name := by decide
    have hcnew : c ∈ new := by
      have hmem := hadded c hc
      rw [hnames] at hmem
      obtain ⟨c', hc', hsame⟩ := List.mem_map.mp ((List.mem_append.mp hmem).resolve_left hmissing)
      have hinj : (addedColumns.map Column.name).Nodup := by decide
      rwa [List.inj_on_of_nodup_map hinj (hnew c' hc') hc hsame] at hc'
    rw [hnames] at hnodup
    rw [← hvalue c hc]
    exact hgrows.cell_new (List.nodup_append.mp hnodup).2.1 hrow hcnew hmissing

/-- **Concurrent migration converges and preserves data.**  In every run of any number of
instances on a database a migration may find, in which statements fail only for a lock and no
instance exhausts its limits, every instance returns `Ok` within a fixed number of calls; and
once one has returned, the table has each of the nine columns exactly once and every row that
was there, with its values and the defaults of the columns it did not have. -/
theorem migrate_converges (hduplicate : ∀ name, isDuplicateColumn (duplicate name) = true)
    (hretry : db.retry = LockRetryPolicy.default) (hstart : Startable d₀)
    (h : (migrationMachine duplicate db).Reaches OnlyLocks d₀.initial s)
    (hlimits : ∀ t ∈ s.tasks, ¬Instance.GaveUp t) :
    (∀ t ∈ s.tasks, t.past.length ≤ migrationBound db.retry ∧
      (t.rest = .pure (.ok ()) ∨ ∃ c next, t.rest = .call c next)) ∧
    ((∃ t ∈ s.tasks, ∃ result, t.rest = .pure result) →
      ∃ final, s.shared.table = some final ∧ final.names.Perm columnNames ∧
        List.Forall₂ (Preserved d₀.startTable final) d₀.startTable.rows final.rows) := by
  have hmigrating := migrating_of_reaches hduplicate hstart h
  have hobey := h.tasksObey (P := fun _ => Permitted) (Q := fun _ => Achieved)
    (fun t ht => absurd ht List.not_mem_nil) fun _ => obeys_migrate
  have hreturned : ∀ t ∈ s.tasks, ∀ result, t.rest = .pure result →
      result = .ok () ∧ ∀ c ∈ addedColumns, s.shared.Has c.name := by
    intro t ht result hresult
    have hachieved := hobey t ht
    rw [hresult] at hachieved
    exact hmigrating.ok_of_returned ht hresult hachieved (hlimits t ht)
  refine ⟨fun t ht => ?_, ?_⟩
  · obtain ⟨m, hm, hwithin⟩ := h.within rfl (fun _ => within_migrate hretry) t ht
    refine ⟨by omega, ?_⟩
    cases hrest : t.rest with
    | pure result => exact Or.inl (by rw [(hreturned t ht result hrest).1])
    | call c next => exact Or.inr ⟨c, next, rfl⟩
    | panic m' => simp [hrest] at hwithin
  · rintro ⟨t, ht, result, hresult⟩
    exact hmigrating.grown.final hstart (hreturned t ht result hresult).2

end Runs

/-! ## Two instances on an old database -/

/-- The error the database reports for a column that is already there. -/
def duplicateColumn (name : String) : SqlxError := sqliteError ("duplicate column name: " ++ name)

theorem isDuplicateColumn_duplicateColumn (name : String) :
    isDuplicateColumn (duplicateColumn name) = true := by
  unfold isDuplicateColumn duplicateColumn sqliteError SqlxError.text
  rw [decide_eq_true_eq]
  refine ⟨"error returned from database: (code: 1) ".toList, (" name: " ++ name).toList, ?_⟩
  simp

instance (i : Input) : Decidable (LockFault i) :=
  match h : i.fault with
  | none => isTrue fun e he => by cases h.symm.trans he
  | some e =>
      decidable_of_iff (e.isRetryableLock = true ∧ isDuplicateColumn e = false)
        ⟨fun hlock e' he => by
          cases h.symm.trans he
          exact hlock, fun hlock => hlock e h⟩

instance (s : MigrationState) (e : TaskEvent Unit Input) : Decidable (OnlyLocks s e) :=
  match e with
  | .spawn _ => isTrue trivial
  | .advance _ i => inferInstanceAs (Decidable (LockFault i))

/-- The last attempt of a statement failed for a lock. -/
def lastIsLock (past : List MigrationCall) : Bool :=
  match lastAttempt past with
  | some ⟨.sql _, .error e⟩ => e.isRetryableLock
  | _ => false

theorem not_gaveUp {t : Instance} (h : lastIsLock t.past = false) : ¬t.GaveUp := by
  rintro ⟨-, q, e, hlast, hlock⟩
  unfold lastIsLock at h
  rw [hlast] at h
  cases h.symm.trans hlock

/-- A database with one of the added columns and a row. -/
def oldDatabase : Database where
  table := some
    { columns := createdColumns ++ [⟨"last_attempt_at", "INTEGER", false, .null⟩]
      rows := [[.int 1, .text "orders", .text "\x7b\x7d", .blob [123, 125], .int 1000, .int 1001]]
      width := by simp [createdColumns] }
  indexes := []

theorem startable_oldDatabase : Startable oldDatabase := by
  intro t ht
  cases ht
  decide

/-- The adapter of an instance with the default policy. -/
def Sqlite.small : Sqlite := ⟨External.plain, LockRetryPolicy.default⟩

/-- Two instances.  The first one hits a lock at the last statement of the schema and repeats
the batch; from then on they take turns, list the columns before either adds one, and the
second one adds each column after the first one did. -/
def migrationEvents : List (TaskEvent Unit Input) :=
  let calm := Input.calm 1002 200
  let locked := { calm with fault := some (.database (some "5") "database is locked") }
  [.spawn (), .spawn ()] ++ [calm, calm, calm, locked, calm, calm].map (.advance 0) ++
    (List.replicate 12 [.advance 0 calm, .advance 1 calm]).flatten

/-- One of two instances repeats the schema batch after a lock, and the other one adds each column
too late: both return, and the old row keeps what it held. -/
theorem migrate_converges_small :
    ∃ s : MigrationState, s.tasks.length = 2 ∧
      (∀ t ∈ s.tasks, t.past.length ≤ migrationBound Sqlite.small.retry ∧
        (t.rest = .pure (.ok ()) ∨ ∃ c next, t.rest = .call c next)) ∧
      ∃ final, s.shared.table = some final ∧ final.names.Perm columnNames ∧
        List.Forall₂ (Preserved oldDatabase.startTable final) oldDatabase.startTable.rows
          final.rows := by
  have hrun : ∃ s, (migrationMachine duplicateColumn Sqlite.small).runPermitted OnlyLocks
      oldDatabase.initial migrationEvents = some s ∧ s.tasks.length = 2 ∧
      ∀ t ∈ s.tasks, lastIsLock t.past = false ∧ TaskState.hasReturned t = true := by
    decide +kernel
  obtain ⟨s, hs, hlength, hreturned⟩ := hrun
  have hlimits : ∀ t ∈ s.tasks, ¬Instance.GaveUp t := fun t ht => not_gaveUp (hreturned t ht).1
  obtain ⟨hok, hfinal⟩ := migrate_converges isDuplicateColumn_duplicateColumn rfl
    startable_oldDatabase (TaskMachine.reaches_of_runPermitted hs) hlimits
  refine ⟨s, hlength, hok, hfinal ?_⟩
  obtain ⟨t, ht⟩ := List.exists_mem_of_length_pos (l := s.tasks) (by omega)
  exact ⟨t, ht, TaskState.hasReturned_iff.mp (hreturned t ht).2⟩
