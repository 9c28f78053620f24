/-
# The history as a ledger of the table

Every row was stored by one entry of the history, under an id no other row ever had; a
stored row is still there, with the content it was stored with, or a later entry took it.
`ledger_of_reaches` proves this for every run of the service that starts on an empty
database.
-/
import KaimanWebhooks.Tasks

/-! ## What one entry did -/

/-- The answer and the state after an entry are those of performing its call. -/
def Performed (ext : External) (e : ServiceEntry) : Prop :=
  ∃ i, perform ext e.call i e.before = (e.answer, e.after)

/-- **Everything an entry can have done to the table**: nothing, or the execution of its
statement. -/
theorem Performed.cases {ext : External} {e : ServiceEntry} (h : Performed ext e) :
    (e.after.table = e.before.table ∧
      ∀ q a, e.done ≠ (⟨.sql q, .ok a⟩ : DoneCall)) ∨
    ∃ q choice, e.done = (⟨.sql q, .ok (q.execute choice e.before.table).1⟩ : DoneCall) ∧
      e.after = { e.before with table := (q.execute choice e.before.table).2 } := by
  obtain ⟨i, h⟩ := h
  rcases e with ⟨n, job, c, answer, before, after⟩
  have hanswer : (perform ext c i before).1 = answer := congrArg Prod.fst h
  have hafter : (perform ext c i before).2 = after := congrArg Prod.snd h
  by_cases hsql : ∃ q, c = .sql q
  · obtain ⟨q, rfl⟩ := hsql
    cases answer with
    | error e =>
        refine Or.inl ⟨?_, fun q' a' hdone => ?_⟩
        · show after.table = before.table
          rw [← hafter, perform_sql_error hanswer]
        · simp only [Entry.done, Sigma.mk.injEq, Call.sql.injEq] at hdone
          obtain ⟨rfl, hdone⟩ := hdone
          cases eq_of_heq hdone
    | ok a =>
        obtain ⟨-, rfl, hstate⟩ := perform_sql_ok hanswer
        exact Or.inr ⟨q, i.choice, rfl, hafter.symm.trans hstate⟩
  · refine Or.inl ⟨?_, fun q a hdone => hsql ⟨q, ?_⟩⟩
    · show after.table = before.table
      rw [← hafter, perform_table_of_not_sql fun q hq => hsql ⟨q, hq⟩]
    · exact congrArg Sigma.fst hdone

/-- A delete and a failure record leave the rows with another id alone. -/
theorem Performed.mem_after_of_id_ne {ext : External} {e : ServiceEntry} (h : Performed ext e)
    {id : ℤ} (hcall : e.call = .sql (.deleteById id) ∨
      ∃ now message next, e.call = .sql (.recordForwardFailure now message next id))
    {r : Row} (hr : r ∈ e.before.table.rows) (hid : r.id ≠ id) : r ∈ e.after.table.rows := by
  rcases h.cases with ⟨htable, -⟩ | ⟨q, choice, hdone, hafter⟩
  · rw [htable]
    exact hr
  · have hq : e.call = .sql q := congrArg Sigma.fst hdone
    rw [hafter]
    rcases hcall with hcall | ⟨now, message, next, hcall⟩
    · obtain rfl : Query.deleteById id = q := Call.sql.inj (hcall.symm.trans hq)
      exact Table.mem_rows_keep.mpr ⟨hr, by simpa using hid⟩
    · obtain rfl : Query.recordForwardFailure now message next id = q :=
        Call.sql.inj (hcall.symm.trans hq)
      have hsame := Table.mem_rows_update_of_mem hr id
        (Row.failed choice.coerce now message next) fun _ => rfl
      rwa [if_neg hid] at hsame

/-- An id that was given out and that no row has any more. -/
def IsSpent (t : Table) (id : ℤ) : Prop := id ≤ t.seq ∧ ∀ r ∈ t.rows, r.id ≠ id

/-- Ids are given out in order. -/
theorem Performed.seq_le {ext : External} {e : ServiceEntry} (h : Performed ext e) :
    e.before.table.seq ≤ e.after.table.seq := by
  rcases h.cases with ⟨htable, -⟩ | ⟨q, choice, -, hafter⟩
  · rw [htable]
  · rw [hafter]
    show e.before.table.seq ≤ (q.execute choice e.before.table).2.seq
    rw [Query.seq_execute]
    split <;> omega

/-- A spent id stays spent. -/
theorem Performed.isSpent_after {ext : External} {e : ServiceEntry} (h : Performed ext e) {id : ℤ}
    (hspent : IsSpent e.before.table id) : IsSpent e.after.table id := by
  rcases h.cases with ⟨htable, -⟩ | ⟨q, choice, -, hafter⟩
  · rw [htable]
    exact hspent
  · rw [hafter]
    refine ⟨?_, fun r hr hid => ?_⟩
    · have hseq := h.seq_le
      rw [hafter] at hseq
      exact hspent.1.trans hseq
    · rcases Query.mem_rows_execute hr with ⟨r₀, hr₀, hsame, -⟩ | ⟨c, -, rfl⟩
      · exact hspent.2 r₀ hr₀ (hsame.symm.trans hid)
      · have hseq := hspent.1
        rw [Row.inserted_id] at hid
        omega

/-- The row a call stored: its id and its content. -/
def storedRow : DoneCall → Option (ℤ × Content)
  | ⟨.sql (.insert channel headers payload receivedAt), .ok id⟩ =>
      some (id, ⟨.text channel, .text headers, .blob payload, .int receivedAt⟩)
  | _ => none

/-- Only statements that succeed store a row. -/
theorem exists_sql_of_storedRow {d : DoneCall} {p : ℤ × Content} (h : storedRow d = some p) :
    ∃ channel headers payload receivedAt,
      d = ⟨.sql (.insert channel headers payload receivedAt), .ok p.1⟩ ∧
        p.2 = ⟨.text channel, .text headers, .blob payload, .int receivedAt⟩ := by
  unfold storedRow at h
  split at h
  · cases h
    exact ⟨_, _, _, _, rfl, rfl⟩
  · cases h

theorem storedRow_execute (q : Query) (choice : ScanChoice) (t : Table) :
    storedRow ⟨.sql q, .ok (q.execute choice t).1⟩ = q.inserts.map fun c => (t.seq + 1, c) := by
  cases q <;> rfl

/-- The row an entry stored has the next id, and is in the table. -/
theorem Performed.of_storedRow {ext : External} {e : ServiceEntry} (h : Performed ext e)
    {p : ℤ × Content} (hrow : storedRow e.done = some p) :
    p.1 = e.before.table.seq + 1 ∧ p.1 ≤ e.after.table.seq ∧
      ∃ r ∈ e.after.table.rows, r.id = p.1 ∧ r.content = p.2 := by
  rcases h.cases with ⟨-, hquiet⟩ | ⟨q, choice, hdone, hafter⟩
  · obtain ⟨_, _, _, _, hdone, -⟩ := exists_sql_of_storedRow hrow
    exact absurd hdone (hquiet _ _)
  · rw [hdone, storedRow_execute] at hrow
    obtain ⟨c, hc, rfl⟩ := Option.map_eq_some_iff.mp hrow
    rw [hafter]
    refine ⟨rfl, ?_, Query.exists_inserted_execute hc⟩
    show e.before.table.seq + 1 ≤ (q.execute choice e.before.table).2.seq
    rw [Query.seq_execute, hc]
    rfl

/-- A row after an entry is a row from before it, or the one it stored. -/
theorem Performed.mem_after {ext : External} {e : ServiceEntry} (h : Performed ext e) {r : Row}
    (hr : r ∈ e.after.table.rows) : (∃ r₀ ∈ e.before.table.rows, Query.SameWebhook r₀ r) ∨
      storedRow e.done = some (r.id, r.content) := by
  rcases h.cases with ⟨htable, -⟩ | ⟨q, choice, hdone, hafter⟩
  · rw [htable] at hr
    exact Or.inl ⟨r, hr, rfl, rfl⟩
  · rw [hafter] at hr
    rcases Query.mem_rows_execute hr with hold | ⟨c, hc, rfl⟩
    · exact Or.inl hold
    · right
      rw [hdone, storedRow_execute, hc]
      rfl

/-- **Where the cells of a row after an entry come from**: the row was there, a failure of it was
recorded, its attempts were reset, or it was stored. -/
theorem Performed.row_cases {ext : External} {e : ServiceEntry} (h : Performed ext e) {r : Row}
    (hr : r ∈ e.after.table.rows) :
    r ∈ e.before.table.rows ∨
    (∃ now message next coerce, e.call = .sql (.recordForwardFailure now message next r.id) ∧
      ∃ r₀ ∈ e.before.table.rows, r = r₀.failed coerce now message next) ∨
    (e.call = .sql (.resetForwardAttempts r.id) ∧ ∃ r₀ ∈ e.before.table.rows, r = r₀.reset) ∨
    ∃ c, r = Row.inserted (e.before.table.seq + 1) c := by
  rcases h.cases with ⟨htable, -⟩ | ⟨q, choice, hdone, hafter⟩
  · rw [htable] at hr
    exact Or.inl hr
  · have hcall : e.call = .sql q := congrArg Sigma.fst hdone
    rw [hafter] at hr
    rcases Query.row_cases hr with ⟨hold, -⟩ | ⟨now, message, next, rfl, r₀, hold, -, hfailed⟩ |
      ⟨rfl, r₀, hold, -, hreset⟩ | ⟨c, -, hinserted⟩
    · exact Or.inl hold
    · exact Or.inr (Or.inl ⟨now, message, next, choice.coerce, hcall, r₀, hold, hfailed⟩)
    · exact Or.inr (Or.inr (Or.inl ⟨hcall, r₀, hold, hreset⟩))
    · exact Or.inr (Or.inr (Or.inr ⟨c, hinserted⟩))

/-- The entry took a row with this id and this content out of the table. -/
def TookRow (e : ServiceEntry) (id : ℤ) (c : Content) : Prop :=
  ∃ q a, e.done = (⟨.sql q, .ok a⟩ : DoneCall) ∧
    ∃ r ∈ e.before.table.rows, r.id = id ∧ r.content = c ∧ q.Takes a r

/-- A row from before an entry is still there with its content, or the entry took it. -/
theorem Performed.kept_or_took {ext : External} {e : ServiceEntry} (h : Performed ext e) {r : Row}
    (hr : r ∈ e.before.table.rows) : (∃ r' ∈ e.after.table.rows, Query.SameWebhook r r') ∨
      TookRow e r.id r.content := by
  rcases h.cases with ⟨htable, -⟩ | ⟨q, choice, hdone, hafter⟩
  · rw [htable]
    exact Or.inl ⟨r, hr, rfl, rfl⟩
  · have hrow : (∃ r' ∈ (q.execute choice e.before.table).2.rows, Query.SameWebhook r r') ∨
        q.Takes (q.execute choice e.before.table).1 r := Query.exists_row_execute hr
    rw [hafter]
    exact hrow.imp_right fun htakes => ⟨q, _, hdone, r, hr, rfl, rfl, htakes⟩

/-- Rows stay well typed. -/
theorem Performed.wellTyped {ext : External} {e : ServiceEntry} (h : Performed ext e)
    (htyped : ∀ r ∈ e.before.table.rows, r.WellTyped) : ∀ r ∈ e.after.table.rows, r.WellTyped := by
  rcases h.cases with ⟨htable, -⟩ | ⟨q, choice, -, hafter⟩
  · rw [htable]
    exact htyped
  · rw [hafter]
    exact Query.wellTyped_execute htyped

/-! ## The ledger -/

/-- The rows stored along a run, newest first. -/
def storedRows (s : ServiceState) : List (ℤ × Content) :=
  s.history.filterMap fun e => storedRow e.done

/-- What the history says about the table. -/
structure Ledger (s : ServiceState) : Prop where
  nodup : ((storedRows s).map Prod.fst).Nodup
  le_seq : ∀ p ∈ storedRows s, p.1 ≤ s.shared.table.seq
  stored : ∀ r ∈ s.shared.table.rows, (r.id, r.content) ∈ storedRows s
  kept : ∀ p ∈ storedRows s, (∃ r ∈ s.shared.table.rows, r.id = p.1 ∧ r.content = p.2) ∨
    ∃ e ∈ s.history, TookRow e p.1 p.2
  wellTyped : ∀ r ∈ s.shared.table.rows, r.WellTyped

section Step

variable {ext : External} {s s' : ServiceState} {e : ServiceEntry}

/-- The rows stored after one more entry. -/
theorem mem_storedRows_cons (hhistory : s'.history = e :: s.history) {p : ℤ × Content} :
    p ∈ storedRows s' ↔ storedRow e.done = some p ∨ p ∈ storedRows s := by
  rw [storedRows, hhistory, List.filterMap_cons]
  cases hrow : storedRow e.done with
  | none => simp [storedRows]
  | some p' => simp [storedRows, eq_comm]

/-- **One more entry keeps the ledger.** -/
theorem Ledger.cons (h : Ledger s) (hperformed : Performed ext e) (hbefore : e.before = s.shared)
    (hshared : s'.shared = e.after) (hhistory : s'.history = e :: s.history) : Ledger s' := by
  have hmem : ∀ p, p ∈ storedRows s' ↔ storedRow e.done = some p ∨ p ∈ storedRows s :=
    fun _ => mem_storedRows_cons hhistory
  refine ⟨?_, ?_, ?_, ?_, ?_⟩
  · rw [storedRows, hhistory, List.filterMap_cons]
    cases hrow : storedRow e.done with
    | none => exact h.nodup
    | some p =>
        -- the new id is above the ids of the ledger
        refine List.nodup_cons.mpr ⟨fun hp => ?_, h.nodup⟩
        obtain ⟨p', hp', hid⟩ := List.mem_map.mp hp
        have hle := h.le_seq p' hp'
        have hnext := (hperformed.of_storedRow hrow).1
        rw [hbefore] at hnext
        omega
  · intro p hp
    rw [hshared]
    rcases (hmem p).mp hp with hnew | hold
    · exact (hperformed.of_storedRow hnew).2.1
    · exact (h.le_seq p hold).trans (hbefore ▸ hperformed.seq_le)
  · intro r hr
    rw [hshared] at hr
    refine (hmem _).mpr ?_
    rcases hperformed.mem_after hr with ⟨r₀, hr₀, hid, hcontent⟩ | hnew
    · right
      rw [hid, hcontent]
      exact h.stored r₀ (hbefore ▸ hr₀)
    · exact Or.inl hnew
  · intro p hp
    rw [hshared, hhistory]
    rcases (hmem p).mp hp with hnew | hold
    · exact Or.inl (hperformed.of_storedRow hnew).2.2
    · rcases h.kept p hold with ⟨r, hr, hid, hcontent⟩ | ⟨e', he', htook⟩
      · rw [← hid, ← hcontent]
        refine (hperformed.kept_or_took (hbefore ▸ hr)).imp_right fun htook => ?_
        exact ⟨e, List.mem_cons_self, htook⟩
      · exact Or.inr ⟨e', List.mem_cons_of_mem _ he', htook⟩
  · rw [hshared]
    exact hperformed.wellTyped (hbefore ▸ h.wellTyped)

end Step

/-- No id was given out twice. -/
theorem Ledger.content_eq {s : ServiceState} (h : Ledger s) {id : ℤ} {c c' : Content}
    (hc : (id, c) ∈ storedRows s) (hc' : (id, c') ∈ storedRows s) : c = c' :=
  congrArg Prod.snd (List.inj_on_of_nodup_map h.nodup hc hc' rfl)

/-- A loaded row is a row of the table. -/
theorem Performed.mem_of_loadedRow {ext : External} {e : ServiceEntry} (h : Performed ext e)
    {row : Row} (hrow : loadedRow e.done = some row) : row ∈ e.before.table.rows := by
  rcases h.cases with ⟨-, hquiet⟩ | ⟨q, choice, hdone, -⟩
  · unfold loadedRow at hrow
    split at hrow
    · rename_i hd
      exact absurd hd (hquiet _ _)
    · rename_i hd
      exact absurd hd (hquiet _ _)
    · cases hrow
  · rw [hdone] at hrow
    cases q with
    | peekOldestDueByChannel channel now =>
        have hmem := List.mem_of_mem_head? hrow
        exact List.mem_of_mem_filter ((mem_orderBy _ _).mp hmem)
    | getById id => exact List.mem_of_find?_eq_some hrow
    | _ => cases hrow

namespace AppState

variable {state : AppState} {ok : ServiceState → ServiceEvent → Prop} {s : ServiceState}

theorem ledger_initial : Ledger state.initial :=
  ⟨by simp [storedRows, initial], by simp [storedRows, initial], by simp [initial, Table.empty],
    by simp [storedRows, initial], by simp [initial, Table.empty]⟩

/-- **The ledger holds along every run.** -/
theorem ledger_of_reaches (h : state.machine.Reaches ok state.initial s) : Ledger s := by
  refine h.invariant Ledger ledger_initial (fun s j hs _ _ => { hs with }) ?_
  intro s n i t c k hs _ ht hr
  let e := state.machine.entry s n t c i
  have hperformed : Performed state.db.ext e := ⟨i, rfl⟩
  exact hs.cons hperformed rfl rfl rfl

/-- What was added to the history since an earlier state of the run. -/
def later (s₁ s : ServiceState) : List ServiceEntry :=
  s.history.take (s.history.length - s₁.history.length)

theorem history_eq_later {s₁ : ServiceState} (h : state.machine.Reaches ok s₁ s) :
    s.history = later s₁ s ++ s₁.history := by
  obtain ⟨newer, hnewer⟩ := h.history_suffix
  unfold later
  rw [← hnewer, List.length_append, Nat.add_sub_cancel, List.take_left]

/-- A spent id stays spent along a run. -/
theorem isSpent_of_reaches {s₁ : ServiceState} (h : state.machine.Reaches ok s₁ s) {id : ℤ}
    (h₁ : IsSpent s₁.shared.table id) : IsSpent s.shared.table id := by
  refine h.invariant_shared (fun w => IsSpent w.table id) h₁ ?_
  intro s n i t c k hs _ _ _
  have hperformed : Performed state.db.ext (state.machine.entry s n t c i) := ⟨i, rfl⟩
  exact hperformed.isSpent_after hs

section Entries

variable (h : state.machine.Reaches ok state.initial s) {e : ServiceEntry} (he : e ∈ s.history)

include h he

theorem performed_of_mem_history : Performed state.db.ext e := by
  obtain ⟨s₁, newer, hmade⟩ := h.exists_madeIn rfl he
  obtain ⟨i, t, k, -, -, -, -, hperform⟩ := hmade.event
  exact ⟨i, hperform⟩

/-- An id that was spent after an entry of the history is spent now. -/
theorem isSpent_of_mem_history {id : ℤ} (hspent : IsSpent e.after.table id) :
    IsSpent s.shared.table id := by
  refine h.holds_of_mem_history (fun w => IsSpent w.table id) rfl ?_ he hspent
  intro s n i t c k hs _ _ _
  have hperformed : Performed state.db.ext (state.machine.entry s n t c i) := ⟨i, rfl⟩
  exact hperformed.isSpent_after hs

/-- Every call of the history was permitted after the calls its task had made. -/
theorem protocol_of_mem_history : ∃ past, state.Protocol e.job past e.call ∧
    ∀ d ∈ past, ∃ e' ∈ s.history, e'.task = e.task ∧ e'.job = e.job ∧ e'.done = d :=
  h.protocol_of_mem rfl rfl start_obeys he

/-- Every row an entry found in the table was stored before. -/
theorem stored_of_mem_before {r : Row} (hr : r ∈ e.before.table.rows) :
    (r.id, r.content) ∈ storedRows s ∧ r.WellTyped := by
  obtain ⟨s₁, newer, hmade⟩ := h.exists_madeIn rfl he
  have hledger := ledger_of_reaches hmade.reaches
  rw [← hmade.before] at hr
  refine ⟨?_, hledger.wellTyped r hr⟩
  rw [storedRows, hmade.history, List.filterMap_append, List.filterMap_cons]
  refine List.mem_append_right _ ?_
  cases storedRow e.done with
  | none => exact hledger.stored r hr
  | some p => exact List.mem_cons_of_mem _ (hledger.stored r hr)

/-- A webhook that was sent had been read from a stored row. -/
theorem exists_row_of_sent {about : Option Webhook} {request : HttpRequest} {answer : PeerAnswer}
    (hdone : e.done = (⟨.send about request, answer⟩ : DoneCall)) :
    ∃ webhook, about = some webhook ∧ Posts webhook request ∧ ∃ row : Row,
      parseWebhookRow state.db.ext row = some webhook ∧ (row.id, row.content) ∈ storedRows s := by
  obtain ⟨past, hprotocol, hpast⟩ := protocol_of_mem_history h he
  have hcall : e.call = .send about request := congrArg Sigma.fst hdone
  rw [hcall] at hprotocol
  obtain ⟨-, webhook, habout, hposts, d, hd, row, hrow, hparse⟩ := hprotocol
  obtain ⟨e', he', -, -, rfl⟩ := hpast d hd
  have hbefore := (performed_of_mem_history h he').mem_of_loadedRow hrow
  exact ⟨webhook, habout, hposts, row, hparse, (stored_of_mem_before h he' hbefore).1⟩

end Entries

end AppState
