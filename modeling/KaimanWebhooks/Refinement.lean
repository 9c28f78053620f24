/-
# The table is a mailbox

A row of the webhooks table is a letter of the mailbox, and the statements of the adapter are its
operations: `execute_simulates` is the step, one case for each statement.  Over any number of
restarts the history of the service, read as operations, is lawful (`service_refines_mailbox`), so
what holds of every lawful list of operations holds of the service.
-/
import KaimanWebhooks.Mailbox
import KaimanWebhooks.Polling
import KaimanWebhooks.Restart

/-! ## Letters as rows -/

/-- A stored webhook: its headers as they are stored, and its payload. -/
abbrev Mail : Type := Letter WebhookChannel (String × Bytes) String ℤ

/-- The mailbox the table stands for. -/
abbrev Mails : Type := Mailbox ℤ WebhookChannel (String × Bytes) String ℤ

abbrev MailOp : Type := Mailbox.Op ℤ WebhookChannel (String × Bytes) String ℤ

/-- A cell that may be empty. -/
def optionCell {α : Type} (cell : α → SqlValue) : Option α → SqlValue
  | none => .null
  | some a => cell a

theorem optionCell_injective {α : Type} {cell : α → SqlValue} (hinj : Function.Injective cell)
    (hnull : ∀ a, cell a ≠ .null) : Function.Injective (optionCell cell) := by
  intro o o' h
  cases o <;> cases o'
  · rfl
  · exact absurd h.symm (hnull _)
  · exact absurd h (hnull _)
  · exact congrArg some (hinj h)

/-- The row that stores a letter under an id. -/
def rowOf (p : ℤ × Mail) : Row where
  id := p.1
  channel := .text p.2.box
  headers := .text p.2.content.1
  payload := .blob p.2.content.2
  receivedAt := .int p.2.arrived
  forwardAttempts := .int p.2.failures
  lastAttemptAt := optionCell (fun f => .int f.1) p.2.lastFailure
  lastAttemptError := optionCell (fun f => .text f.2) p.2.lastFailure
  nextAttemptAt := optionCell .int p.2.heldUntil

@[simp] theorem id_rowOf (p : ℤ × Mail) : (rowOf p).id = p.1 := rfl

theorem inChannel_rowOf {p : ℤ × Mail} {channel : WebhookChannel} :
    (rowOf p).inChannel channel = true ↔ p.2.box = channel := by
  simp [Row.inChannel, rowOf]

theorem isDue_rowOf {p : ℤ × Mail} {now : ℤ} :
    (rowOf p).isDue now = true ↔ p.2.IsDue now := by
  unfold Row.isDue Letter.IsDue rowOf
  cases p.2.heldUntil <;> simp [optionCell]

theorem older_rowOf {p p' : ℤ × Mail} :
    (rowOf p).Older (rowOf p') ↔ p.2.arrived ≤ p'.2.arrived := by
  simp [Row.Older, rowOf]

/-- A row stores one letter only. -/
theorem rowOf_injective : Function.Injective rowOf := by
  rintro ⟨i, box, content, arrived, failures, lastFailure, heldUntil⟩
    ⟨i', box', content', arrived', failures', lastFailure', heldUntil'⟩ h
  simp only [rowOf, Row.mk.injEq, SqlValue.text.injEq, SqlValue.blob.injEq, SqlValue.int.injEq,
    Nat.cast_inj] at h
  obtain ⟨rfl, rfl, hheaders, hpayload, rfl, rfl, hat, herror, hnext⟩ := h
  obtain rfl : content = content' := Prod.ext hheaders hpayload
  obtain rfl : heldUntil = heldUntil' :=
    optionCell_injective (fun _ _ => SqlValue.int.inj) (fun _ => SqlValue.noConfusion) hnext
  have hfailure : lastFailure = lastFailure' := by
    rcases lastFailure with - | ⟨now, why⟩ <;> rcases lastFailure' with - | ⟨now', why'⟩ <;>
      simp_all [optionCell]
  rw [hfailure]

/-- Recording a failure holds the letter back. -/
theorem failed_rowOf (coerce : SqlValue → SqlValue) (now : ℤ) (message : String) (next : ℤ)
    (p : ℤ × Mail) :
    (rowOf p).failed coerce now message next = rowOf (p.1, p.2.held now message next) := by
  simp [Row.failed, rowOf, Row.nextForwardAttempts, Letter.held, optionCell]

/-- Resetting the attempts releases the letter. -/
theorem reset_rowOf (p : ℤ × Mail) : (rowOf p).reset = rowOf (p.1, p.2.released) := rfl

/-! ## The table as a mailbox -/

/-- The table holds just the letters of the mailbox, and its counter says which ids were given
out. -/
structure Table.Stores (t : Table) (m : Mails) : Prop where
  rows : ∀ r, r ∈ t.rows ↔ ∃ l, m r.id = .stored l ∧ r = rowOf (r.id, l)
  seq : ∀ i, m i = .unissued ↔ i ≤ 0 ∨ t.seq < i
  nonneg : 0 ≤ t.seq

namespace Table.Stores

variable {t : Table} {m : Mails} (h : t.Stores m)

include h

theorem rowOf_mem {i : ℤ} {l : Mail} : rowOf (i, l) ∈ t.rows ↔ m i = .stored l := by
  rw [h.rows]
  constructor
  · rintro ⟨l', hl', heq⟩
    cases rowOf_injective heq
    exact hl'
  · exact fun hl => ⟨l, hl, rfl⟩

theorem rowOf_mem_inChannel {channel : WebhookChannel} {i : ℤ} {l : Mail} :
    rowOf (i, l) ∈ t.inChannel channel ↔ m.Holds channel i l := by
  rw [Table.inChannel, List.mem_filter, h.rowOf_mem, inChannel_rowOf, Mailbox.Holds]

/-- Something is under the id of a row, and of no other. -/
theorem has_iff {i : ℤ} : m.Has i ↔ ∃ r ∈ t.rows, r.id = i := by
  constructor
  · rintro ⟨l, hl⟩
    exact ⟨rowOf (i, l), h.rowOf_mem.mpr hl, rfl⟩
  · rintro ⟨r, hr, rfl⟩
    obtain ⟨l, hl, -⟩ := (h.rows r).mp hr
    exact ⟨l, hl⟩

/-- Rows of the table are letters of the mailbox. -/
theorem exists_found {rows : List Row} (hrows : ∀ r ∈ rows, r ∈ t.rows) :
    ∃ found : List (ℤ × Mail), rows = found.map rowOf := by
  induction rows with
  | nil => exact ⟨[], rfl⟩
  | cons r rows ih =>
      obtain ⟨found, rfl⟩ := ih fun r' hr' => hrows r' (List.mem_cons_of_mem _ hr')
      obtain ⟨l, -, hr⟩ := (h.rows r).mp (hrows r List.mem_cons_self)
      exact ⟨(r.id, l) :: found, by rw [List.map_cons, ← hr]⟩

/-- The rows of a channel in any order show the letters of the box. -/
theorem lists_of_perm {rows : List Row} {channel : WebhookChannel}
    (hperm : rows.Perm (t.inChannel channel)) :
    ∃ found : List (ℤ × Mail), rows = found.map rowOf ∧ m.Lists channel found := by
  obtain ⟨found, rfl⟩ := h.exists_found fun r hr => List.mem_of_mem_filter (hperm.mem_iff.mp hr)
  refine ⟨found, rfl, ?_, fun i l => ?_⟩
  · have hids : ((t.inChannel channel).map Row.id).Nodup :=
      t.nodup.sublist (List.filter_sublist.map Row.id)
    have hfound := (hperm.map Row.id).nodup_iff.mpr hids
    rwa [List.map_map] at hfound
  · rw [← h.rowOf_mem_inChannel, ← hperm.mem_iff, List.mem_map_of_injective rowOf_injective]

end Table.Stores

/-! ## Statements as operations -/

/-- `LIMIT` as a bound. -/
def limitOf (limit : ℤ) : Option ℕ := if limit < 0 then none else some limit.toNat

/-- The operation a statement, so answered, is. -/
def Query.Shows : (q : Query) → q.Answer → MailOp → Prop
  | .insert channel headers payload receivedAt, id, op =>
      op = .accept id channel (headers, payload) receivedAt
  | .readAndDeleteByChannel channel limit, rows, op =>
      ∃ found : List (ℤ × Mail),
        rows = found.map rowOf ∧ op = .collect channel (limitOf limit) found
  | .peekOldestDueByChannel channel now, row, op =>
      ∃ found : Option (ℤ × Mail), row = found.map rowOf ∧ op = .offer channel now found
  | .listByChannel channel, rows, op =>
      ∃ found : List (ℤ × Mail), rows = found.map rowOf ∧ op = .survey channel true found
  | .deleteById id, affected, op =>
      ∃ was : Bool, affected = was.toNat ∧ op = .discard id was
  | .recordForwardFailure now message next id, affected, op =>
      ∃ was : Bool, affected = was.toNat ∧ op = .hold id now message next was
  | .countByChannel channel, count, op => ∃ n : ℕ, count = n ∧ op = .count channel n
  | .listQueueByChannel channel, rows, op =>
      ∃ found : List (ℤ × Mail), rows = found.map rowOf ∧ op = .survey channel false found
  | .clearByChannel channel, affected, op => op = .clear channel affected
  | .getById id, row, op =>
      ∃ found : Option Mail, row = found.map (fun l => rowOf (id, l)) ∧ op = .look id found
  | .resetForwardAttempts id, affected, op =>
      ∃ was : Bool, affected = was.toNat ∧ op = .release id was

section Step

variable {t : Table} {m : Mails} (h : t.Stores m)

include h

/-- An operation that takes nothing and changes nothing leaves the mailbox as it is. -/
theorem Table.Stores.same {op : MailOp} (hbrings : ∀ i, op.brings i = none)
    (htakes : ∀ i l, op.takes i l = false) (hrevise : ∀ i l, op.revise i l = l) :
    t.Stores (op.apply m) := by
  have hsame : op.apply m = m := by
    funext i
    simp only [Mailbox.Op.apply, hbrings, htakes, hrevise]
    cases m i <;> rfl
  rw [hsame]
  exact h

/-- Taking letters is keeping the other rows. -/
theorem Table.Stores.keep {op : MailOp} {p : Row → Bool} (hbrings : ∀ i, op.brings i = none)
    (hrevise : ∀ i l, op.revise i l = l)
    (htakes : ∀ i l, m i = .stored l → (p (rowOf (i, l)) = true ↔ op.takes i l = false)) :
    (t.keep p).Stores (op.apply m) where
  rows := by
    intro r
    rw [Table.mem_rows_keep, h.rows]
    constructor
    · rintro ⟨⟨l, hl, hr⟩, hp⟩
      rw [hr] at hp
      have hkept := Mailbox.apply_of_kept hl ((htakes _ _ hl).mp hp)
      rw [hrevise] at hkept
      exact ⟨l, hkept, hr⟩
    · rintro ⟨l, hl, hr⟩
      rcases Mailbox.stored_of_apply hl with ⟨l₀, hl₀, -⟩ | ⟨-, hnew⟩
      · rcases Mailbox.apply_of_stored _ hl₀ with ⟨-, hgone⟩ | ⟨hkept, -⟩
        · cases hl.symm.trans hgone
        · have hsame := Mailbox.apply_of_kept hl₀ hkept
          rw [hrevise] at hsame
          cases hl.symm.trans hsame
          exact ⟨⟨l, hl₀, hr⟩, hr ▸ (htakes _ _ hl₀).mpr hkept⟩
      · rw [hbrings] at hnew
        cases hnew
  seq := by
    intro i
    rw [← show m i = .unissued ↔ i ≤ 0 ∨ (t.keep p).seq < i from h.seq i]
    simp only [Mailbox.Op.apply, hbrings]
    cases m i with
    | stored l => simp only [reduceCtorEq, iff_false]; split <;> simp
    | _ => simp
  nonneg := h.nonneg

/-- Changing the letter under an id is changing its row. -/
theorem Table.Stores.update {op : MailOp} {id : ℤ} {f : Row → Row} {g : Mail → Mail}
    (hf : ∀ r, (f r).id = r.id) (hrow : ∀ p : ℤ × Mail, f (rowOf p) = rowOf (p.1, g p.2))
    (hbrings : ∀ i, op.brings i = none) (htakes : ∀ i l, op.takes i l = false)
    (hrevise : ∀ i l, op.revise i l = if i = id then g l else l) :
    (t.update id f hf).Stores (op.apply m) where
  rows := by
    intro r
    constructor
    · intro hr
      obtain ⟨r₀, hr₀, hcases⟩ := Table.mem_rows_update hr
      obtain ⟨l, hl, hrow₀⟩ := (h.rows r₀).mp hr₀
      have hkept := Mailbox.apply_of_kept hl (htakes _ _)
      rw [hrevise] at hkept
      rcases hcases with ⟨hid, rfl⟩ | ⟨hid, rfl⟩
      · rw [if_neg hid] at hkept
        exact ⟨l, hkept, hrow₀⟩
      · rw [if_pos hid] at hkept
        have hchanged := hrow (r₀.id, l)
        rw [← hrow₀] at hchanged
        refine ⟨g l, ?_, ?_⟩
        · rw [hf]
          exact hkept
        · rw [hf]
          exact hchanged
    · rintro ⟨l, hl, hr⟩
      rcases Mailbox.stored_of_apply hl with ⟨l₀, hl₀, -⟩ | ⟨-, hnew⟩
      · have hrow₀ := Table.mem_rows_update_of_mem (h.rowOf_mem.mpr hl₀) id f hf
        cases hl.symm.trans (Mailbox.apply_of_kept hl₀ (htakes _ _))
        rw [hr, hrevise]
        rw [id_rowOf] at hrow₀
        split_ifs at hrow₀ ⊢
        · rwa [hrow] at hrow₀
        · exact hrow₀
      · rw [hbrings] at hnew
        cases hnew
  seq := by
    intro i
    rw [← show m i = .unissued ↔ i ≤ 0 ∨ (t.update id f hf).seq < i from h.seq i]
    simp only [Mailbox.Op.apply, hbrings, htakes]
    cases m i <;> simp
  nonneg := h.nonneg

/-- A new row is a letter under the next id. -/
theorem Table.Stores.insert (channel headers : String) (payload : Bytes) (receivedAt : ℤ) :
    (t.insert ⟨.text channel, .text headers, .blob payload, .int receivedAt⟩).Stores
      (Mailbox.Op.apply (.accept (t.seq + 1) channel (headers, payload) receivedAt) m) := by
  let l : Mail := .new channel (headers, payload) receivedAt
  have hnew : m (t.seq + 1) = .unissued := (h.seq _).mpr (Or.inr (by omega))
  have happly : Mailbox.Op.apply (.accept (t.seq + 1) channel (headers, payload) receivedAt) m =
      Function.update m (t.seq + 1) (.stored l) := by
    funext i
    by_cases hi : i = t.seq + 1
    · subst hi
      simp [Mailbox.Op.apply, hnew, Mailbox.Op.brings, l]
    · rw [Function.update_of_ne hi]
      simp only [Mailbox.Op.apply, Mailbox.Op.brings, Mailbox.Op.takes, Mailbox.Op.revise,
        if_neg hi]
      cases m i <;> rfl
  rw [happly]
  refine ⟨fun r => ?_, fun i => ?_, ?_⟩
  · have hmem : r ∈ (t.insert ⟨.text channel, .text headers, .blob payload, .int receivedAt⟩).rows ↔
        r ∈ t.rows ∨ r = rowOf (t.seq + 1, l) := by
      rw [Table.insert, List.mem_append, List.mem_singleton]
      rfl
    rw [hmem, h.rows]
    by_cases hid : r.id = t.seq + 1
    · rw [hid, Function.update_self, hnew]
      simp
    · rw [Function.update_of_ne hid]
      refine or_iff_left ?_
      rintro rfl
      exact hid rfl
  · have hseq := h.nonneg
    show _ ↔ i ≤ 0 ∨ t.seq + 1 < i
    by_cases hi : i = t.seq + 1
    · subst hi
      simp only [Function.update_self, reduceCtorEq, lt_self_iff_false, or_false, false_iff]
      omega
    · rw [Function.update_of_ne hi, h.seq]
      omega
  · have hseq := h.nonneg
    show 0 ≤ t.seq + 1
    omega

end Step

/-! ## One statement -/

/-- A row of the channel is left behind only when the limit is reached. -/
theorem limit_of_left {t : Table} {choice : ScanChoice} {channel : WebhookChannel} {limit : ℤ}
    {r : Row} (hr : r ∈ t.inChannel channel) (hleft : r ∉ t.picked choice channel limit) :
    0 ≤ limit ∧ limit.toNat ≤ (t.inChannel channel).length := by
  have hscan : r ∈ orderBy Row.Older choice.order (t.inChannel channel) :=
    (mem_orderBy _ _).mpr hr
  unfold Table.picked limitRows at hleft
  split at hleft
  · exact absurd hscan hleft
  · rename_i hlimit
    refine ⟨by omega, ?_⟩
    by_contra hmore
    rw [List.take_of_length_le (by rw [length_orderBy]; omega)] at hleft
    exact hleft hscan

/-- A statement about one id affects a row when there is one. -/
theorem exists_affected (t : Table) (id : ℤ) :
    ∃ was : Bool, (t.rows.filter fun r => r.id = id).length = was.toNat ∧
      (was = true ↔ ∃ r ∈ t.rows, r.id = id) := by
  by_cases hid : ∃ r ∈ t.rows, r.id = id
  · obtain ⟨r, hr, hrid⟩ := hid
    refine ⟨true, ?_, iff_of_true rfl ⟨r, hr, hrid⟩⟩
    rw [Table.filter_id_eq hr hrid]
    rfl
  · refine ⟨false, ?_, iff_of_false Bool.false_ne_true hid⟩
    have hnone : (t.rows.filter fun r => r.id = id) = [] :=
      List.filter_eq_nil_iff.mpr fun r hr => by simpa using fun hrid => hid ⟨r, hr, hrid⟩
    rw [hnone]
    rfl

section Statement

variable {t : Table} {m : Mails} (h : t.Stores m) (choice : ScanChoice)

include h

/-- A destructive read collects. -/
theorem Table.Stores.collect (channel : WebhookChannel) (limit : ℤ) :
    ∃ found : List (ℤ × Mail),
      choice.returning.order (t.picked choice channel limit) = found.map rowOf ∧
      Mailbox.Op.Observed m (.collect channel (limitOf limit) found) ∧
      ((Query.readAndDeleteByChannel channel limit).execute choice t).2.Stores
        (Mailbox.Op.apply (.collect channel (limitOf limit) found) m) := by
  let picked := t.picked choice channel limit
  have hpicked : ∀ r, r ∈ picked → r ∈ t.inChannel channel := fun r hr => t.mem_of_mem_picked hr
  have hmem : ∀ r, r ∈ choice.returning.order picked ↔ r ∈ picked := fun r =>
    Shuffle.mem_order _
  obtain ⟨found, hfound⟩ : ∃ found : List (ℤ × Mail),
      choice.returning.order picked = found.map rowOf :=
    h.exists_found fun r hr => List.mem_of_mem_filter (hpicked r ((hmem r).mp hr))
  have hrow : ∀ p, p ∈ found ↔ rowOf p ∈ picked := by
    intro p
    rw [← hmem, hfound, List.mem_map_of_injective rowOf_injective]
  have hids : found.map Prod.fst = (choice.returning.order picked).map Row.id := by
    rw [hfound, List.map_map]
    rfl
  have hlength : found.length = picked.length := by
    rw [← List.length_map (f := rowOf), ← hfound, Shuffle.length_order]
  refine ⟨found, hfound, ⟨?_, ?_, ?_, ?_⟩, ?_⟩
  · rw [hids]
    have hnodup := (choice.returning.perm picked).nodup_iff.mpr nodup_picked
    refine hnodup.map_on fun r hr r' hr' hid => ?_
    exact t.eq_of_id_eq (List.mem_of_mem_filter (hpicked r ((hmem r).mp hr)))
      (List.mem_of_mem_filter (hpicked r' ((hmem r').mp hr'))) hid
  · exact fun p hp => h.rowOf_mem_inChannel.mp (hpicked _ ((hrow p).mp hp))
  · intro n hn
    unfold limitOf at hn
    split at hn
    · cases hn
    · cases hn
      rw [hlength, length_picked (by omega)]
      omega
  · intro i l hl hleft
    have hchannel := h.rowOf_mem_inChannel.mpr hl
    have hnot : rowOf (i, l) ∉ picked := fun hr => hleft ((hrow _).mpr hr)
    obtain ⟨hlimit, hreached⟩ := limit_of_left hchannel hnot
    refine ⟨⟨limit.toNat, ?_, ?_⟩, fun p hp => ?_⟩
    · rw [limitOf, if_neg (by omega)]
      rfl
    · rw [hlength, length_picked hlimit]
      omega
    · exact older_rowOf.mp (older_of_picked_of_left hlimit ((hrow p).mp hp) hchannel hnot)
  · refine h.keep (fun _ => rfl) (fun _ _ => rfl) fun i l hl => ?_
    have hperm := (choice.returning.perm picked).map Row.id
    rw [decide_eq_true_eq, id_rowOf, ← hperm.mem_iff, ← hids]
    simp [Mailbox.Op.takes]

/-- A peek is offered the oldest letter that is due. -/
theorem Table.Stores.offer (channel : WebhookChannel) (now : ℤ) :
    ∃ found : Option (ℤ × Mail),
      ((Query.peekOldestDueByChannel channel now).execute choice t).1 = found.map rowOf ∧
      Mailbox.Op.Observed m (.offer channel now found) := by
  have hdue : ∀ i l, m.Holds channel i l → l.IsDue now → rowOf (i, l) ∈ t.dueRows channel now := by
    intro i l hl hdue
    obtain ⟨hr, hchannel⟩ := List.mem_filter.mp (h.rowOf_mem_inChannel.mpr hl)
    exact Table.mem_dueRows.mpr ⟨hr, hchannel, isDue_rowOf.mpr hdue⟩
  cases hhead : (orderBy Row.Older choice.order (t.dueRows channel now)).head? with
  | none =>
      refine ⟨none, hhead, fun i l hl hisDue => ?_⟩
      have hscan := (mem_orderBy Row.Older choice.order).mpr (hdue i l hl hisDue)
      rw [List.head?_eq_none_iff.mp hhead] at hscan
      cases hscan
  | some r =>
      have hr := (mem_orderBy Row.Older choice.order).mp (List.mem_of_head? hhead)
      obtain ⟨hrow, hchannel, hisDue⟩ := Table.mem_dueRows.mp hr
      obtain ⟨l, hl, heq⟩ := (h.rows r).mp hrow
      rw [heq] at hchannel hisDue
      refine ⟨some (r.id, l), ?_, ⟨hl, inChannel_rowOf.mp hchannel⟩, isDue_rowOf.mp hisDue, ?_⟩
      · exact hhead.trans (congrArg some heq)
      · intro i l' hl' hdue'
        have holder := rel_of_head?_orderBy Row.Older choice.order hhead (hdue i l' hl' hdue')
        rw [heq] at holder
        exact older_rowOf.mp holder

omit choice in
/-- Looking an id up shows the letter under it. -/
theorem Table.Stores.look (id : ℤ) :
    ∃ found : Option Mail, (t.rows.find? fun r => r.id = id) = found.map (fun l => rowOf (id, l)) ∧
      Mailbox.Op.Observed m (.look id found) := by
  cases hfind : t.rows.find? fun r => r.id = id with
  | none =>
      refine ⟨none, rfl, fun l => iff_of_false (fun hl => ?_) nofun⟩
      have hnot := List.find?_eq_none.mp hfind _ (h.rowOf_mem.mpr hl)
      simp at hnot
  | some r =>
      obtain rfl : r.id = id := by simpa using List.find?_some hfind
      obtain ⟨l, hl, heq⟩ := (h.rows r).mp (List.mem_of_find?_eq_some hfind)
      refine ⟨some l, congrArg some heq, fun l' => ?_⟩
      rw [hl, Slot.stored.injEq, Option.some.injEq]

end Statement

/-- **A statement is an operation of the mailbox**: what it is answered fits the mailbox, and the
table it leaves stores what the operation leaves. -/
theorem Query.execute_simulates {t : Table} {m : Mails} (h : t.Stores m) (q : Query)
    (choice : ScanChoice) :
    ∃ op, q.Shows (q.execute choice t).1 op ∧ op.Observed m ∧
      (q.execute choice t).2.Stores (op.apply m) := by
  have hlists : ∀ channel (r : Row → Row → Prop) [DecidableRel r],
      ∃ found : List (ℤ × Mail), orderBy r choice.order (t.inChannel channel) = found.map rowOf ∧
        m.Lists channel found := fun channel r _ => h.lists_of_perm (orderBy_perm r _ _)
  have hread : ∀ op : MailOp, (∀ i, op.brings i = none) → (∀ i l, op.takes i l = false) →
      (∀ i l, op.revise i l = l) → t.Stores (op.apply m) := fun op => h.same
  cases q with
  | insert channel headers payload receivedAt =>
      refine ⟨_, rfl, ?_, h.insert channel headers payload receivedAt⟩
      exact (h.seq _).mpr (Or.inr (Int.lt_succ t.seq))
  | readAndDeleteByChannel channel limit =>
      obtain ⟨found, hfound, hobserved, hstores⟩ := h.collect choice channel limit
      exact ⟨_, ⟨found, hfound, rfl⟩, hobserved, hstores⟩
  | peekOldestDueByChannel channel now =>
      obtain ⟨found, hfound, hobserved⟩ := h.offer choice channel now
      exact ⟨_, ⟨found, hfound, rfl⟩, hobserved,
        hread _ (fun _ => rfl) (fun _ _ => rfl) (fun _ _ => rfl)⟩
  | listByChannel channel =>
      obtain ⟨found, hfound, hlists⟩ := hlists channel Row.Newer
      refine ⟨_, ⟨found, hfound, rfl⟩, ⟨hlists, ?_⟩,
        hread _ (fun _ => rfl) (fun _ _ => rfl) (fun _ _ => rfl)⟩
      have hsorted := orderBy_pairwise Row.Newer choice.order (t.inChannel channel)
      rw [hfound, List.pairwise_map] at hsorted
      exact hsorted.imp fun hnewer => older_rowOf.mp hnewer
  | listQueueByChannel channel =>
      obtain ⟨found, hfound, hlists⟩ := hlists channel Row.Older
      refine ⟨_, ⟨found, hfound, rfl⟩, ⟨hlists, ?_⟩,
        hread _ (fun _ => rfl) (fun _ _ => rfl) (fun _ _ => rfl)⟩
      have hsorted := orderBy_pairwise Row.Older choice.order (t.inChannel channel)
      rw [hfound, List.pairwise_map] at hsorted
      exact hsorted.imp fun holder => older_rowOf.mp holder
  | deleteById id =>
      obtain ⟨was, haffected, hwas⟩ := exists_affected t id
      refine ⟨_, ⟨was, haffected, rfl⟩, hwas.trans h.has_iff.symm, ?_⟩
      refine h.keep (fun _ => rfl) (fun _ _ => rfl) fun i l _ => ?_
      rw [decide_eq_true_eq, id_rowOf]
      simp [Mailbox.Op.takes]
  | recordForwardFailure now message next id =>
      obtain ⟨was, haffected, hwas⟩ := exists_affected t id
      refine ⟨_, ⟨was, haffected, rfl⟩, hwas.trans h.has_iff.symm, ?_⟩
      exact h.update (Row.failed_id _ _ _ _) (failed_rowOf choice.coerce now message next)
        (fun _ => rfl) (fun _ _ => rfl) (fun _ _ => rfl)
  | resetForwardAttempts id =>
      obtain ⟨was, haffected, hwas⟩ := exists_affected t id
      refine ⟨_, ⟨was, haffected, rfl⟩, hwas.trans h.has_iff.symm, ?_⟩
      exact h.update Row.reset_id reset_rowOf (fun _ => rfl) (fun _ _ => rfl) (fun _ _ => rfl)
  | countByChannel channel =>
      obtain ⟨found, hfound, hlists⟩ := h.lists_of_perm (List.Perm.refl (t.inChannel channel))
      refine ⟨_, ⟨_, rfl, rfl⟩, ⟨found, hlists, ?_⟩,
        hread _ (fun _ => rfl) (fun _ _ => rfl) (fun _ _ => rfl)⟩
      rw [hfound, List.length_map]
  | clearByChannel channel =>
      obtain ⟨found, hfound, hlists⟩ := h.lists_of_perm (List.Perm.refl (t.inChannel channel))
      refine ⟨_, rfl, ⟨found, hlists, ?_⟩, ?_⟩
      · show _ = (t.inChannel channel).length
        rw [hfound, List.length_map]
      · refine h.keep (fun _ => rfl) (fun _ _ => rfl) fun i l _ => ?_
        rw [Bool.not_eq_true', ← Bool.not_eq_true, inChannel_rowOf, ← Bool.not_eq_true]
        simp [Mailbox.Op.takes]
  | getById id =>
      obtain ⟨found, hfound, hlook⟩ := h.look id
      exact ⟨_, ⟨found, hfound, rfl⟩, hlook,
        hread _ (fun _ => rfl) (fun _ _ => rfl) (fun _ _ => rfl)⟩

/-! ## Histories -/

/-- The operation a call is: that of its statement when it succeeded, and none otherwise. -/
def Shows : DoneCall → MailOp → Prop
  | ⟨.sql q, .ok a⟩, op => q.Shows a op
  | _, op => op = .idle

/-- Every entry is an operation, observed on the mailbox its table stores. -/
inductive Simulates : List ServiceEntry → List MailOp → Prop where
  | nil : Simulates [] []
  | cons {e : ServiceEntry} {es : List ServiceEntry} {op : MailOp} {ops : List MailOp} :
      Simulates es ops → e.before.table.Stores (Mailbox.after ops) → Shows e.done op →
        op.Observed (Mailbox.after ops) → e.after.table.Stores (Mailbox.after (op :: ops)) →
          Simulates (e :: es) (op :: ops)

/-- The entry stored a webhook under the id. -/
def storesId (id : ℤ) (e : ServiceEntry) : Bool := (storedRow e.done).any fun p => p.1 = id

/-- There was a row with the id before the entry, and none after it. -/
def removesId (id : ℤ) (e : ServiceEntry) : Bool :=
  (e.before.table.rows.any fun r => r.id = id) && !e.after.table.rows.any fun r => r.id = id

/-- Operations that simulate a history are lawful. -/
theorem Simulates.lawful {es : List ServiceEntry} {ops : List MailOp} (h : Simulates es ops) :
    Mailbox.Lawful ops := by
  induction h with
  | nil => trivial
  | cons _ _ _ hobserved _ ih => exact ⟨ih, hobserved⟩

/-- **One entry is one operation.** -/
theorem Performed.simulates {ext : External} {e : ServiceEntry} (h : Performed ext e) {m : Mails}
    (hstores : e.before.table.Stores m) :
    ∃ op, Shows e.done op ∧ op.Observed m ∧ e.after.table.Stores (op.apply m) := by
  rcases h.cases with ⟨htable, hquiet⟩ | ⟨q, choice, hdone, hafter⟩
  · refine ⟨.idle, ?_, trivial, ?_⟩
    · unfold Shows
      split
      · rename_i hd
        exact absurd hd (hquiet _ _)
      · rfl
    · rw [htable]
      exact hstores.same (fun _ => rfl) (fun _ _ => rfl) fun _ _ => rfl
  · obtain ⟨op, hshows, hobserved, hafterOp⟩ := Query.execute_simulates hstores q choice
    refine ⟨op, ?_, hobserved, ?_⟩
    · rw [hdone]
      exact hshows
    · rw [hafter]
      exact hafterOp

/-- An empty table is an empty mailbox. -/
theorem stores_empty : Table.empty.Stores (Mailbox.after []) :=
  ⟨fun r => by simp [Table.empty, Mailbox.after],
    fun i => by simp [Table.empty, Mailbox.after, le_or_gt], le_rfl⟩

namespace AppState

/-- A process that polls, receives a webhook and polls again. -/
def pollingRun : List ServiceEvent :=
  ServiceEvent.task (.request (.poll "orders" .small)) 0 (List.replicate 2 (Input.calm 2000 200)) ++
    ServiceEvent.task (.request .small) 1 (List.replicate 3 (Input.calm 2001 200)) ++
    ServiceEvent.task (.request (.poll "orders" .small)) 2 (List.replicate 2 (Input.calm 2002 200))

/-- A service is killed in the middle of a delivery, and the next process polls twice. -/
theorem exists_pollsAcrossRestart :
    ∃ l : ServiceLives, small.Lives l ∧ l.restarts = 1 ∧ l.history.countP (removesId 1) = 1 ∧
      (l.history.filterMap fun e => (pollOf External.plain e.done).map fun p =>
        p.2.map Webhook.receivedAt) = [[2001], [1000]] := by
  have hrun : ∃ s, small.machine.runEvents small.initial killedRun = some s ∧
      ∃ s', small.machine.runEvents (.fresh (small.restarted s.shared)) pollingRun = some s' ∧
        (s'.history ++ s.history).countP (removesId 1) = 1 ∧
        ((s'.history ++ s.history).filterMap fun e => (pollOf External.plain e.done).map fun p =>
          p.2.map Webhook.receivedAt) = [[2001], [1000]] := by
    decide +kernel
  obtain ⟨s, hs, s', hs', hremoved, hpolled⟩ := hrun
  obtain ⟨hlives, hall⟩ := lives_of_runEvents hs hs'
  exact ⟨_, hlives, rfl, hall ▸ hremoved, hall ▸ hpolled⟩

/-- The history of the service is simulated by the operations of a mailbox, and the table stores
what they leave. -/
theorem Lives.exists_simulates {state : AppState} {l : ServiceLives} (h : state.Lives l) :
    ∃ ops, Simulates l.history ops ∧ l.current.shared.table.Stores (Mailbox.after ops) := by
  refine TaskMachine.Outlives.invariant
    (fun older s => ∃ ops, Simulates (s.history ++ older) ops ∧
      s.shared.table.Stores (Mailbox.after ops)) h ⟨[], .nil, stores_empty⟩
    (fun older s hs => hs) (fun older s j hs _ _ => hs) ?_
  rintro older s n i t c k ⟨ops, hsimulates, hstores⟩ - - -
  have hperformed : Performed state.db.ext (state.machine.entry s n t c i) := ⟨i, rfl⟩
  obtain ⟨op, hshows, hobserved, hafter⟩ := hperformed.simulates hstores
  exact ⟨op :: ops, hsimulates.cons hstores hshows hobserved hafter, hafter⟩

/-- **The service refines the mailbox.**  Over any number of restarts, and whatever the order of
all calls, the history of the service is a lawful history of a mailbox, and the table stores the
letters that are left in it. -/
theorem service_refines_mailbox (state : AppState) {l : ServiceLives} (h : state.Lives l) :
    ∃ ops, Simulates l.history ops ∧ Mailbox.Lawful ops ∧
      l.current.shared.table.Stores (Mailbox.after ops) := by
  obtain ⟨ops, hops, hstores⟩ := h.exists_simulates
  exact ⟨ops, hops, hops.lawful, hstores⟩

/-- A process is killed in the middle of a delivery and the next one polls twice: all calls of
both are one history of a mailbox, which is empty at the end. -/
theorem service_refines_mailbox_small :
    ∃ l : ServiceLives, small.Lives l ∧ l.restarts = 1 ∧ l.history.countP (removesId 1) = 1 ∧
      ∃ ops, Simulates l.history ops ∧ Mailbox.Lawful ops ∧
        l.current.shared.table.Stores (Mailbox.after ops) := by
  obtain ⟨l, hlives, hrestarts, hremoved, -⟩ := exists_pollsAcrossRestart
  exact ⟨l, hlives, hrestarts, hremoved, service_refines_mailbox small hlives⟩

end AppState

/-! ## Every webhook leaves once -/

/-- What is stored is accepted. -/
theorem isSome_brings_of_shows {d : DoneCall} {op : MailOp} (h : Shows d op) (id : ℤ) :
    (op.brings id).isSome = (storedRow d).any fun p => p.1 = id := by
  unfold Shows at h
  split at h
  · rename_i q a
    cases q with
    | insert channel headers payload receivedAt =>
        cases h
        by_cases hid : id = a
        · simp [Mailbox.Op.brings, storedRow, hid]
        · simp [Mailbox.Op.brings, storedRow, hid, Ne.symm hid]
    | clearByChannel channel =>
        cases h
        rfl
    | _ =>
        obtain ⟨_, _, rfl⟩ := h
        rfl
  · rename_i hquiet
    subst h
    have hnone : storedRow d = none := by
      unfold storedRow
      split
      · exact absurd rfl (hquiet _ _)
      · rfl
    rw [hnone]
    rfl

/-- There is a row with an id when there is a letter under it. -/
theorem Table.Stores.any_eq_true {t : Table} {m : Mails} (h : t.Stores m) {i : ℤ} :
    (t.rows.any fun r => r.id = i) = true ↔ m.Has i := by
  rw [h.has_iff]
  simp

/-- The rows with an id are the letters under it. -/
theorem Table.Stores.length_filter {t : Table} {m : Mails} (h : t.Stores m) (i : ℤ) :
    (t.rows.filter fun r => r.id = i).length = (m i).kept := by
  obtain ⟨was, hlength, hwas⟩ := exists_affected t i
  rw [← h.has_iff] at hwas
  rw [hlength]
  cases hslot : m i with
  | stored l =>
      rw [hwas.mpr ⟨l, hslot⟩]
      rfl
  | _ =>
      rw [Bool.eq_false_iff.mpr (mt hwas.mp (by simp [Mailbox.Has, hslot]))]
      rfl

/-- Just the ids up to the counter were given out. -/
theorem Table.Stores.given_eq {t : Table} {m : Mails} (h : t.Stores m) (i : ℤ) :
    (m i).given = if 0 < i ∧ i ≤ t.seq then 1 else 0 := by
  have hseq := h.seq i
  cases hslot : m i with
  | unissued =>
      rw [if_neg (by have := hseq.mp hslot; omega)]
      rfl
  | _ =>
      rw [if_pos (by have := mt hseq.mpr (by simp [hslot]); omega)]
      rfl

/-- What is removed is taken. -/
theorem removesId_eq {e : ServiceEntry} {m : Mails} {op : MailOp}
    (hbefore : e.before.table.Stores m) (hafter : e.after.table.Stores (op.apply m)) (id : ℤ) :
    (removesId id e).toNat = (m id).lost (op.takes id) := by
  have hhad : (e.before.table.rows.any fun r => r.id = id) = true ↔ m.Has id := hbefore.any_eq_true
  have hhas : (e.after.table.rows.any fun r => r.id = id) = true ↔ (op.apply m).Has id :=
    hafter.any_eq_true
  unfold removesId
  cases hslot : m id with
  | unissued =>
      have hnot : ¬m.Has id := by simp [Mailbox.Has, hslot]
      simp [Bool.eq_false_iff.mpr (mt hhad.mp hnot), Slot.lost]
  | gone =>
      have hnot : ¬m.Has id := by simp [Mailbox.Has, hslot]
      simp [Bool.eq_false_iff.mpr (mt hhad.mp hnot), Slot.lost]
  | stored l =>
      rw [hhad.mpr ⟨l, hslot⟩]
      rcases Mailbox.apply_of_stored op hslot with ⟨htakes, hgone⟩ | ⟨hkept, l', hl', -⟩
      · have hnot : ¬(op.apply m).Has id := by simp [Mailbox.Has, hgone]
        simp [Bool.eq_false_iff.mpr (mt hhas.mp hnot), Slot.lost, htakes]
      · simp [hhas.mpr ⟨l', hl'⟩, Slot.lost, hkept]

/-- The counts of a history are those of its operations. -/
theorem Simulates.counts {es : List ServiceEntry} {ops : List MailOp} (h : Simulates es ops)
    (id : ℤ) : es.countP (storesId id) = Mailbox.acceptances id ops ∧
      es.countP (removesId id) = Mailbox.takings id ops := by
  induction h with
  | nil => exact ⟨rfl, rfl⟩
  | @cons e es op ops _ hbefore hshows _ hafter ih =>
      have hremoves := removesId_eq hbefore hafter id
      rw [Mailbox.acceptances, List.countP_cons, List.countP_cons, List.countP_cons,
        isSome_brings_of_shows hshows id, Mailbox.takings, ← hremoves, ih.1, ih.2]
      refine ⟨rfl, ?_⟩
      cases removesId id e <;> rfl

namespace AppState

/-- **Every webhook leaves once.**  Over any number of restarts: just the ids up to the counter
were given out, each to one webhook, and it is stored still or was removed by one entry. -/
theorem every_webhook_leaves_once (state : AppState) {l : ServiceLives} (h : state.Lives l)
    (id : ℤ) :
    l.history.countP (storesId id) = l.history.countP (removesId id) +
        (l.current.shared.table.rows.filter fun r => r.id = id).length ∧
      l.history.countP (storesId id) =
        if 0 < id ∧ id ≤ l.current.shared.table.seq then 1 else 0 := by
  obtain ⟨ops, hsimulates, hstores⟩ := h.exists_simulates
  obtain ⟨hgiven, hkept⟩ := hsimulates.lawful.conserved id
  obtain ⟨hstored, hremoved⟩ := hsimulates.counts id
  rw [hstored, hremoved, hstores.length_filter id]
  exact ⟨hkept, hgiven.trans (hstores.given_eq id)⟩

/-- A webhook is received by one process and polled by the next: it was stored once and removed
once. -/
theorem every_webhook_leaves_once_small :
    ∃ l : ServiceLives, small.Lives l ∧ l.restarts = 1 ∧ l.history.countP (removesId 1) = 1 ∧
      l.history.countP (storesId 1) = l.history.countP (removesId 1) +
        (l.current.shared.table.rows.filter fun r => r.id = 1).length := by
  obtain ⟨l, hlives, hrestarts, hremoved, -⟩ := exists_pollsAcrossRestart
  exact ⟨l, hlives, hrestarts, hremoved, (every_webhook_leaves_once small hlives 1).1⟩

end AppState

/-! ## Polls in order -/

/-- A poll collects. -/
theorem exists_collect_of_pollOf {ext : External} {d : DoneCall} {op : MailOp} (h : Shows d op)
    {channel : WebhookChannel} {webhooks : List Webhook}
    (hpoll : pollOf ext d = some (channel, webhooks)) :
    ∃ limit found, op = .collect channel limit found ∧
      webhooks = (found.map rowOf).filterMap (parseWebhookRow ext) := by
  unfold pollOf at hpoll
  split at hpoll
  · cases hpoll
    obtain ⟨found, rfl, rfl⟩ := h
    exact ⟨_, found, rfl, rfl⟩
  · cases hpoll

/-- The letter a webhook was read from. -/
theorem exists_mail_of_mem {ext : External} {found : List (ℤ × Mail)} {w : Webhook}
    (h : w ∈ (found.map rowOf).filterMap (parseWebhookRow ext)) :
    ∃ p ∈ found, w.id = some p.1 ∧ w.receivedAt = p.2.arrived := by
  obtain ⟨row, hrow, hparse⟩ := List.mem_filterMap.mp h
  obtain ⟨p, hp, rfl⟩ := List.mem_map.mp hrow
  obtain ⟨hid, -, -, -, hreceived, -⟩ := parseWebhookRow_eq_some hparse
  exact ⟨p, hp, hid, (SqlValue.int.inj hreceived).symm⟩

/-- Older entries are simulated by older operations. -/
theorem Simulates.of_append {newer older : List ServiceEntry} {ops : List MailOp}
    (h : Simulates (newer ++ older) ops) :
    ∃ ops₁ ops₂, ops = ops₁ ++ ops₂ ∧ ops₁.length = newer.length ∧ Simulates older ops₂ := by
  induction newer generalizing ops with
  | nil => exact ⟨[], ops, rfl, rfl, h⟩
  | cons e newer ih =>
      cases h with
      | @cons _ _ op ops hrest _ _ _ _ =>
          obtain ⟨ops₁, ops₂, rfl, hlength, holder⟩ := ih hrest
          exact ⟨op :: ops₁, ops₂, rfl, congrArg Nat.succ hlength, holder⟩

/-- Of two webhooks of a channel that were both stored when the earlier poll returned the first,
the one the later poll returns was not received before it. -/
def PolledInOrder (ext : External) (later earlier : ServiceEntry) : Prop :=
  ∀ channel webhooks webhooks', pollOf ext earlier.done = some (channel, webhooks) →
    pollOf ext later.done = some (channel, webhooks') → ∀ w ∈ webhooks, ∀ w' ∈ webhooks',
      (∃ r ∈ earlier.before.table.rows, w'.id = some r.id) → w.receivedAt ≤ w'.receivedAt

theorem Simulates.polledInOrder {ext : External} {es : List ServiceEntry} {ops : List MailOp}
    (h : Simulates es ops) : es.Pairwise (PolledInOrder ext) := by
  induction h with
  | nil => exact List.Pairwise.nil
  | @cons e' es op' ops hsimulates _ hshows' hobserved _ ih =>
      refine List.Pairwise.cons ?_ ih
      rintro e he channel webhooks webhooks' hpoll hpoll' w hw w' hw' ⟨r, hr, hid⟩
      have hlawful : Mailbox.Lawful (op' :: ops) := ⟨hsimulates.lawful, hobserved⟩
      obtain ⟨newer, older, rfl⟩ := List.append_of_mem he
      obtain ⟨ops₁, _, rfl, -, hearlier⟩ := hsimulates.of_append
      cases hearlier with
      | cons _ hbefore hshows _ _ =>
          obtain ⟨limit, found, rfl, rfl⟩ := exists_collect_of_pollOf hshows hpoll
          obtain ⟨limit', found', rfl, rfl⟩ := exists_collect_of_pollOf hshows' hpoll'
          obtain ⟨p, hp, -, hreceived⟩ := exists_mail_of_mem hw
          obtain ⟨p', hp', hid', hreceived'⟩ := exists_mail_of_mem hw'
          rw [hreceived, hreceived']
          refine hlawful.collected_in_order hp hp' (hbefore.has_iff.mpr ⟨r, hr, ?_⟩)
          exact Option.some.inj (hid.symm.trans hid')

namespace AppState

/-- **Polls come in order**, over any number of restarts. -/
theorem polls_come_in_order (state : AppState) {l : ServiceLives} (h : state.Lives l) :
    l.history.Pairwise (PolledInOrder state.db.ext) := by
  obtain ⟨ops, hsimulates, -⟩ := h.exists_simulates
  exact hsimulates.polledInOrder

/-- After a restart one poll hands out the webhook of the process before and a second poll the
one received in between. -/
theorem polls_come_in_order_small :
    ∃ l : ServiceLives, small.Lives l ∧ l.restarts = 1 ∧
      (l.history.filterMap fun e => (pollOf External.plain e.done).map fun p =>
        p.2.map Webhook.receivedAt) = [[2001], [1000]] ∧
      l.history.Pairwise (PolledInOrder External.plain) := by
  obtain ⟨l, hlives, hrestarts, -, hpolled⟩ := exists_pollsAcrossRestart
  exact ⟨l, hlives, hrestarts, hpolled, polls_come_in_order small hlives⟩

end AppState
