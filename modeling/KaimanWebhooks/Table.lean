/-
# The webhooks table

The rows of the SQLite table as the database keeps them, cell by cell, and the eleven
statements the storage adapter issues.  A statement is atomic.  What it leaves open —
the order of rows with equal sort keys, the order of `RETURNING` rows — is a parameter
of its execution.

A `Table` carries the two facts the id column rests on: ids are distinct, and none is
above the sequence counter the next id is taken from.
-/
import KaimanWebhooks.OrderedScan
import KaimanWebhooks.Webhook
import KaimanWebhooks.Crypto

/-! ## Cells -/

/-- A value in its storage class. -/
inductive SqlValue : Type where
  | null
  | int (n : ℤ)
  | real (q : ℚ)
  | text (s : String)
  | blob (b : Bytes)
  deriving DecidableEq

namespace SqlValue

/-- The place of the storage class in the order of classes. -/
def rank : SqlValue → ℕ
  | .null => 0
  | .int _ => 1
  | .real _ => 1
  | .text _ => 2
  | .blob _ => 3

/-- The number a value is compared by. -/
def number : SqlValue → ℚ
  | .int n => n
  | .real q => q
  | _ => 0

/-- The bytes a value is compared by. -/
def bytes : SqlValue → Bytes
  | .text s => utf8Bytes s
  | .blob b => b
  | _ => []

/-- Byte by byte, a prefix before its extensions. -/
def leBytes : Bytes → Bytes → Bool
  | [], _ => true
  | _ :: _, [] => false
  | a :: as, b :: bs => a.toNat < b.toNat || (a.toNat == b.toNat && leBytes as bs)

/-- The order of `ORDER BY`: by storage class, then by value. -/
def le (a b : SqlValue) : Bool :=
  a.rank < b.rank ||
    (a.rank == b.rank && (a.number < b.number || (a.number == b.number && leBytes a.bytes b.bytes)))

theorem leBytes_total (a b : Bytes) : leBytes a b = true ∨ leBytes b a = true := by
  induction a generalizing b with
  | nil => exact Or.inl rfl
  | cons x a ih =>
      cases b with
      | nil => exact Or.inr rfl
      | cons y b =>
          simp only [leBytes, Bool.or_eq_true, decide_eq_true_eq, Bool.and_eq_true, beq_iff_eq]
          rcases lt_trichotomy x.toNat y.toNat with h | h | h
          · exact Or.inl (Or.inl h)
          · exact (ih b).imp (fun hb => Or.inr ⟨h, hb⟩) (fun hb => Or.inr ⟨h.symm, hb⟩)
          · exact Or.inr (Or.inl h)

theorem leBytes_trans {a b c : Bytes} (hab : leBytes a b = true) (hbc : leBytes b c = true) :
    leBytes a c = true := by
  induction a generalizing b c with
  | nil => rfl
  | cons x a ih =>
      cases b with
      | nil => cases hab
      | cons y b =>
          cases c with
          | nil => cases hbc
          | cons z c =>
              simp only [leBytes, Bool.or_eq_true, decide_eq_true_eq, Bool.and_eq_true,
                beq_iff_eq] at hab hbc ⊢
              rcases hab with hxy | ⟨hxy, hab⟩
              · rcases hbc with hyz | ⟨hyz, -⟩
                · exact Or.inl (lt_trans hxy hyz)
                · exact Or.inl (hyz ▸ hxy)
              · rcases hbc with hyz | ⟨hyz, hbc⟩
                · exact Or.inl (hxy ▸ hyz)
                · exact Or.inr ⟨hxy.trans hyz, ih hab hbc⟩

theorem le_total (a b : SqlValue) : a.le b = true ∨ b.le a = true := by
  simp only [le, Bool.or_eq_true, decide_eq_true_eq, Bool.and_eq_true, beq_iff_eq]
  rcases lt_trichotomy a.rank b.rank with h | h | h
  · exact Or.inl (Or.inl h)
  · rcases lt_trichotomy a.number b.number with h' | h' | h'
    · exact Or.inl (Or.inr ⟨h, Or.inl h'⟩)
    · exact (leBytes_total a.bytes b.bytes).imp (fun hb => Or.inr ⟨h, Or.inr ⟨h', hb⟩⟩)
        (fun hb => Or.inr ⟨h.symm, Or.inr ⟨h'.symm, hb⟩⟩)
    · exact Or.inr (Or.inr ⟨h.symm, Or.inl h'⟩)
  · exact Or.inr (Or.inl h)

theorem le_trans {a b c : SqlValue} (hab : a.le b = true) (hbc : b.le c = true) :
    a.le c = true := by
  simp only [le, Bool.or_eq_true, decide_eq_true_eq, Bool.and_eq_true, beq_iff_eq] at hab hbc ⊢
  rcases hab with hab | ⟨hab, hab'⟩
  · rcases hbc with hbc | ⟨hbc, -⟩
    · exact Or.inl (lt_trans hab hbc)
    · exact Or.inl (hbc ▸ hab)
  · rcases hbc with hbc | ⟨hbc, hbc'⟩
    · exact Or.inl (hab ▸ hbc)
    · refine Or.inr ⟨hab.trans hbc, ?_⟩
      rcases hab' with hn | ⟨hn, hb⟩
      · rcases hbc' with hn' | ⟨hn', -⟩
        · exact Or.inl (lt_trans hn hn')
        · exact Or.inl (hn' ▸ hn)
      · rcases hbc' with hn' | ⟨hn', hb'⟩
        · exact Or.inl (hn ▸ hn')
        · exact Or.inr ⟨hn.trans hn', leBytes_trans hb hb'⟩

@[simp] theorem le_int (m n : ℤ) : (int m).le (int n) = decide (m ≤ n) := by
  simp only [le, rank, number, bytes, leBytes, lt_self_iff_false, decide_false, Bool.false_or,
    beq_self_eq_true, Bool.true_and, Bool.and_true, Int.cast_lt]
  rcases lt_trichotomy m n with h | rfl | h
  · simp [h, h.le]
  · simp
  · simp [not_lt.mpr h.le, not_le.mpr h, h.ne']

end SqlValue

/-! ## Rows -/

/-- A row; its id is the row id of the table, which is always an integer. -/
structure Row where
  id : ℤ
  channel : SqlValue
  headers : SqlValue
  payload : SqlValue
  receivedAt : SqlValue
  forwardAttempts : SqlValue
  lastAttemptAt : SqlValue
  lastAttemptError : SqlValue
  nextAttemptAt : SqlValue
  deriving DecidableEq

/-- The part of a row an `INSERT` sets. -/
structure Content where
  channel : SqlValue
  headers : SqlValue
  payload : SqlValue
  receivedAt : SqlValue
  deriving DecidableEq

namespace Row

def content (r : Row) : Content := ⟨r.channel, r.headers, r.payload, r.receivedAt⟩

/-- The row an `INSERT` makes: the other columns get their defaults. -/
def inserted (id : ℤ) (c : Content) : Row where
  id := id
  channel := c.channel
  headers := c.headers
  payload := c.payload
  receivedAt := c.receivedAt
  forwardAttempts := .int 0
  lastAttemptAt := .null
  lastAttemptError := .null
  nextAttemptAt := .null

def inChannel (r : Row) (channel : WebhookChannel) : Bool := r.channel = .text channel

/-- `next_attempt_at IS NULL OR next_attempt_at <= now`. -/
def isDue (r : Row) (now : ℤ) : Bool :=
  r.nextAttemptAt = .null || r.nextAttemptAt.le (.int now)

/-- `forward_attempts + 1`; `coerce` says what becomes of a cell that is not an integer.  The
counter, like the ids, is not bounded here: no run makes `2 ^ 63` attempts. -/
def nextForwardAttempts (coerce : SqlValue → SqlValue) (r : Row) : SqlValue :=
  match r.forwardAttempts with
  | .int n => .int (n + 1)
  | v => coerce v

/-- The row after a failed delivery was recorded. -/
def failed (coerce : SqlValue → SqlValue) (now : ℤ) (message : String) (nextAttemptAt : ℤ)
    (r : Row) : Row :=
  { r with
    forwardAttempts := r.nextForwardAttempts coerce
    lastAttemptAt := .int now
    lastAttemptError := .text message
    nextAttemptAt := .int nextAttemptAt }

/-- The row after its attempts were reset. -/
def reset (r : Row) : Row :=
  { r with
    forwardAttempts := .int 0
    lastAttemptAt := .null
    lastAttemptError := .null
    nextAttemptAt := .null }

@[simp] theorem inserted_id (id : ℤ) (c : Content) : (inserted id c).id = id := rfl
@[simp] theorem inserted_content (id : ℤ) (c : Content) : (inserted id c).content = c := rfl

section Failed

variable (coerce : SqlValue → SqlValue) (now : ℤ) (message : String) (next : ℤ) (r : Row)

@[simp] theorem failed_id : (r.failed coerce now message next).id = r.id := rfl
@[simp] theorem failed_content : (r.failed coerce now message next).content = r.content := rfl
@[simp] theorem failed_channel : (r.failed coerce now message next).channel = r.channel := rfl

end Failed

@[simp] theorem reset_id (r : Row) : r.reset.id = r.id := rfl
@[simp] theorem reset_content (r : Row) : r.reset.content = r.content := rfl

/-- Oldest first. -/
def Older (a b : Row) : Prop := a.receivedAt.le b.receivedAt = true

/-- Newest first. -/
def Newer (a b : Row) : Prop := b.receivedAt.le a.receivedAt = true

instance : DecidableRel Older := fun _ _ => inferInstanceAs (Decidable (_ = true))
instance : DecidableRel Newer := fun _ _ => inferInstanceAs (Decidable (_ = true))
instance : Std.Total Older := ⟨fun _ _ => SqlValue.le_total _ _⟩
instance : IsTrans Row Older := ⟨fun _ _ _ => SqlValue.le_trans⟩
instance : Std.Total Newer := ⟨fun _ _ => SqlValue.le_total _ _⟩
instance : IsTrans Row Newer := ⟨fun _ _ _ hab hbc => SqlValue.le_trans hbc hab⟩

end Row

/-! ## Reading a row back -/

/-- What a column fails to decode with: the error names the column. -/
abbrev ColumnError : Type := String

/-- The decoders of the driver: a value is accepted by its storage class. -/
def decodeInt (column : String) : SqlValue → Except ColumnError ℤ
  | .int n => .ok n
  | _ => .error column

def decodeText (column : String) : SqlValue → Except ColumnError String
  | .text s => .ok s
  | _ => .error column

def decodeBytes (column : String) : SqlValue → Except ColumnError Bytes
  | .blob b => .ok b
  | .text s => .ok (utf8Bytes s)
  | _ => .error column

def decodeOption {α : Type} (decode : SqlValue → Except ColumnError α) :
    SqlValue → Except ColumnError (Option α)
  | .null => .ok none
  | v => (decode v).map some

/-- Read a row, reporting the first column that does not decode. -/
def readWebhookRow (ext : External) (row : Row) : Except ColumnError Webhook := do
  let channel ← decodeText "channel" row.channel
  let headersStr ← decodeText "headers" row.headers
  let payload ← decodeBytes "payload" row.payload
  let receivedAt ← decodeInt "received_at" row.receivedAt
  let forwardAttempts ← decodeInt "forward_attempts" row.forwardAttempts
  let lastAttemptAt ← decodeOption (decodeInt "last_attempt_at") row.lastAttemptAt
  let lastAttemptError ← decodeOption (decodeText "last_attempt_error") row.lastAttemptError
  let nextAttemptAt ← decodeOption (decodeInt "next_attempt_at") row.nextAttemptAt
  -- unparsable headers must not cost the payload
  let headers := match ext.decodeHeaders headersStr with
    | .ok headers => headers
    | .error _ => StringMap.empty
  return {
    id := some row.id
    channel := channel
    headers := headers
    payload := payload
    receivedAt := receivedAt
    forwardAttempts := forwardAttempts
    lastAttemptAt := lastAttemptAt
    lastAttemptError := lastAttemptError
    nextAttemptAt := nextAttemptAt }

/-- A row that cannot be read is skipped. -/
def parseWebhookRow (ext : External) (row : Row) : Option Webhook :=
  match readWebhookRow ext row with
  | .ok webhook => some webhook
  | .error _ => none

/-- A computation in two steps succeeds when both do. -/
theorem Except.bind_eq_ok {ε α β : Type} {x : Except ε α} {f : α → Except ε β} {b : β} :
    (x >>= f) = .ok b ↔ ∃ a, x = .ok a ∧ f a = .ok b := by
  cases x with
  | error e => simp [bind, Except.bind]
  | ok a => simp [bind, Except.bind]

theorem decodeText_eq_ok {column s : String} {v : SqlValue} :
    decodeText column v = .ok s ↔ v = .text s := by
  cases v <;> simp [decodeText]

theorem decodeInt_eq_ok {column : String} {n : ℤ} {v : SqlValue} :
    decodeInt column v = .ok n ↔ v = .int n := by
  cases v <;> simp [decodeInt]

theorem readWebhookRow_of_parseWebhookRow {ext : External} {row : Row} {webhook : Webhook}
    (h : parseWebhookRow ext row = some webhook) : readWebhookRow ext row = .ok webhook := by
  simp only [parseWebhookRow] at h
  split at h
  · cases h
    assumption
  · cases h

/-- **What a webhook says about the row it was read from.** -/
theorem parseWebhookRow_eq_some {ext : External} {row : Row} {webhook : Webhook}
    (h : parseWebhookRow ext row = some webhook) :
    webhook.id = some row.id ∧ row.channel = .text webhook.channel ∧
      (∃ headers, row.headers = .text headers ∧
        webhook.headers = (ext.decodeHeaders headers).toOption.getD StringMap.empty) ∧
      decodeBytes "payload" row.payload = .ok webhook.payload ∧
      row.receivedAt = .int webhook.receivedAt ∧
      row.forwardAttempts = .int webhook.forwardAttempts := by
  have hread := readWebhookRow_of_parseWebhookRow h
  simp only [readWebhookRow, Except.bind_eq_ok, decodeText_eq_ok, decodeInt_eq_ok] at hread
  obtain ⟨channel, hchannel, headers, hheaders, payload, hpayload, receivedAt, hreceived,
    attempts, hattempts, _, -, _, -, _, -, hwebhook⟩ := hread
  cases hwebhook
  refine ⟨rfl, hchannel, ⟨headers, hheaders, ?_⟩, hpayload, hreceived, hattempts⟩
  cases ext.decodeHeaders headers <;> rfl

/-- A row has the id of the webhook read from it. -/
theorem id_of_parseWebhookRow {ext : External} {row : Row} {webhook : Webhook} {id : ℤ}
    (h : parseWebhookRow ext row = some webhook) (hid : webhook.id = some id) : row.id = id :=
  Option.some.inj ((parseWebhookRow_eq_some h).1.symm.trans hid)

/-- A webhook has as many attempts as the row it was read from. -/
theorem forwardAttempts_of_parseWebhookRow {ext : External} {row : Row} {webhook : Webhook} {n : ℤ}
    (h : parseWebhookRow ext row = some webhook) (hn : row.forwardAttempts = .int n) :
    webhook.forwardAttempts = n :=
  SqlValue.int.inj ((parseWebhookRow_eq_some h).2.2.2.2.2.symm.trans hn)

/-- The cells hold what the decoders accept. -/
structure Row.WellTyped (r : Row) : Prop where
  channel : ∃ s, r.channel = .text s
  headers : ∃ s, r.headers = .text s
  payload : ∃ b, r.payload = .blob b
  receivedAt : ∃ n, r.receivedAt = .int n
  forwardAttempts : ∃ n, r.forwardAttempts = .int n
  lastAttemptAt : r.lastAttemptAt = .null ∨ ∃ n, r.lastAttemptAt = .int n
  lastAttemptError : r.lastAttemptError = .null ∨ ∃ s, r.lastAttemptError = .text s
  nextAttemptAt : r.nextAttemptAt = .null ∨ ∃ n, r.nextAttemptAt = .int n

theorem exists_decodeOption {α : Type} {decode : SqlValue → Except ColumnError α} {v : SqlValue}
    (h : v = .null ∨ ∃ a, decode v = .ok a) : ∃ o, decodeOption decode v = .ok o := by
  rcases h with rfl | ⟨a, ha⟩
  · exact ⟨none, rfl⟩
  · cases v with
    | null => exact ⟨none, rfl⟩
    | _ => exact ⟨some a, by simp [decodeOption, ha, Except.map]⟩

/-- **A well-typed row can be read.** -/
theorem Row.WellTyped.exists_webhook {r : Row} (h : r.WellTyped) (ext : External) :
    ∃ webhook, parseWebhookRow ext r = some webhook := by
  obtain ⟨channel, hchannel⟩ := h.channel
  obtain ⟨headers, hheaders⟩ := h.headers
  obtain ⟨payload, hpayload⟩ := h.payload
  obtain ⟨receivedAt, hreceived⟩ := h.receivedAt
  obtain ⟨attempts, hattempts⟩ := h.forwardAttempts
  have hat : ∃ o, decodeOption (decodeInt "last_attempt_at") r.lastAttemptAt = .ok o :=
    exists_decodeOption (h.lastAttemptAt.imp_right (Exists.imp fun _ => decodeInt_eq_ok.mpr))
  have herror : ∃ o, decodeOption (decodeText "last_attempt_error") r.lastAttemptError = .ok o :=
    exists_decodeOption (h.lastAttemptError.imp_right (Exists.imp fun _ => decodeText_eq_ok.mpr))
  have hnext : ∃ o, decodeOption (decodeInt "next_attempt_at") r.nextAttemptAt = .ok o :=
    exists_decodeOption (h.nextAttemptAt.imp_right (Exists.imp fun _ => decodeInt_eq_ok.mpr))
  obtain ⟨lastAttemptAt, hat⟩ := hat
  obtain ⟨lastAttemptError, herror⟩ := herror
  obtain ⟨nextAttemptAt, hnext⟩ := hnext
  have hread : ∃ webhook, readWebhookRow ext r = .ok webhook := by
    simp [readWebhookRow, bind, Except.bind, pure, Except.pure, hchannel, hheaders, hpayload,
      hreceived, hattempts, hat, herror, hnext, decodeText, decodeInt, decodeBytes]
  obtain ⟨webhook, hread⟩ := hread
  exact ⟨webhook, by simp only [parseWebhookRow, hread]⟩

theorem Row.wellTyped_inserted (id : ℤ) (channel headers : String) (payload : Bytes)
    (receivedAt : ℤ) :
    (Row.inserted id ⟨.text channel, .text headers, .blob payload, .int receivedAt⟩).WellTyped :=
  ⟨⟨_, rfl⟩, ⟨_, rfl⟩, ⟨_, rfl⟩, ⟨_, rfl⟩, ⟨_, rfl⟩, Or.inl rfl, Or.inl rfl, Or.inl rfl⟩

theorem Row.WellTyped.failed {r : Row} (h : r.WellTyped) (coerce : SqlValue → SqlValue)
    (now : ℤ) (message : String) (next : ℤ) : (r.failed coerce now message next).WellTyped := by
  obtain ⟨n, hn⟩ := h.forwardAttempts
  refine ⟨h.channel, h.headers, h.payload, h.receivedAt, ⟨n + 1, ?_⟩, Or.inr ⟨now, rfl⟩,
    Or.inr ⟨message, rfl⟩, Or.inr ⟨next, rfl⟩⟩
  simp only [Row.failed, Row.nextForwardAttempts, hn]

theorem Row.WellTyped.reset {r : Row} (h : r.WellTyped) : r.reset.WellTyped :=
  ⟨h.channel, h.headers, h.payload, h.receivedAt, ⟨0, rfl⟩, Or.inl rfl, Or.inl rfl, Or.inl rfl⟩
