/-
# One outcome, recorded twice

A forwarder and a manual retry that send the same webhook and get the same answer leave the
same row behind, with one exception: the forwarder shortens the text of a long response and
the manual retry does not.
-/
import KaimanWebhooks.ForwardSafety
import KaimanWebhooks.Signing

/-! ## Bodies recorded whole -/

namespace Text

/-- A text of decimal digits has one byte a character. -/
theorem byteLength_of_isDigit {cs : List Char} (h : ∀ c ∈ cs, c.isDigit = true) :
    byteLength cs = cs.length := by
  induction cs with
  | nil => rfl
  | cons c cs ih =>
      have hdigit : c.val.toNat ≤ 57 := by
        have hc := h c List.mem_cons_self
        simp only [Char.isDigit, Bool.and_eq_true, decide_eq_true_eq] at hc
        exact hc.2
      have hsize : c.utf8Size = 1 := by
        rw [Char.utf8Size_eq_one_iff]
        exact (UInt32.le_iff_toNat_le).mpr (by simpa using hdigit.trans (by norm_num))
      rw [byteLength_cons, hsize, ih fun d hd => h d (List.mem_cons_of_mem _ hd),
        List.length_cons, Nat.add_comm]

/-- The digits of a number. -/
theorem byteLength_toString (n : ℕ) :
    byteLength (toString n).toList = (Nat.toDigits 10 n).length := by
  have hdigits : (toString n).toList = Nat.toDigits 10 n := Nat.toList_repr
  rw [hdigits]
  exact byteLength_of_isDigit fun c hc => Nat.isDigit_of_mem_toDigits (by norm_num) le_rfl hc

/-- The only length that is 529 more than the number of its digits. -/
theorem eq_of_eq_add_length_toDigits {n : ℕ} (h : n = 529 + (Nat.toDigits 10 n).length) :
    n = 532 := by
  by_cases hthree : (Nat.toDigits 10 n).length ≤ 3
  · by_cases htwo : (Nat.toDigits 10 n).length ≤ 2
    · have hlt := (Nat.length_toDigits_le_iff (by norm_num) (by norm_num)).mp htwo
      omega
    · omega
  · -- a longer number outgrows the count of its digits
    exfalso
    obtain ⟨m, hm⟩ := Nat.exists_eq_add_of_lt (not_le.mp hthree)
    have hnot : ¬(Nat.toDigits 10 n).length ≤ m + 3 := by omega
    rw [Nat.length_toDigits_le_iff (by norm_num) (by omega)] at hnot
    have hpow : m + 1 ≤ 10 ^ m := Nat.lt_pow_self (by norm_num)
    have hsplit : 10 ^ (m + 3) = 10 ^ m * 1000 := by rw [pow_add]; norm_num
    omega

end Text

/-- What the forwarder ends a shortened body of 532 bytes with. -/
def previewMark : String := "…(532 bytes total)"

/-- The text of the response is recorded whole by the forwarder: it has at most 512 bytes, or
it looks as if it had been shortened already. -/
def RecordedWhole (resp : WireResponse) : Prop :=
  Text.byteLength resp.bodyText.toList ≤ maxBody ∨
    ∃ front, Text.byteLength front = maxBody ∧
      resp.bodyText.toList = front ++ previewMark.toList

/-- The mark is written around the number of bytes. -/
theorem toList_previewMark : previewMark.toList =
    "…(".toList ++ ((toString 532).toList ++ " bytes total)".toList) := by decide

/-- A text that ends in the mark of its own length has 532 bytes: 512 of the text before it, 17 of
the mark, and the digits of the length they all add up to. -/
theorem byteLength_eq_of_marked {front body : List Char} (hfront : Text.byteLength front = maxBody)
    (hlist : front ++ ("…(".toList ++ ((toString (Text.byteLength body)).toList ++
      " bytes total)".toList)) = body) : Text.byteLength body = 532 := by
  have hlength := congrArg Text.byteLength hlist
  rw [Text.byteLength_append, Text.byteLength_append, Text.byteLength_append, hfront,
    Text.byteLength_toString] at hlength
  have hopen : Text.byteLength "…(".toList = 4 := by decide
  have hclose : Text.byteLength " bytes total)".toList = 13 := by decide
  rw [hopen, hclose] at hlength
  refine Text.eq_of_eq_add_length_toDigits ?_
  unfold maxBody at hlength
  omega

/-- **A body is its own preview** exactly when it is recorded whole. -/
theorem readBodyPreview_eq_body_iff {resp : WireResponse} :
    readBodyPreview resp = some resp.bodyText ↔ RecordedWhole resp := by
  unfold readBodyPreview RecordedWhole
  dsimp only
  generalize resp.bodyText = body
  split
  · rename_i hlong
    rw [or_iff_right (not_le.mpr hlong), Option.map_eq_some_iff]
    constructor
    · rintro ⟨front, hslice, hbody⟩
      obtain ⟨hfront, -⟩ := Text.sliceTo_eq_some_iff.mp hslice
      have hlist : front ++ ("…(".toList ++ ((toString (Text.byteLength body.toList)).toList ++
          " bytes total)".toList)) = body.toList := by
        simpa [String.toList_append] using congrArg String.toList hbody
      have htotal := byteLength_eq_of_marked hfront hlist
      rw [htotal, ← toList_previewMark] at hlist
      exact ⟨front, hfront, hlist.symm⟩
    · rintro ⟨front, hfront, hbody⟩
      have hmark : Text.byteLength previewMark.toList = 20 := by decide
      have htotal : Text.byteLength body.toList = 532 := by
        rw [hbody, Text.byteLength_append, hfront, hmark]
        rfl
      refine ⟨front, Text.sliceTo_eq_some_iff.mpr ⟨hfront, _, hbody⟩, ?_⟩
      rw [htotal]
      refine String.toList_inj.mp ?_
      rw [hbody, toList_previewMark]
      simp only [String.toList_append, String.toList_ofList, List.append_assoc]
  · rename_i hshort
    simp [not_lt.mp hshort]

/-! ## What an answer makes of a failure -/

namespace PeerAnswer

/-- Whether a later attempt may succeed. -/
def kind : PeerAnswer → FailureKind
  | .error _ => .transient
  | .ok resp => classifyStatus resp.status

/-- The delay the target asks for, if it answered at all. -/
def retryAfter : PeerAnswer → Option Duration
  | .error _ => none
  | .ok resp => resp.retryAfter

/-- The message the forwarder records; `none` stands for the panic of the shortening. -/
def forwarderMessage : PeerAnswer → Option String
  | .error cause => some ("network error: " ++ cause)
  | .ok resp =>
      (readBodyPreview resp).map fun body => "HTTP " ++ toString resp.status ++ ": " ++ body

/-- The message the manual retry records. -/
def retryMessage : PeerAnswer → String
  | .error cause => "network error: " ++ cause
  | .ok resp => "HTTP " ++ toString resp.status ++ ": " ++ resp.bodyText

/-- The two record the same message when there is no text or it is its own preview. -/
theorem forwarderMessage_eq_retryMessage_iff {answer : PeerAnswer} :
    forwarderMessage answer = some (retryMessage answer) ↔
      ∀ resp, answer = .ok resp → readBodyPreview resp = some resp.bodyText := by
  cases answer with
  | error cause => exact ⟨fun _ => nofun, fun _ => rfl⟩
  | ok resp =>
      unfold forwarderMessage retryMessage
      simp only [Except.ok.injEq, forall_eq', Option.map_eq_some_iff]
      constructor
      · rintro ⟨body, hbody, hmessage⟩
        have hlist := congrArg String.toList hmessage
        simp only [String.toList_append, List.append_cancel_left_eq] at hlist
        rw [hbody, String.toList_inj.mp hlist]
      · intro hbody
        exact ⟨_, hbody, rfl⟩

end PeerAnswer

/-- The due time of a failure, read off one clock; `none` stands for the panic of a delay that
is no duration. -/
def dueTime (fm : FloatModel) (backoff : ForwardBackoff) (attemptsBefore : ℤ)
    (answer : PeerAnswer) (i : Input) : Option ℤ :=
  (nextDelay fm backoff (PeerAnswer.kind answer) (Prog.addI64 attemptsBefore 1)
    (PeerAnswer.retryAfter answer) (clockJitterUnit fm i.nanos)).map fun delay =>
      Prog.addI64 (Prog.asI64 i.unixSeconds) (Prog.asI64 delay.asSecs)

/-- The table once the failure of a webhook was recorded. -/
def recordedTable (i : Input) (t : Table) (id : ℤ) (message : String) (due : ℤ) : Table :=
  t.update id (Row.failed i.choice.coerce (Prog.asI64 i.unixSeconds) message due) fun _ => rfl

/-- The table without a webhook. -/
def deletedTable (t : Table) (id : ℤ) : Table := t.keep fun r => r.id ≠ id

/-! ## What the two leave behind -/

section Undisturbed

variable {i : Input} (hi : i.fault = none) {w : World}

include hi

/-- A failure recorded while nothing fails: the program returns when there is a due time, and
then leaves the failure behind. -/
theorem run_recordFailureThen_undisturbed {α : Type} {db : Sqlite} {backoff : ForwardBackoff}
    {attemptsBefore : ℤ} (answer : PeerAnswer) {id : ℤ} {message : String}
    {next : Except WebhookRepositoryError Unit → AppAction α}
    (hnext : ∀ result, Passive db.ext (next result))
    (hreturns : ∃ a, ((recordFailureThen db backoff (PeerAnswer.kind answer) attemptsBefore
      (PeerAnswer.retryAfter answer) id message next).run (perform db.ext) (fun _ => i)
        w).outcome = .done a) :
    ∃ due, dueTime db.ext.float backoff attemptsBefore answer i = some due ∧
      ((recordFailureThen db backoff (PeerAnswer.kind answer) attemptsBefore
        (PeerAnswer.retryAfter answer) id message next).run (perform db.ext) (fun _ => i)
          w).state.table = recordedTable i w.table id message due := by
  unfold recordFailureThen at hreturns ⊢
  unfold dueTime
  rw [CallProgram.run_call] at hreturns ⊢
  dsimp only [perform] at hreturns ⊢
  cases hdelay : nextDelay db.ext.float backoff (PeerAnswer.kind answer)
      (Prog.addI64 attemptsBefore 1) (PeerAnswer.retryAfter answer)
      (clockJitterUnit db.ext.float i.nanos) with
  | none =>
      rw [hdelay] at hreturns
      obtain ⟨a, ha⟩ := hreturns
      cases ha
  | some delay =>
      refine ⟨_, rfl, ?_⟩
      -- two readings of the clock come before the statement
      exact (run_statement_passive_undisturbed hi hnext).2

/-- **What the forwarder leaves behind** when it returns. -/
theorem Forwarder.run_onAnswer_undisturbed (fw : Forwarder) (id : ℤ) (webhook : Webhook)
    (answer : PeerAnswer)
    (hreturns : ∃ p, ((fw.onAnswer id webhook answer).run (perform fw.db.ext) (fun _ => i)
      w).outcome = .done p) :
    (fw.Accepts answer ∧
      ((fw.onAnswer id webhook answer).run (perform fw.db.ext) (fun _ => i) w).state.table =
        deletedTable w.table id) ∨
    (¬fw.Accepts answer ∧ ∃ due message,
      dueTime fw.db.ext.float fw.backoff webhook.forwardAttempts answer i = some due ∧
      PeerAnswer.forwarderMessage answer = some message ∧
      ((fw.onAnswer id webhook answer).run (perform fw.db.ext) (fun _ => i) w).state.table =
        recordedTable i w.table id message due) := by
  cases answer with
  | error cause =>
      refine Or.inr ⟨?_, ?_⟩
      · rintro ⟨resp, hresp, -⟩
        cases hresp
      · simp only [onAnswer, CallProgram.bind_eq, CallProgram.pure_eq] at hreturns ⊢
        rw [recordFailure_eq, recordFailureThen_bind] at hreturns ⊢
        obtain ⟨due, hdue, htable⟩ := run_recordFailureThen_undisturbed hi (.error cause)
          (fun _ => (fw.passive_afterRecorded _ id _ _).bind fun _ => passive_pure _) hreturns
        exact ⟨due, _, hdue, rfl, htable⟩
  | ok resp =>
      unfold onAnswer at hreturns ⊢
      dsimp only at hreturns ⊢
      by_cases hstatus : resp.status = fw.cfg.expectedStatus
      · rw [if_pos hstatus]
        refine Or.inl ⟨⟨resp, rfl, hstatus⟩, ?_⟩
        refine (run_statement_passive_undisturbed hi fun removed => ?_).2
        refine passive_call (by simp) fun _ => passive_call (by simp) fun _ => ?_
        cases removed <;> exact passive_pure _
      · rw [if_neg hstatus] at hreturns ⊢
        refine Or.inr ⟨?_, ?_⟩
        · rintro ⟨resp', hresp', hstatus'⟩
          cases hresp'
          exact hstatus hstatus'
        · unfold PeerAnswer.forwarderMessage
          cases hpreview : readBodyPreview resp with
          | none =>
              rw [hpreview] at hreturns
              obtain ⟨p, hp⟩ := hreturns
              cases hp
          | some preview =>
              rw [hpreview] at hreturns
              simp only [CallProgram.bind_eq, CallProgram.pure_eq] at hreturns ⊢
              rw [recordFailure_eq, recordFailureThen_bind] at hreturns ⊢
              obtain ⟨due, hdue, htable⟩ := run_recordFailureThen_undisturbed hi (.ok resp)
                (fun _ => (fw.passive_afterRecorded _ id _ _).bind fun _ => passive_pure _)
                hreturns
              exact ⟨due, _, hdue, by rw [hpreview]; rfl, htable⟩

/-- **What the manual retry leaves behind** when it returns. -/
theorem RetryContext.run_onAnswer_undisturbed (ctx : RetryContext) (answer : PeerAnswer)
    (hreturns : ∃ r, ((ctx.onAnswer answer).run (perform ctx.state.db.ext) (fun _ => i)
      w).outcome = .done r) :
    ((∃ resp, answer = .ok resp ∧ resp.status = ctx.forwardCfg.expectedStatus) ∧
      ((ctx.onAnswer answer).run (perform ctx.state.db.ext) (fun _ => i) w).state.table =
        deletedTable w.table ctx.webhookId) ∨
    ((¬∃ resp, answer = .ok resp ∧ resp.status = ctx.forwardCfg.expectedStatus) ∧
      ∃ due, dueTime ctx.state.db.ext.float
          (ctx.forwardCfg.resolveBackoff ctx.state.config.forwardBackoff)
          ctx.webhook.forwardAttempts answer i = some due ∧
        ((ctx.onAnswer answer).run (perform ctx.state.db.ext) (fun _ => i) w).state.table =
          recordedTable i w.table ctx.webhookId (PeerAnswer.retryMessage answer) due) := by
  cases answer with
  | error cause =>
      refine Or.inr ⟨by simp, ?_⟩
      simp only [onAnswer, onTransportError, CallProgram.bind_eq, CallProgram.pure_eq]
        at hreturns ⊢
      rw [recordFailure_eq, recordFailureThen_bind] at hreturns ⊢
      exact run_recordFailureThen_undisturbed hi (.error cause)
        (fun _ => (ctx.passive_afterRecorded _ _).bind fun _ => passive_pure _) hreturns
  | ok resp =>
      unfold onAnswer onResponse at hreturns ⊢
      dsimp only at hreturns ⊢
      by_cases hstatus : resp.status = ctx.forwardCfg.expectedStatus
      · rw [if_neg (not_not.mpr hstatus)]
        refine Or.inl ⟨⟨resp, rfl, hstatus⟩, ?_⟩
        unfold forgetDelivered
        simp only [CallProgram.bind_eq, CallProgram.pure_eq, CallProgram.bind_assoc]
        refine (run_statement_passive_undisturbed hi fun removed => ?_).2
        exact passive_call (by simp) fun _ => passive_call (by simp) fun _ => passive_pure _
      · rw [if_pos hstatus] at hreturns ⊢
        refine Or.inr ⟨by simpa using hstatus, ?_⟩
        simp only [CallProgram.bind_eq, CallProgram.pure_eq] at hreturns ⊢
        rw [recordFailure_eq, recordFailureThen_bind] at hreturns ⊢
        exact run_recordFailureThen_undisturbed hi (.ok resp)
          (fun _ => (ctx.passive_afterRecorded _ _).bind fun _ => passive_pure _) hreturns

end Undisturbed

/-! ## The two programs -/

section Programs

variable {state : AppState} {channel : String} {headers : HeaderMap} {ch : WebhookChannelConfig}
  {fwd : WebhookForwardConfig} {i : Input} {w : World} {webhook : Webhook} {id : ℤ}
  {request : HttpRequest}

/-- A peek while nothing fails. -/
theorem Forwarder.run_peek_undisturbed (fw : Forwarder) (hi : i.fault = none) (w : World) :
    (fw.peek.run (perform fw.db.ext) (fun _ => i) w).state = w ∧
      (fw.peek.run (perform fw.db.ext) (fun _ => i) w).outcome =
        .done (.ok (((Query.peekOldestDueByChannel fw.channel (Prog.asI64 i.unixSeconds)).execute
          i.choice w.table).1.bind (parseWebhookRow fw.db.ext))) := by
  simp only [peek, Sqlite.peekOldestDueByChannel, CallProgram.bind_eq, CallProgram.bind_call,
    CallProgram.bind_pure_left, CallProgram.run_call]
  have hnow : perform fw.db.ext .systemNow i w = (i.unixSeconds, w) := rfl
  rw [hnow]
  dsimp only
  rw [run_statement_undisturbed hi]
  exact ⟨rfl, rfl⟩

/-- The webhook a pass selects was read from a row of the channel. -/
theorem Forwarder.exists_row_of_peek (fw : Forwarder) (hi : i.fault = none)
    (hpeek : (fw.peek.run (perform fw.db.ext) (fun _ => i) w).outcome =
      .done (.ok (some webhook))) :
    ∃ row ∈ w.table.rows, row.inChannel fw.channel = true ∧
      parseWebhookRow fw.db.ext row = some webhook := by
  rw [(fw.run_peek_undisturbed hi w).2] at hpeek
  obtain ⟨row, hrow, hparse⟩ := Option.bind_eq_some_iff.mp
    (Except.ok.inj (CallProgram.Outcome.done.inj hpeek))
  obtain ⟨hmem, hdue⟩ := List.mem_filter.mp ((mem_orderBy _ _).mp (List.mem_of_head? hrow))
  exact ⟨row, hmem, (Bool.and_eq_true_iff.mp hdue).1, hparse⟩

/-- A pass that selects a webhook is the request and what follows the answer. -/
theorem Forwarder.run_forwardNext_undisturbed (fw : Forwarder) (hi : i.fault = none)
    (hpeek : (fw.peek.run (perform fw.db.ext) (fun _ => i) w).outcome =
      .done (.ok (some webhook)))
    (hid : webhook.id = some id) (hrequest : fw.buildRequest webhook = some request) :
    ∃ w' : World, w'.table = w.table ∧
      (fw.forwardNext.run (perform fw.db.ext) (fun _ => i) w).outcome =
        ((fw.onAnswer id webhook (sendRequest fw.db.ext i.answers request).1).run
          (perform fw.db.ext) (fun _ => i) w').outcome ∧
      (fw.forwardNext.run (perform fw.db.ext) (fun _ => i) w).state =
        ((fw.onAnswer id webhook (sendRequest fw.db.ext i.answers request).1).run
          (perform fw.db.ext) (fun _ => i) w').state := by
  rw [run_forwardNext hpeek hid hrequest, (fw.run_peek_undisturbed hi w).1]
  exact ⟨(perform fw.db.ext (.send (some webhook) request) i w).2, rfl, rfl, rfl⟩

/-- Loading a row of the channel that is there gives its webhook. -/
theorem AppState.run_loadWebhookToRetry_undisturbed (hi : i.fault = none) {row : Row}
    (hrow : row ∈ w.table.rows) (hrowId : row.id = id)
    (hparse : parseWebhookRow state.db.ext row = some webhook)
    (hchannel : webhook.channel = channel) :
    ((state.loadWebhookToRetry channel id).run (perform state.db.ext) (fun _ => i) w).outcome =
        .done (.ok webhook) ∧
      ((state.loadWebhookToRetry channel id).run (perform state.db.ext) (fun _ => i) w).state =
        w := by
  -- ids are distinct, so the first row with this id is the row
  have hfind : w.table.rows.find? (fun r => r.id = id) = some row := by
    rw [← List.head?_filter, Table.filter_id_eq hrow hrowId]
    rfl
  have hloaded : ((Query.getById id).execute i.choice w.table).1.bind
      (parseWebhookRow state.db.ext) = some webhook := by
    simp only [Query.execute, hfind, Option.bind_some, hparse]
  simp only [loadWebhookToRetry, Sqlite.getWebhook, Sqlite.getById, CallProgram.bind_eq,
    CallProgram.pure_eq]
  rw [CallProgram.run_bind, run_statement_undisturbed hi, hloaded]
  dsimp only
  rw [checkLoaded_eq_ok.mpr ⟨rfl, hchannel⟩]
  exact ⟨rfl, rfl⟩

/-- The manual retry of a row that is there is the request and what follows the answer. -/
theorem AppState.run_retryWebhookRoute_undisturbed (hi : i.fault = none)
    (hauth : state.authorize headers channel = .ok ())
    (htarget : state.findForwardTarget channel = .ok (ch, fwd)) {row : Row}
    (hrow : row ∈ w.table.rows) (hrowId : row.id = id)
    (hparse : parseWebhookRow state.db.ext row = some webhook)
    (hchannel : webhook.channel = channel)
    (hrequest : (RetryContext.mk state channel id webhook ch fwd).buildRequest = .ok request) :
    ∃ w' : World, w'.table = w.table ∧
      ((state.retryWebhookRoute channel id headers).run (perform state.db.ext) (fun _ => i)
          w).outcome =
        (((RetryContext.mk state channel id webhook ch fwd).onAnswer
          (sendRequest state.db.ext i.answers request).1).run (perform state.db.ext) (fun _ => i)
            w').outcome ∧
      ((state.retryWebhookRoute channel id headers).run (perform state.db.ext) (fun _ => i)
          w).state =
        (((RetryContext.mk state channel id webhook ch fwd).onAnswer
          (sendRequest state.db.ext i.answers request).1).run (perform state.db.ext) (fun _ => i)
            w').state := by
  obtain ⟨houtcome, hstate⟩ :=
    state.run_loadWebhookToRetry_undisturbed hi hrow hrowId hparse hchannel
  simp only [retryWebhookRoute, hauth, retryFor, htarget, orRespond, CallProgram.bind_eq]
  rw [CallProgram.run_bind, houtcome]
  dsimp only
  rw [hstate]
  simp only [retryLoaded, hrequest, orRespond, RetryContext.deliver, CallProgram.bind_eq,
    CallProgram.bind_call, CallProgram.bind_pure_left, CallProgram.run_call]
  exact ⟨(perform state.db.ext (.send (some webhook) request) i w).2, rfl, rfl, rfl⟩

/-- The two tables agree on a webhook: neither has it, or both have it with the same number of
attempts, the same due time and the same error. -/
def TreatedAlike (id : ℤ) (t₁ t₂ : Table) : Prop :=
  ((∀ r ∈ t₁.rows, r.id ≠ id) ∧ ∀ r ∈ t₂.rows, r.id ≠ id) ∨
    ∃ r₁ ∈ t₁.rows, ∃ r₂ ∈ t₂.rows, r₁.id = id ∧ r₂.id = id ∧
      r₁.forwardAttempts = r₂.forwardAttempts ∧ r₁.nextAttemptAt = r₂.nextAttemptAt ∧
      r₁.lastAttemptError = r₂.lastAttemptError

theorem treatedAlike_deletedTable (t : Table) (id : ℤ) :
    TreatedAlike id (deletedTable t id) (deletedTable t id) := by
  have hgone : ∀ r ∈ (deletedTable t id).rows, r.id ≠ id := fun r hr => by
    simpa using (Table.mem_rows_keep.mp hr).2
  exact Or.inl ⟨hgone, hgone⟩

/-- Two failures of a stored webhook that differ in their messages only. -/
theorem treatedAlike_recordedTable {t : Table} {row : Row} (hrow : row ∈ t.rows)
    (hrowId : row.id = id) {m₁ m₂ : String} {due : ℤ} :
    TreatedAlike id (recordedTable i t id m₁ due) (recordedTable i t id m₂ due) ↔ m₁ = m₂ := by
  have hmem : ∀ m, Row.failed i.choice.coerce (Prog.asI64 i.unixSeconds) m due row ∈
      (recordedTable i t id m due).rows := fun m => by
    have h := Table.mem_rows_update_of_mem hrow id
      (Row.failed i.choice.coerce (Prog.asI64 i.unixSeconds) m due) fun _ => rfl
    rwa [if_pos hrowId] at h
  have herror : ∀ m, ∀ r ∈ (recordedTable i t id m due).rows, r.id = id →
      r.lastAttemptError = .text m := by
    intro m r hr hid
    rw [Table.eq_of_id_eq _ hr (hmem m) (hid.trans hrowId.symm)]
    rfl
  constructor
  · rintro (⟨hgone, -⟩ | ⟨r₁, hr₁, r₂, hr₂, hid₁, hid₂, -, -, hmessage⟩)
    · exact absurd hrowId (hgone (row.failed i.choice.coerce _ m₁ due) (hmem m₁))
    · rw [herror m₁ r₁ hr₁ hid₁, herror m₂ r₂ hr₂ hid₂] at hmessage
      exact SqlValue.text.inj hmessage
  · rintro rfl
    exact Or.inr ⟨_, hmem m₁, _, hmem m₁, hrowId, hrowId, rfl, rfl, rfl⟩

section Outcome

variable (hi : i.fault = none) (hauth : state.authorize headers channel = .ok ())
  (htarget : state.findForwardTarget channel = .ok (ch, fwd))
  (hpeek : ((state.forwarderOf ch fwd).peek.run (perform state.db.ext) (fun _ => i) w).outcome =
    .done (.ok (some webhook)))
  (hid : webhook.id = some id)
  (hrequest : (state.forwarderOf ch fwd).buildRequest webhook = some request)
  (hpass : ∃ p, ((state.forwarderOf ch fwd).forwardNext.run (perform state.db.ext) (fun _ => i)
    w).outcome = .done p)
  (hretry : ∃ r, ((state.retryWebhookRoute channel id headers).run (perform state.db.ext)
    (fun _ => i) w).outcome = .done r)

include hi hauth htarget hpeek hid hrequest hpass hretry

/-- What the two programs leave differs in the recorded message at most. -/
theorem AppState.treatedAlike_iff_preview :
    TreatedAlike id
        ((state.forwarderOf ch fwd).forwardNext.run (perform state.db.ext) (fun _ => i)
          w).state.table
        ((state.retryWebhookRoute channel id headers).run (perform state.db.ext) (fun _ => i)
          w).state.table ↔
      ∀ resp, (sendRequest state.db.ext i.answers request).1 = .ok resp →
        resp.status ≠ fwd.expectedStatus → readBodyPreview resp = some resp.bodyText := by
  obtain ⟨row, hrow, hinChannel, hparse⟩ := (state.forwarderOf ch fwd).exists_row_of_peek hi hpeek
  have hname : ch.name = channel := (channel_of_findForwardTarget htarget).2.1
  obtain ⟨hrowId, hrowChannel, -⟩ := parseWebhookRow_eq_some hparse
  rw [hid, Option.some.injEq, eq_comm] at hrowId
  have hchannel : webhook.channel = channel := by
    have htext : row.channel = .text ch.name := of_decide_eq_true hinChannel
    rw [htext] at hrowChannel
    exact (SqlValue.text.inj hrowChannel).symm.trans hname
  let ctx := RetryContext.mk state channel id webhook ch fwd
  have hbuild : ctx.buildRequest = .ok request := by
    refine Except.eq_ok_of_toOption_eq_some ?_
    rw [ctx.toOption_buildRequest, ← AppState.buildRequest_forwarderOf]
    exact hrequest
  -- both programs come to what follows the answer, on the same table
  obtain ⟨w₁, htable₁, houtcome₁, hstate₁⟩ :=
    (state.forwarderOf ch fwd).run_forwardNext_undisturbed hi hpeek hid hrequest
  obtain ⟨w₂, htable₂, houtcome₂, hstate₂⟩ := run_retryWebhookRoute_undisturbed hi hauth htarget
    hrow hrowId hparse hchannel hbuild
  have hforwarder := (state.forwarderOf ch fwd).run_onAnswer_undisturbed hi id webhook _
    (houtcome₁ ▸ hpass)
  have hmanual := ctx.run_onAnswer_undisturbed hi _ (houtcome₂ ▸ hretry)
  rw [← hstate₁, htable₁, forwarderOf_db] at hforwarder
  rw [show ctx.state = state from rfl, ← hstate₂, htable₂] at hmanual
  generalize (sendRequest state.db.ext i.answers request).1 = answer at hforwarder hmanual ⊢
  rcases hforwarder with ⟨haccepted, hleft₁⟩ | ⟨hrefused, due₁, message, hdue₁, hmessage, hleft₁⟩
  · rcases hmanual with ⟨-, hleft₂⟩ | ⟨hrefused, -⟩
    · obtain ⟨resp, hresp, hstatus⟩ := haccepted
      refine iff_of_true ?_ fun resp' hresp' hunexpected => ?_
      · rw [hleft₁, hleft₂]
        exact treatedAlike_deletedTable w.table id
      · obtain rfl : resp = resp' := Except.ok.inj (hresp.symm.trans hresp')
        exact absurd hstatus hunexpected
    · exact absurd haccepted hrefused
  · rcases hmanual with ⟨haccepted, -⟩ | ⟨-, due₂, hdue₂, hleft₂⟩
    · exact absurd haccepted hrefused
    · obtain rfl : due₁ = due₂ := Option.some.inj (hdue₁.symm.trans hdue₂)
      rw [hleft₁, hleft₂, treatedAlike_recordedTable hrow hrowId, ← Option.some.injEq, ← hmessage,
        PeerAnswer.forwarderMessage_eq_retryMessage_iff]
      refine forall₂_congr fun resp hresp => ?_
      constructor
      · intro hwhole _
        exact hwhole
      · intro hwhole
        exact hwhole fun hstatus => hrefused ⟨resp, hresp, hstatus⟩

/-- **When the manual retry and the forwarder treat an outcome alike.**  A pass that selects a
webhook and a manual retry of the same webhook, on the same clock, jitter and answer, leave
the same row behind exactly when the answer is not the text of an unexpected status that the
forwarder shortens. -/
theorem AppState.outcome_treatedAlike_iff :
    TreatedAlike id
        ((state.forwarderOf ch fwd).forwardNext.run (perform state.db.ext) (fun _ => i)
          w).state.table
        ((state.retryWebhookRoute channel id headers).run (perform state.db.ext) (fun _ => i)
          w).state.table ↔
      ∀ resp, (sendRequest state.db.ext i.answers request).1 = .ok resp →
        resp.status ≠ fwd.expectedStatus → RecordedWhole resp := by
  rw [treatedAlike_iff_preview hi hauth htarget hpeek hid hrequest hpass hretry]
  simp only [readBodyPreview_eq_body_iff]

end Outcome

end Programs

/-! ## A long answer -/

namespace AppState

/-- The target of the small service answers 500 with 513 letters. -/
def longAnswer : WireResponse := ⟨500, [], .ok (String.ofList (List.replicate 513 'a'))⟩

def longInput : Input := { Input.calm 1001 200 with answers := fun _ => .ok longAnswer }

/-- The forwarded channel of the small service. -/
def smallChannel : WebhookChannelConfig :=
  ⟨"orders", "orders-token", none, none, .plain, none, none, some Forwarder.small.cfg, none, none,
    true, none⟩

theorem authorize_small : small.authorize HeaderMap.small "orders" = .ok () :=
  Except.eq_ok_of_toBool (by decide +kernel)

theorem findForwardTarget_small :
    small.findForwardTarget "orders" = .ok (smallChannel, Forwarder.small.cfg) := rfl

/-- An answer with an empty text is treated alike. -/
theorem outcome_treatedAlike_small :
    TreatedAlike 1
      ((small.forwarderOf smallChannel Forwarder.small.cfg).forwardNext.run
        (perform small.db.ext) (fun _ => Input.calm 1001 500) Forwarder.smallWorld).state.table
      ((small.retryWebhookRoute "orders" 1 HeaderMap.small).run (perform small.db.ext)
        (fun _ => Input.calm 1001 500) Forwarder.smallWorld).state.table := by
  have hpeek : ((small.forwarderOf smallChannel Forwarder.small.cfg).peek.run
      (perform small.db.ext) (fun _ => Input.calm 1001 500) Forwarder.smallWorld).outcome =
      .done (.ok (some Forwarder.smallWebhook)) := by decide +kernel
  refine (outcome_treatedAlike_iff rfl authorize_small findForwardTarget_small hpeek rfl
    Forwarder.small_buildRequest (CallProgram.Outcome.exists_done_of_isDone (by decide +kernel))
    (CallProgram.Outcome.exists_done_of_isDone (by decide +kernel))).mpr ?_
  rintro resp hresp -
  cases hresp
  exact Or.inl (by decide +kernel)

/-- The long answer is shortened. -/
theorem readBodyPreview_longAnswer : readBodyPreview longAnswer ≠ some longAnswer.bodyText := by
  have hbody : longAnswer.bodyText.toList = List.replicate 513 'a' := String.toList_ofList
  rw [ne_eq, readBodyPreview_eq_body_iff]
  unfold RecordedWhole
  rw [hbody]
  rintro (hshort | ⟨front, hfront, hmark⟩)
  · revert hshort
    decide +kernel
  · have hlength := congrArg Text.byteLength hmark
    rw [Text.byteLength_append, hfront] at hlength
    revert hlength
    decide +kernel

/-- The forwarder survives the long answer. -/
theorem bodyFits_longAnswer : Forwarder.BodyFits longAnswer := by
  have hbody : longAnswer.bodyText.toList = List.replicate 513 'a' := String.toList_ofList
  unfold Forwarder.BodyFits
  rw [hbody]
  decide +kernel

/-- **A long answer is recorded in two ways**: both programs return on it, and the rows they
leave differ. -/
theorem long_answer_recorded_differently :
    (∃ p, ((small.forwarderOf smallChannel Forwarder.small.cfg).forwardNext.run
        (perform small.db.ext) (fun _ => longInput) Forwarder.smallWorld).outcome = .done p) ∧
      (∃ r, ((small.retryWebhookRoute "orders" 1 HeaderMap.small).run (perform small.db.ext)
        (fun _ => longInput) Forwarder.smallWorld).outcome = .done r) ∧
      ¬TreatedAlike 1
        ((small.forwarderOf smallChannel Forwarder.small.cfg).forwardNext.run
          (perform small.db.ext) (fun _ => longInput) Forwarder.smallWorld).state.table
        ((small.retryWebhookRoute "orders" 1 HeaderMap.small).run (perform small.db.ext)
          (fun _ => longInput) Forwarder.smallWorld).state.table := by
  have hpeek : ((small.forwarderOf smallChannel Forwarder.small.cfg).peek.run
      (perform small.db.ext) (fun _ => longInput) Forwarder.smallWorld).outcome =
      .done (.ok (some Forwarder.smallWebhook)) := by decide +kernel
  have hpass : ∃ p, ((small.forwarderOf smallChannel Forwarder.small.cfg).forwardNext.run
      (perform small.db.ext) (fun _ => longInput) Forwarder.smallWorld).outcome = .done p := by
    rcases Forwarder.forwardNext_cases Forwarder.validateConfig_small rfl
        Forwarder.small_mem_forwarders hpeek rfl Forwarder.small_buildRequest with
      ⟨hsurvives, -⟩ | ⟨-, hdone, -⟩
    · have hsound := Forwarder.sound_of_mem_forwarders Forwarder.validateConfig_small
        Forwarder.small_mem_forwarders
      exact absurd (Or.inr ⟨bodyFits_longAnswer, Or.inr (Or.inr (hsound.jitterFits
        (by decide +kernel)))⟩) hsurvives
    · exact hdone
  have hretry : ∃ r, ((small.retryWebhookRoute "orders" 1 HeaderMap.small).run
      (perform small.db.ext) (fun _ => longInput) Forwarder.smallWorld).outcome = .done r :=
    CallProgram.Outcome.exists_done_of_isDone (by decide +kernel)
  refine ⟨hpass, hretry, fun halike => ?_⟩
  rw [treatedAlike_iff_preview rfl authorize_small findForwardTarget_small hpeek rfl
    Forwarder.small_buildRequest hpass hretry] at halike
  exact readBodyPreview_longAnswer (halike longAnswer rfl (by decide))

end AppState
