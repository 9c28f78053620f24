/-
# No answer of a target stops a forwarder — almost

Once a pass has selected a webhook and built its request, what the target answers decides
whether the pass comes to its end: it panics when the recorded part of a long body ends
inside a character, or when the jittered delay is no duration.  `forwardNext_survives_iff`
is the exact condition.  A pass that comes to its end, and whose storage calls succeed, has
deleted the webhook or recorded the failure.
-/
import KaimanWebhooks.FailureRecord
import KaimanWebhooks.Tasks

namespace Forwarder

variable (fw : Forwarder)

/-! ## What the answer decides -/

/-- The answer counts as delivery. -/
def Accepts (answer : PeerAnswer) : Prop :=
  ∃ resp, answer = .ok resp ∧ resp.status = fw.cfg.expectedStatus

/-- The body is recorded whole, or its first 512 bytes are whole characters. -/
def BodyFits (resp : WireResponse) : Prop :=
  Text.byteLength resp.bodyText.toList ≤ maxBody ∨
    Text.IsCharBoundary resp.bodyText.toList maxBody

/-- The pass survives an answer to a webhook with so many attempts: the answer counts as
delivery, or its body fits and either the delay needs no jitter or the jitter fits. -/
def Survives (attempts : ℤ) (answer : PeerAnswer) (nanos : ℕ) : Prop :=
  let jitterFits := JitterFits fw.db.ext.float fw.backoff (Prog.addI64 attempts 1)
    (clockJitterUnit fw.db.ext.float nanos)
  match answer with
  | .error _ => jitterFits
  | .ok resp => resp.status = fw.cfg.expectedStatus ∨
      BodyFits resp ∧
        (resp.retryAfter.isSome ∨ classifyStatus resp.status = .rejected ∨ jitterFits)

/-- The webhook with this id, seen before with so many attempts, was deleted because the
answer counts as delivery, or is stored with one attempt more, an error and a due time. -/
def DeletedOrRecorded (answer : PeerAnswer) (id attempts : ℤ) (t : Table) : Prop :=
  (fw.Accepts answer → ∀ r ∈ t.rows, r.id ≠ id) ∧
  (¬fw.Accepts answer → ∃ r ∈ t.rows, r.id = id ∧ r.forwardAttempts = .int (attempts + 1) ∧
    (∃ message, r.lastAttemptError = .text message) ∧ ∃ next, r.nextAttemptAt = .int next)

/-- One pass on its inputs. -/
abbrev pass (ω : ℕ → Input) (w : World) : Executed Progress :=
  fw.forwardNext.run (perform fw.db.ext) ω w

/-- The number of calls a pass makes before it sends its request. -/
def peekCalls (ω : ℕ → Input) (w : World) : ℕ := (fw.peek.run (perform fw.db.ext) ω w).calls.length

/-- What the pass is answered when it sends the request, and the sub-second clock after it. -/
def answerTo (request : HttpRequest) (ω : ℕ → Input) (w : World) : PeerAnswer :=
  (sendRequest fw.db.ext (ω (fw.peekCalls ω w)).answers request).1

def nanosAfter (ω : ℕ → Input) (w : World) : ℕ := (ω (fw.peekCalls ω w + 1)).nanos

/-- The preview exists exactly when the body fits. -/
theorem readBodyPreview_eq_none_iff {resp : WireResponse} :
    readBodyPreview resp = none ↔ ¬BodyFits resp := by
  unfold readBodyPreview BodyFits
  dsimp only
  rw [← Text.isSome_sliceTo_iff]
  split
  · rename_i hlong
    rw [Option.map_eq_none_iff, ← Option.not_isSome_iff_eq_none, not_or]
    exact ⟨fun h => ⟨not_le.mpr hlong, h⟩, fun h => h.2⟩
  · rename_i hshort
    simp [not_lt.mp hshort]

/-! ## The end of a pass -/

section Pass

variable {fw} {id attempts : ℤ} {ω : ℕ → Input} {w : World}

/-- The storage calls succeeded: the last attempt of a statement committed. -/
def StorageSucceeded {α : Type} (ex : Executed α) : Prop :=
  (outcomes ex.calls).getLast? = some none

/-- **Recording a failure** panics when there is no delay, and else comes to its end. -/
theorem run_recordFailure (hretry : fw.db.retry = LockRetryPolicy.default) (id attempts : ℤ)
    (failure : Failure) :
    (nextDelay fw.db.ext.float fw.backoff failure.kind (Prog.addI64 attempts 1) failure.retryAfter
        (clockJitterUnit fw.db.ext.float (ω 0).nanos) = none ∧
      ∃ m, (((fw.recordFailure id attempts failure).bind fun _ =>
        CallProgram.pure Progress.idle).run (perform fw.db.ext) ω w).outcome = .panicked m) ∨
    (nextDelay fw.db.ext.float fw.backoff failure.kind (Prog.addI64 attempts 1) failure.retryAfter
        (clockJitterUnit fw.db.ext.float (ω 0).nanos) ≠ none ∧
      ∃ now next, EndsWith (.recordForwardFailure now failure.message next id) w
        (((fw.recordFailure id attempts failure).bind fun _ =>
          CallProgram.pure Progress.idle).run (perform fw.db.ext) ω w)) := by
  rw [recordFailure_eq, recordFailureThen_bind]
  rcases run_recordFailureThen hretry (fun _ => (fw.passive_afterRecorded fw.db.ext id attempts
      failure.message).bind fun _ => passive_pure Progress.idle) ω w with
    hpanic | ⟨delay, hdelay, hstored⟩
  · exact Or.inl hpanic
  · exact Or.inr ⟨by simp [hdelay], _, _, hstored.endsWith⟩

/-- Removing a delivered webhook comes to its end. -/
theorem run_onDelivered (hretry : fw.db.retry = LockRetryPolicy.default) :
    EndsWith (.deleteById id) w ((fw.onDelivered id).run (perform fw.db.ext) ω w) := by
  refine run_statement_passive hretry (fun removed => ?_) ω w
  refine passive_call (by simp) fun _ => passive_call (by simp) fun _ => ?_
  cases removed with
  | ok u => exact passive_pure _
  | error e => exact passive_pure _

/-- The statement a pass that survives ends with. -/
inductive SettledBy (fw : Forwarder) (answer : PeerAnswer) (id : ℤ) : Query → Prop where
  | deleted : fw.Accepts answer → SettledBy fw answer id (.deleteById id)
  | recorded (now : ℤ) (message : String) (next : ℤ) : ¬fw.Accepts answer →
      SettledBy fw answer id (.recordForwardFailure now message next id)

/-- **Recording a refused attempt** settles the webhook, or panics when its delay is no duration. -/
theorem run_recordRefused (hretry : fw.db.retry = LockRetryPolicy.default) {answer : PeerAnswer}
    (hrefused : ¬fw.Accepts answer) (id attempts : ℤ) (failure : Failure)
    (hsurvives : fw.Survives attempts answer (ω 0).nanos ↔
      nextDelay fw.db.ext.float fw.backoff failure.kind (Prog.addI64 attempts 1)
        failure.retryAfter (clockJitterUnit fw.db.ext.float (ω 0).nanos) ≠ none) :
    let p := (fw.recordFailure id attempts failure).bind fun _ => CallProgram.pure Progress.idle
    (¬fw.Survives attempts answer (ω 0).nanos ∧
      ∃ m, (p.run (perform fw.db.ext) ω w).outcome = .panicked m) ∨
    (fw.Survives attempts answer (ω 0).nanos ∧
      ∃ q, SettledBy fw answer id q ∧ EndsWith q w (p.run (perform fw.db.ext) ω w)) := by
  rw [hsurvives]
  rcases run_recordFailure hretry id attempts failure with
    ⟨hnone, hpanic⟩ | ⟨hsome, now, next, hends⟩
  · exact Or.inl ⟨not_not.mpr hnone, hpanic⟩
  · exact Or.inr ⟨hsome, _, .recorded now failure.message next hrefused, hends⟩

/-- **What follows the answer**: a pass that does not survive panics, any other ends with
the statement that settles it. -/
theorem run_onAnswer (hretry : fw.db.retry = LockRetryPolicy.default) (hsound : fw.backoff.Sound)
    (id : ℤ) (webhook : Webhook) (answer : PeerAnswer) :
    (¬fw.Survives webhook.forwardAttempts answer (ω 0).nanos ∧
      ∃ m, ((fw.onAnswer id webhook answer).run (perform fw.db.ext) ω w).outcome = .panicked m) ∨
    (fw.Survives webhook.forwardAttempts answer (ω 0).nanos ∧
      ∃ q, SettledBy fw answer id q ∧
        EndsWith q w ((fw.onAnswer id webhook answer).run (perform fw.db.ext) ω w)) := by
  cases answer with
  | error cause =>
      refine run_recordRefused hretry ?_ id webhook.forwardAttempts
        ⟨.transient, none, "network error: " ++ cause⟩ ?_
      · rintro ⟨resp, hresp, -⟩
        cases hresp
      · rw [ne_eq, nextDelay_eq_none_iff hsound]
        simp [Survives]
  | ok resp =>
      unfold onAnswer
      dsimp only
      by_cases hstatus : resp.status = fw.cfg.expectedStatus
      · rw [if_pos hstatus]
        exact Or.inr ⟨Or.inl hstatus, _, .deleted ⟨resp, rfl, hstatus⟩, run_onDelivered hretry⟩
      · have hrefused : ¬fw.Accepts (.ok resp) := by
          rintro ⟨resp', hresp', hstatus'⟩
          cases hresp'
          exact hstatus hstatus'
        rw [if_neg hstatus]
        cases hpreview : readBodyPreview resp with
        | none =>
            refine Or.inl ⟨?_, _, rfl⟩
            rintro (haccepted | ⟨hfits, -⟩)
            · exact hstatus haccepted
            · exact readBodyPreview_eq_none_iff.mp hpreview hfits
        | some bodyPreview =>
            have hfits : BodyFits resp := by
              by_contra hcut
              rw [readBodyPreview_eq_none_iff.mpr hcut] at hpreview
              cases hpreview
            refine run_recordRefused hretry hrefused id webhook.forwardAttempts _ ?_
            rw [ne_eq, nextDelay_eq_none_iff hsound]
            unfold Survives
            dsimp only
            rw [or_iff_right hstatus, and_iff_right hfits]
            cases resp.retryAfter <;> cases classifyStatus resp.status <;> simp

/-- **What peeking yields**: the table is as before, and the webhook was read from one of
its rows. -/
theorem run_peek (hretry : fw.db.retry = LockRetryPolicy.default) {webhook : Webhook}
    (hpeek : (fw.peek.run (perform fw.db.ext) ω w).outcome = .done (.ok (some webhook))) :
    (fw.peek.run (perform fw.db.ext) ω w).state.table = w.table ∧
      ∃ row ∈ w.table.rows, parseWebhookRow fw.db.ext row = some webhook := by
  have hagrees := statement_agrees hretry
    (q := .peekOldestDueByChannel fw.channel (Prog.asI64 (ω 0).unixSeconds))
    (fun row => row.bind (parseWebhookRow fw.db.ext)) (fun n => ω (n + 1)) w
  unfold OperationAgrees at hagrees
  have houtcome : ((fw.db.peekOldestDueByChannel fw.channel (Prog.asI64 (ω 0).unixSeconds)).run
      (perform fw.db.ext) (fun n => ω (n + 1)) w).outcome = .done (.ok (some webhook)) := hpeek
  unfold Sqlite.peekOldestDueByChannel at houtcome
  rw [houtcome] at hagrees
  obtain ⟨choice, hread, -, htable⟩ := hagrees
  refine ⟨htable, ?_⟩
  obtain ⟨row, hrow, hparse⟩ := Option.bind_eq_some_iff.mp hread.symm
  refine ⟨row, ?_, hparse⟩
  have hdue := (mem_orderBy _ _).mp (List.mem_of_head? hrow)
  exact List.mem_of_mem_filter hdue

/-- The schedules of the forwarders of an accepted configuration are sound. -/
theorem sound_of_mem_forwarders {state : AppState}
    (hconfig : state.config.validateConfig state.db.ext = .ok ()) (hfw : fw ∈ state.forwarders) :
    fw.backoff.Sound := by
  obtain ⟨ch, hch, fwd, hfwd, rfl⟩ := AppState.exists_channel_of_mem_forwarders hfw
  exact sound_of_validateConfig hconfig hch hfwd

/-- What the statement that settles a webhook leaves of it. -/
theorem SettledBy.deletedOrRecorded {answer : PeerAnswer} {q : Query} (h : SettledBy fw answer id q)
    {t : Table} {row : Row} (hrow : row ∈ t.rows) (hid : row.id = id)
    (hattempts : row.forwardAttempts = .int attempts) (choice : ScanChoice) :
    fw.DeletedOrRecorded answer id attempts (q.execute choice t).2 := by
  cases h with
  | deleted haccepts =>
      refine ⟨fun _ r hr => ?_, fun hrefused => absurd haccepts hrefused⟩
      simpa using (Table.mem_rows_keep.mp hr).2
  | recorded now message next hrefused =>
      refine ⟨fun haccepts => absurd haccepts hrefused, fun _ => ?_⟩
      have hmem := Table.mem_rows_update_of_mem hrow id
        (Row.failed choice.coerce now message next) fun _ => rfl
      rw [if_pos hid] at hmem
      refine ⟨_, hmem, hid, ?_, ⟨message, rfl⟩, next, rfl⟩
      simp only [Row.failed, Row.nextForwardAttempts, hattempts]

/-- A pass that selects a webhook and builds its request is the peek, the request and what
follows the answer. -/
theorem run_forwardNext {webhook : Webhook} {request : HttpRequest}
    (hpeek : (fw.peek.run (perform fw.db.ext) ω w).outcome = .done (.ok (some webhook)))
    (hid : webhook.id = some id) (hrequest : fw.buildRequest webhook = some request) :
    let peeked := fw.peek.run (perform fw.db.ext) ω w
    let sent := perform fw.db.ext (.send (some webhook) request) (ω peeked.calls.length)
      peeked.state
    let rest := (fw.onAnswer id webhook sent.1).run (perform fw.db.ext)
      (fun k => ω (k + 1 + peeked.calls.length)) sent.2
    fw.forwardNext.run (perform fw.db.ext) ω w =
      ⟨rest.outcome, rest.state,
        peeked.calls ++ ⟨.send (some webhook) request, sent.1⟩ :: rest.calls⟩ := by
  have hdeliver : fw.onPeeked (.ok (some webhook)) = fw.deliver id webhook request := by
    simp only [onPeeked, hid, hrequest]
  intro peeked sent rest
  unfold forwardNext
  rw [CallProgram.bind_eq, CallProgram.run_bind, hpeek]
  dsimp only
  rw [hdeliver]
  unfold deliver
  rw [CallProgram.bind_eq, CallProgram.bind_call, CallProgram.run_call]
  simp only [CallProgram.bind_pure_left, Nat.zero_add]
  rfl

end Pass

section Survival

variable {state : AppState} (hconfig : state.config.validateConfig state.db.ext = .ok ())
  (hretry : state.db.retry = LockRetryPolicy.default) {fw : Forwarder}
  (hfw : fw ∈ state.forwarders) {ω : ℕ → Input} {w : World} {webhook : Webhook} {id : ℤ}
  {request : HttpRequest}
  (hpeek : (fw.peek.run (perform fw.db.ext) ω w).outcome = .done (.ok (some webhook)))
  (hid : webhook.id = some id) (hrequest : fw.buildRequest webhook = some request)

include hconfig hretry hfw hpeek hid hrequest

/-- A pass panics on an answer it does not survive; on any other it comes to its end, and
when its storage calls succeed the webhook is settled. -/
theorem forwardNext_cases :
    (¬fw.Survives webhook.forwardAttempts (fw.answerTo request ω w) (fw.nanosAfter ω w) ∧
      ∃ m, (fw.pass ω w).outcome = .panicked m) ∨
    (fw.Survives webhook.forwardAttempts (fw.answerTo request ω w) (fw.nanosAfter ω w) ∧
      (∃ a, (fw.pass ω w).outcome = .done a) ∧
      (StorageSucceeded (fw.pass ω w) →
        fw.DeletedOrRecorded (fw.answerTo request ω w) id webhook.forwardAttempts
          (fw.pass ω w).state.table)) := by
  let ex := fw.pass ω w
  let n := fw.peekCalls ω w
  let answer := fw.answerTo request ω w
  rw [← AppState.db_of_mem_forwarders hfw] at hretry
  have hsound := sound_of_mem_forwarders hconfig hfw
  obtain ⟨htable, row, hrow, hparse⟩ := run_peek hretry hpeek
  obtain ⟨hrowId, -, -, -, -, hattempts⟩ := parseWebhookRow_eq_some hparse
  have hrowId' : row.id = id := Option.some.inj (hrowId.symm.trans hid)
  have hrun : ex = _ := run_forwardNext hpeek hid hrequest
  let peeked := fw.peek.run (perform fw.db.ext) ω w
  let sent := (perform fw.db.ext (.send (some webhook) request) (ω n) peeked.state).2
  let rest := (fw.onAnswer id webhook answer).run (perform fw.db.ext)
    (fun k => ω (k + 1 + n)) sent
  have houtcome : ex.outcome = rest.outcome := by
    rw [hrun]
    rfl
  have hstate : ex.state = rest.state := by
    rw [hrun]
    rfl
  have houtcomes : outcomes ex.calls = outcomes peeked.calls ++ outcomes rest.calls := by
    rw [hrun, outcomes_append]
    rfl
  have hsent : sent.table = w.table := (perform_table_of_not_sql (by simp)).trans htable
  have hnanos : ((ω (0 + 1 + n)).nanos : ℕ) = fw.nanosAfter ω w := by
    unfold nanosAfter
    rw [Nat.zero_add, Nat.add_comm]
  rw [← hnanos, show (fw.pass ω w).outcome = rest.outcome from houtcome]
  have hcases := run_onAnswer hretry hsound id webhook answer (ω := fun k => ω (k + 1 + n))
    (w := sent)
  rcases hcases with hpanics | ⟨hsurvives, q, hq, hdone, hends⟩
  · exact Or.inl hpanics
  refine Or.inr ⟨hsurvives, hdone, fun hsucceeded => ?_⟩
  rcases hends with ⟨choice, -, htable'⟩ | ⟨e, ⟨failed, hfailed⟩, -⟩
  · rw [show (fw.pass ω w).state = rest.state from hstate]
    have hsettled := hq.deletedOrRecorded (hsent ▸ hrow) hrowId' hattempts choice
    rwa [← htable'] at hsettled
  · -- the last attempt failed, so the storage calls did not all succeed
    unfold StorageSucceeded at hsucceeded
    rw [show outcomes (fw.pass ω w).calls = _ from houtcomes, hfailed] at hsucceeded
    simp at hsucceeded

/-- **What a pass needs of the answer.**  For a webhook that was selected and whose request
was built, the pass comes to its end and, when its storage calls succeed, leaves the
webhook deleted or its failure recorded — exactly when the answer is one the pass
survives. -/
theorem forwardNext_survives_iff :
    ((∀ m, (fw.pass ω w).outcome ≠ .panicked m) ∧
        (StorageSucceeded (fw.pass ω w) →
          fw.DeletedOrRecorded (fw.answerTo request ω w) id webhook.forwardAttempts
            (fw.pass ω w).state.table)) ↔
      fw.Survives webhook.forwardAttempts (fw.answerTo request ω w) (fw.nanosAfter ω w) := by
  rcases forwardNext_cases hconfig hretry hfw hpeek hid hrequest with
    ⟨hsurvives, m, hpanic⟩ | ⟨hsurvives, ⟨a, hdone⟩, hsettled⟩
  · exact iff_of_false (fun h => h.1 m hpanic) hsurvives
  · refine iff_of_true ⟨fun m hpanic => ?_, hsettled⟩ hsurvives
    cases hpanic.symm.trans hdone

end Survival

/-- A forwarder of an accepted configuration. -/
def small : Forwarder where
  channel := "orders"
  cfg := ⟨"http://target/hook", 60, 200, 15, none, none, none, none⟩
  backoff := WebhookForwardConfig.resolveBackoff
    ⟨"http://target/hook", 60, 200, 15, none, none, none, none⟩ AppConfig.small.forwardBackoff
  webhookSecret := none
  db := AppState.small.db
  ignoredHeaders := ["content-type"]

/-- A stored webhook, and the world with nothing but it. -/
def smallWebhook : Webhook :=
  { Webhook.new "orders" StringMap.empty [123, 125] 1000 with id := some 1 }

def smallWorld : World where
  table := Table.empty.insert ⟨.text "orders", .text "\x7b\x7d", .blob [123, 125], .int 1000⟩
  statuses := AppState.small.initialStatuses
  wire := []

/-- The target answers 500 with 511 letters and one more of two bytes. -/
def cutAnswer : WireResponse := ⟨500, [], .ok (String.ofList (List.replicate 511 'a' ++ ['é']))⟩

def cutInputs : ℕ → Input := fun _ => { Input.calm 1001 200 with answers := fun _ => .ok cutAnswer }

theorem small_mem_forwarders : small ∈ AppState.small.forwarders :=
  List.mem_of_getElem? (i := 0) rfl

theorem small_peek : (small.peek.run (perform small.db.ext) cutInputs smallWorld).outcome =
    .done (.ok (some smallWebhook)) := by
  decide +kernel

theorem small_buildRequest : small.buildRequest smallWebhook =
    some ⟨.post, "http://target/hook", 15, [("content-type", "application/json")], [123, 125]⟩ := by
  decide +kernel

theorem not_bodyFits_cutAnswer : ¬BodyFits cutAnswer := by
  have hbody : cutAnswer.bodyText.toList = List.replicate 511 'a' ++ ['é'] := String.toList_ofList
  unfold BodyFits
  rw [hbody]
  decide +kernel

theorem not_survives_cutAnswer {nanos : ℕ} : ¬small.Survives 0 (.ok cutAnswer) nanos := by
  rintro (hstatus | ⟨hfits, -⟩)
  · cases hstatus
  · exact not_bodyFits_cutAnswer hfits

/-- The configuration of the small service is accepted. -/
theorem validateConfig_small :
    AppState.small.config.validateConfig AppState.small.db.ext = .ok () :=
  Except.eq_ok_of_toBool (by decide +kernel)

/-- Byte 512 of the cut answer is inside a letter: the pass that gets it does not survive. -/
theorem forwardNext_survives_iff_small :
    ¬((∀ m, (small.pass cutInputs smallWorld).outcome ≠ .panicked m) ∧
      (StorageSucceeded (small.pass cutInputs smallWorld) →
        small.DeletedOrRecorded (.ok cutAnswer) 1 0
          (small.pass cutInputs smallWorld).state.table)) := by
  intro h
  have hsurvives := (forwardNext_survives_iff validateConfig_small rfl small_mem_forwarders
    small_peek rfl small_buildRequest).mp h
  exact not_survives_cutAnswer hsurvives

/-- **An answer can stop a forwarder**: the pass that gets the cut answer panics. -/
theorem forwardNext_panics :
    ¬∀ (state : AppState), state.config.validateConfig state.db.ext = .ok () →
      state.db.retry = LockRetryPolicy.default → ∀ fw ∈ state.forwarders,
      ∀ (ω : ℕ → Input) (w : World) (webhook : Webhook) (id : ℤ) (request : HttpRequest),
      (fw.peek.run (perform fw.db.ext) ω w).outcome = .done (.ok (some webhook)) →
      webhook.id = some id → fw.buildRequest webhook = some request →
      ∀ m, (fw.forwardNext.run (perform fw.db.ext) ω w).outcome ≠ .panicked m := by
  intro hclaim
  rcases forwardNext_cases validateConfig_small rfl small_mem_forwarders small_peek rfl
      small_buildRequest with ⟨-, m, hpanic⟩ | ⟨hsurvives, -⟩
  · exact hclaim AppState.small validateConfig_small rfl small small_mem_forwarders cutInputs
      smallWorld smallWebhook 1 _ small_peek rfl small_buildRequest m hpanic
  · exact not_survives_cutAnswer hsurvives

end Forwarder
