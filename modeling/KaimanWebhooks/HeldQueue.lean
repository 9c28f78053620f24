/-
# A webhook that is never delivered can hold up its channel

A failed webhook is parked so that the ones behind it get their turn.  It is parked until
its delay is over, and the pass after the next sleep picks the oldest webhook that is due:
the same one again, when the delay is no longer than the time between the passes.  A target
can ask for such a delay itself, with a `Retry-After` of zero.

`exists_parked_again` is the step: a refused pass leaves the two webhooks of the channel as
it found them, the older one due again in time for the next pass.  From it a run of any
length is held up (`holdsUp_passes`).
-/
import KaimanWebhooks.ForwardSafety

namespace Forwarder

variable (fw : Forwarder)

/-! ## A queue that is held up -/

/-- Passes one after the other: each goes on from the world the one before left. -/
def passes : List (ℕ → Input) → World → List (Executed Progress)
  | [], _ => []
  | ω :: ωs, w =>
      let ex := fw.forwardNext.run (perform fw.db.ext) ω w
      ex :: passes ωs ex.state

/-- The pass selected the webhook with this id. -/
def Selects (id : ℤ) (ex : Executed Progress) : Prop :=
  ∃ d ∈ ex.calls, ∃ row, loadedRow d = some row ∧ row.id = id

/-- The pass came to its end and got no answer of the expected status. -/
def Fails (ex : Executed Progress) : Prop :=
  ex.outcome = .done .idle ∧ ∀ about request resp,
    (⟨.send about request, .ok resp⟩ : DoneCall) ∈ ex.calls → resp.status ≠ fw.cfg.expectedStatus

/-- The table holds this webhook of the channel, never attempted and due at every time. -/
def Waits (id : ℤ) (t : Table) : Prop :=
  ∃ r ∈ t.rows, r.id = id ∧ r.inChannel fw.channel = true ∧ r.forwardAttempts = .int 0 ∧
    r.nextAttemptAt = .null

/-- What a pass read off the system clock. -/
def readings (ex : Executed Progress) : List ℕ :=
  ex.calls.filterMap fun
    | ⟨.systemNow, secs⟩ => some secs
    | _ => none

/-- The passes all select `held` and all fail, `waiting` is due throughout, and the clock,
which never runs backwards, has an interval or more between two passes. -/
structure HoldsUp (held waiting : ℤ) (w : World) (exs : List (Executed Progress)) : Prop where
  ne : held ≠ waiting
  waits : fw.Waits waiting w.table
  selects : ∀ ex ∈ exs, Selects held ex
  fails : ∀ ex ∈ exs, fw.Fails ex
  stays : ∀ ex ∈ exs, fw.Waits waiting ex.state.table
  forward : ∀ ex ∈ exs, (readings ex).Pairwise (· ≤ ·)
  inRange : ∀ ex ∈ exs, ∀ secs ∈ readings ex, secs < 2 ^ 63
  apart : exs.Pairwise fun ex ex' => ∀ secs ∈ readings ex, ∀ secs' ∈ readings ex',
    secs + fw.cfg.intervalSeconds.toNat ≤ secs'

/-- The client sends every request it is given. -/
def ClientSends : Prop := ∀ request, fw.db.ext.requestError request = none

/-- So many passes fit into the range of the clock: as far apart as the longest delay, or one
interval apart where the client sends every request.  There are no passes past the range of
the clock, so a number of passes that does not fit bounds nothing. -/
def FitsClock (bound : ℕ) : Prop :=
  bound * fw.backoff.max.asSecs ≤ 2 ^ 53 ∨
    fw.ClientSends ∧ bound * fw.cfg.intervalSeconds.toNat ≤ 2 ^ 62

/-- The queue keeps moving: in no run are there `bound` passes that hold it up. -/
def KeepsMoving : Prop :=
  ∃ bound, fw.FitsClock bound ∧ ∀ held waiting w ωs,
    fw.HoldsUp held waiting w (fw.passes ωs w) → ωs.length < bound

/-! ## A steady environment -/

/-- Nothing fails but the deliveries: the clock stands at `now` during the pass, and the
target answers every request alike. -/
def steady (now : ℕ) (resp : WireResponse) : Input :=
  { Input.calm now 0 with answers := fun _ => .ok resp }

/-- An unexpected status with a `Retry-After` of zero. -/
def refusal : WireResponse where
  status := if fw.cfg.expectedStatus = 503 then 500 else 503
  headers := [("retry-after", HeaderValue.ofText ['0'])]
  text := .ok ""

/-- The inputs of so many passes, each `gap` seconds after the one before, that are all
refused. -/
def refusals (gap : ℕ) : ℕ → ℕ → List (ℕ → Input)
  | 0, _ => []
  | n + 1, now => (fun _ => steady now fw.refusal) :: refusals gap n (now + gap)

@[simp] theorem length_refusals (gap n now : ℕ) : (fw.refusals gap n now).length = n := by
  induction n generalizing now with
  | zero => rfl
  | succ n ih => rw [refusals, List.length_cons, ih]

theorem status_refusal_ne : fw.refusal.status ≠ fw.cfg.expectedStatus := by
  unfold refusal
  dsimp only
  split <;> omega

theorem retryAfter_refusal : fw.refusal.retryAfter = some (Duration.fromSecs 0) := by
  have hfound : HeaderMap.getStr [("retry-after", HeaderValue.ofText ['0'])] "retry-after" =
      some ['0'] := by
    decide +kernel
  unfold WireResponse.retryAfter refusal
  rw [hfound]
  rfl

/-- The client hands back the refusal or an error of its own. -/
theorem sendRequest_refusal (ext : External) (now : ℕ) (request : HttpRequest) :
    (∃ e, ext.requestError request = some e ∧
      (sendRequest ext (steady now fw.refusal).answers request).1 = .error e) ∨
      (sendRequest ext (steady now fw.refusal).answers request).1 = .ok fw.refusal := by
  unfold sendRequest
  cases ext.requestError request with
  | some e => exact Or.inl ⟨e, rfl, rfl⟩
  | none =>
      have hlast : nextRequest ext.redirects request.onWire fw.refusal = none := by
        unfold nextRequest refusal
        dsimp only
        split <;> rfl
      dsimp only
      rw [follow_last rfl hlast]
      exact Or.inr rfl

section Steady

variable {fw} {now : ℕ} {resp : WireResponse} {w : World}

/-- In a steady environment a statement commits at its first attempt. -/
theorem run_statement_steady (now : ℕ) (resp : WireResponse) (w : World) {β : Type} (db : Sqlite)
    (q : Query) (read : q.Answer → β) :
    (db.statement q read).run (perform db.ext) (fun _ => steady now resp) w =
      ⟨.done (.ok (read (q.execute (steady now resp).choice w.table).1)),
        { w with table := (q.execute (steady now resp).choice w.table).2 },
        [⟨.instantNow, 0⟩, ⟨.sql q, .ok (q.execute (steady now resp).choice w.table).1⟩]⟩ :=
  run_statement_undisturbed rfl w db q read

/-- Every reading of the clock during a steady pass is the same. -/
theorem eq_of_mem_readings {secs : ℕ}
    (h : secs ∈ readings (fw.forwardNext.run (perform fw.db.ext) (fun _ => steady now resp) w)) :
    secs = now := by
  obtain ⟨⟨c, r⟩, hd, hread⟩ := List.mem_filterMap.mp h
  obtain ⟨n, s, hanswer⟩ := CallProgram.exists_perform_of_mem_calls hd
  cases c with
  | systemNow =>
      cases hread
      exact hanswer.symm
  | _ => cases hread

theorem pairwise_readings :
    (readings (fw.forwardNext.run (perform fw.db.ext) (fun _ => steady now resp) w)).Pairwise
      (· ≤ ·) :=
  List.pairwise_of_forall_mem_list fun _ ha _ hb =>
    ((eq_of_mem_readings ha).trans (eq_of_mem_readings hb).symm).le

/-- The execution returned `a` and left the table `t`. -/
def Leaves {α : Type} (a : α) (t : Table) (ex : Executed α) : Prop :=
  ex.outcome = .done a ∧ ex.state.table = t

/-- In a steady environment a statement, and a program that makes no attempt and returns
`a`, leave the table of the statement. -/
theorem leaves_statement {α β : Type} {q : Query} {read : q.Answer → β}
    {f : Except WebhookRepositoryError β → AppAction Unit} {a : α}
    (hf : ∀ result, Passive fw.db.ext ((f result).bind fun _ => .pure a)) :
    Leaves a (q.execute (steady now resp).choice w.table).2
      ((((fw.db.statement q read).bind f).bind fun _ => .pure a).run (perform fw.db.ext)
        (fun _ => steady now resp) w) := by
  have hrun := @run_statement_passive_undisturbed α β (steady now resp) w rfl fw.db q read _ hf
  rw [← CallProgram.bind_assoc] at hrun
  obtain ⟨⟨a', houtcome⟩, htable⟩ := hrun
  have ha := CallProgram.eq_of_run_bind_pure houtcome
  exact ⟨ha ▸ houtcome, htable⟩

/-- A failure that has a delay parks the webhook for it. -/
theorem leaves_recordFailure (id : ℤ) {attempts : ℤ} {failure : Failure} {delay : Duration}
    (hdelay : nextDelay fw.db.ext.float fw.backoff failure.kind (Prog.addI64 attempts 1)
      failure.retryAfter (clockJitterUnit fw.db.ext.float (steady now resp).nanos) = some delay) :
    Leaves Progress.idle
      (w.table.update id (Row.failed (steady now resp).choice.coerce (Prog.asI64 now)
        failure.message (Prog.addI64 (Prog.asI64 now) (Prog.asI64 delay.asSecs))) fun _ => rfl)
      (((fw.recordFailure id attempts failure).bind fun _ => CallProgram.pure Progress.idle).run
        (perform fw.db.ext) (fun _ => steady now resp) w) := by
  unfold recordFailure Leaves
  simp only [CallProgram.bind_eq, CallProgram.bind_call, CallProgram.bind_pure_left]
  rw [CallProgram.run_call]
  dsimp only [perform]
  rw [hdelay]
  -- two readings of the clock come before the statement
  exact leaves_statement (f := fun _ => fw.afterRecorded id attempts failure.message)
    fun _ => (fw.passive_afterRecorded _ id attempts failure.message).bind fun _ => passive_pure _

end Steady

/-! ## One refused pass -/

/-- A refused delivery leaves the webhook parked for at most `gap` seconds. -/
def ParksWithin (gap : ℕ) : Prop :=
  ∀ (now : ℕ) (id : ℤ) (webhook : Webhook) (request : HttpRequest) (w : World),
    fw.buildRequest webhook = some request → now + gap < 2 ^ 63 →
    ∃ (message : String) (next : ℤ), next ≤ now + gap ∧
      Leaves Progress.idle
        (w.table.update id (Row.failed (steady now fw.refusal).choice.coerce now message next)
          fun _ => rfl)
        ((fw.onAnswer id webhook
          (sendRequest fw.db.ext (steady now fw.refusal).answers request).1).run
            (perform fw.db.ext) (fun _ => steady now fw.refusal) w)

/-- The two webhooks of the channel, the older one due from `now` on and the other one never
attempted. -/
structure Blocked (held waiting : Row) (t : Table) (now : ℕ) : Prop where
  rows : t.rows = [held, waiting]
  held_inChannel : held.inChannel fw.channel = true
  waiting_inChannel : waiting.inChannel fw.channel = true
  wellTyped : held.WellTyped
  older : ¬Row.Older waiting held
  due : ∀ later : ℤ, now ≤ later → held.isDue later = true
  fresh : waiting.forwardAttempts = .int 0
  parked : waiting.nextAttemptAt = .null

section Pass

variable {fw} {held waiting : Row} {t : Table} {now gap : ℕ} {w : World}

theorem Blocked.waits (h : fw.Blocked held waiting t now) : fw.Waits waiting.id t :=
  ⟨waiting, by simp [h.rows], rfl, h.waiting_inChannel, h.fresh, h.parked⟩

theorem Blocked.ne (h : fw.Blocked held waiting t now) : held.id ≠ waiting.id := by
  have hnodup := t.nodup
  rw [h.rows] at hnodup
  simpa using hnodup

/-- The peek finds the older webhook. -/
theorem Blocked.peeked (h : fw.Blocked held waiting t now) (hnow : now < 2 ^ 63)
    (choice : ScanChoice) :
    ((Query.peekOldestDueByChannel fw.channel (Prog.asI64 now)).execute choice t).1 =
      some held := by
  have hcast : Prog.asI64 (now : ℤ) = now := Prog.asI64_of_lt (by omega) (by omega)
  have hdue : held ∈ t.dueRows fw.channel (Prog.asI64 now) := by
    unfold Table.dueRows
    rw [List.mem_filter, hcast, Bool.and_eq_true]
    exact ⟨by simp [h.rows], h.held_inChannel, h.due _ le_rfl⟩
  cases hhead : (orderBy Row.Older choice.order (t.dueRows fw.channel (Prog.asI64 now))).head? with
  | none =>
      rw [List.head?_eq_none_iff] at hhead
      have hmem := (mem_orderBy Row.Older choice.order).mpr hdue
      rw [hhead] at hmem
      cases hmem
  | some r =>
      have holder := rel_of_head?_orderBy Row.Older choice.order hhead hdue
      have hr := List.mem_of_mem_filter ((mem_orderBy _ _).mp (List.mem_of_head? hhead))
      rw [h.rows] at hr
      rcases List.mem_cons.mp hr with rfl | hr
      · exact hhead
      · rw [List.mem_singleton.mp hr] at holder
        exact absurd holder h.older

/-- Parking the older webhook within a gap keeps the queue blocked after it. -/
theorem Blocked.update (h : fw.Blocked held waiting t now) (coerce : SqlValue → SqlValue)
    (message : String) {next : ℤ} (hnext : next ≤ now + gap) :
    fw.Blocked (held.failed coerce now message next) waiting
      (t.update held.id (Row.failed coerce now message next) fun _ => rfl) (now + gap) where
  rows := by
    unfold Table.update
    simp only [h.rows, List.map_cons, List.map_nil, if_true, if_neg h.ne.symm]
  held_inChannel := h.held_inChannel
  waiting_inChannel := h.waiting_inChannel
  wellTyped := h.wellTyped.failed coerce now message next
  older := h.older
  due := by
    intro later hlater
    have hle : next ≤ later := by omega
    simp [Row.isDue, Row.failed, hle]
  fresh := h.fresh
  parked := h.parked

theorem Blocked.mono (h : fw.Blocked held waiting t now) {later : ℕ} (hle : now ≤ later) :
    fw.Blocked held waiting t later :=
  { h with due := fun x hx => h.due x (by omega) }

/-- In a steady environment the peek loads what the scan finds. -/
theorem run_peek_steady (resp : WireResponse) {row : Row} {webhook : Webhook}
    (hparse : parseWebhookRow fw.db.ext row = some webhook)
    (hfound : ((Query.peekOldestDueByChannel fw.channel (Prog.asI64 now)).execute
      (steady now resp).choice w.table).1 = some row) :
    fw.peek.run (perform fw.db.ext) (fun _ => steady now resp) w =
      ⟨.done (.ok (some webhook)), w,
        [⟨.systemNow, now⟩, ⟨.instantNow, 0⟩,
          ⟨.sql (.peekOldestDueByChannel fw.channel (Prog.asI64 now)), .ok (some row)⟩]⟩ := by
  have hstatement := run_statement_steady now resp w fw.db
    (.peekOldestDueByChannel fw.channel (Prog.asI64 now))
    (fun row => row.bind (parseWebhookRow fw.db.ext))
  rw [hfound, Option.bind_some, hparse] at hstatement
  unfold peek
  rw [CallProgram.bind_eq, CallProgram.bind_call, CallProgram.run_call]
  simp only [CallProgram.bind_pure_left]
  exact congrArg (fun ex => (⟨ex.outcome, ex.state, ⟨.systemNow, now⟩ :: ex.calls⟩ :
    Executed (Except WebhookRepositoryError (Option Webhook)))) hstatement

/-- No answer to a request of a refused pass has the expected status. -/
theorem status_ne_of_mem_calls {about : Option Webhook} {request : HttpRequest}
    {resp : WireResponse}
    (h : (⟨.send about request, .ok resp⟩ : DoneCall) ∈
      (fw.forwardNext.run (perform fw.db.ext) (fun _ => steady now fw.refusal) w).calls) :
    resp.status ≠ fw.cfg.expectedStatus := by
  obtain ⟨n, s, hanswer⟩ := CallProgram.exists_perform_of_mem_calls h
  have hsent : (sendRequest fw.db.ext (steady now fw.refusal).answers request).1 = .ok resp :=
    hanswer
  rcases fw.sendRequest_refusal fw.db.ext now request with ⟨e, -, he⟩ | hok
  · cases he.symm.trans hsent
  · cases hok.symm.trans hsent
    exact fw.status_refusal_ne

/-- **A refused pass blocks the queue again**: it selects the older webhook and fails, and
leaves it due again after the gap. -/
theorem exists_blocked_again (hparks : fw.ParksWithin gap) (h : fw.Blocked held waiting w.table now)
    (hnow : now + gap < 2 ^ 63) :
    let ex := fw.forwardNext.run (perform fw.db.ext) (fun _ => steady now fw.refusal) w
    Selects held.id ex ∧ fw.Fails ex ∧
      ∃ held', held'.id = held.id ∧ fw.Blocked held' waiting ex.state.table (now + gap) := by
  intro ex
  obtain ⟨webhook, hparse⟩ := h.wellTyped.exists_webhook fw.db.ext
  have hid := (parseWebhookRow_eq_some hparse).1
  have hpeek := run_peek_steady fw.refusal hparse (h.peeked (by omega) _)
  let peeked := fw.peek.run (perform fw.db.ext) (fun _ => steady now fw.refusal) w
  have hselects : (∃ rest, ex.calls = peeked.calls ++ rest) → Selects held.id ex := by
    rintro ⟨rest, hcalls⟩
    refine ⟨⟨.sql (.peekOldestDueByChannel fw.channel (Prog.asI64 now)), .ok (some held)⟩, ?_,
      held, rfl, rfl⟩
    rw [hcalls, show peeked = _ from hpeek]
    simp
  have hfails : ex.outcome = .done .idle → fw.Fails ex := fun hidle =>
    ⟨hidle, fun _ _ _ => status_ne_of_mem_calls⟩
  cases hrequest : fw.buildRequest webhook with
  | none =>
      -- nothing is sent and nothing recorded
      have hrun : ex = ⟨.done .idle, w, peeked.calls ++ []⟩ := by
        unfold ex peeked forwardNext
        rw [CallProgram.bind_eq, CallProgram.run_bind, hpeek]
        simp only [onPeeked, hid, hrequest, CallProgram.pure_eq, CallProgram.run_pure]
      refine ⟨hselects ⟨[], by rw [hrun]⟩, hfails (by rw [hrun]), held, rfl, ?_⟩
      rw [hrun]
      exact h.mono (by omega)
  | some request =>
      have hrun : ex = _ := run_forwardNext (by rw [hpeek]) hid hrequest
      let sent := perform fw.db.ext (.send (some webhook) request) (steady now fw.refusal)
        peeked.state
      have hsent : sent.2.table = w.table := by
        unfold sent peeked
        rw [hpeek, perform_table_of_not_sql (by simp)]
      obtain ⟨message, next, hnext, hidle, htable⟩ :=
        hparks now held.id webhook request sent.2 hrequest hnow
      have houtcome : ex.outcome = .done .idle := (congrArg _ hrun).trans hidle
      refine ⟨hselects ⟨_, congrArg _ hrun⟩, hfails houtcome,
        held.failed (steady now fw.refusal).choice.coerce now message next, rfl, ?_⟩
      have hstate : ex.state.table = w.table.update held.id (Row.failed
          (steady now fw.refusal).choice.coerce now message next) fun _ => rfl := by
        rw [← hsent, ← htable, hrun]
        rfl
      rw [hstate]
      exact h.update _ message hnext

/-! ## Runs of refused passes -/

/-- The passes of a refused run come no earlier than it starts. -/
theorem le_of_mem_passes_refusals {n secs : ℕ} {ex : Executed Progress}
    (hex : ex ∈ fw.passes (fw.refusals gap n now) w) (hsecs : secs ∈ readings ex) :
    now ≤ secs := by
  induction n generalizing now w with
  | zero => cases hex
  | succ n ih =>
      rcases List.mem_cons.mp hex with rfl | hex
      · exact (eq_of_mem_readings hsecs).ge
      · have hle := ih hex
        omega

theorem Blocked.holdsUp_nil (h : fw.Blocked held waiting w.table now) :
    fw.HoldsUp held.id waiting.id w [] := by
  refine ⟨h.ne, h.waits, ?_, ?_, ?_, ?_, ?_, List.Pairwise.nil⟩ <;>
    exact fun ex hex => absurd hex List.not_mem_nil

/-- **A refused run is held up from its first pass to its last**, however long it is. -/
theorem Blocked.holdsUp (hparks : fw.ParksWithin gap) (hgap : fw.cfg.intervalSeconds.toNat ≤ gap)
    (n : ℕ) (h : fw.Blocked held waiting w.table now) (hnow : now + n * gap < 2 ^ 63) :
    fw.HoldsUp held.id waiting.id w (fw.passes (fw.refusals gap n now) w) := by
  induction n generalizing held now w with
  | zero => exact h.holdsUp_nil
  | succ n ih =>
      rw [Nat.succ_mul] at hnow
      obtain ⟨hselects, hfails, held', hid, hblocked⟩ := exists_blocked_again hparks h (by omega)
      have hrest := ih hblocked (by omega)
      rw [hid] at hrest
      exact
        { ne := h.ne
          waits := h.waits
          selects := List.forall_mem_cons.mpr ⟨hselects, hrest.selects⟩
          fails := List.forall_mem_cons.mpr ⟨hfails, hrest.fails⟩
          stays := List.forall_mem_cons.mpr ⟨hblocked.waits, hrest.stays⟩
          forward := List.forall_mem_cons.mpr ⟨pairwise_readings, hrest.forward⟩
          inRange := List.forall_mem_cons.mpr ⟨fun secs hsecs => by
            rw [eq_of_mem_readings hsecs]
            omega, hrest.inRange⟩
          apart := List.pairwise_cons.mpr ⟨fun ex' hex' secs hsecs secs' hsecs' => by
            have hlater := le_of_mem_passes_refusals hex' hsecs'
            rw [eq_of_mem_readings hsecs]
            omega, hrest.apart⟩ }

end Pass

/-! ## How long a refused webhook is parked -/

section Delays

variable {fw} {now gap : ℕ} {w : World}

/-- A delay within the gap parks the webhook within the gap. -/
theorem exists_parked (failure : Failure) (delay : Duration) {id attempts : ℤ}
    {resp : WireResponse}
    (hdelay : nextDelay fw.db.ext.float fw.backoff failure.kind (Prog.addI64 attempts 1)
      failure.retryAfter (clockJitterUnit fw.db.ext.float (steady now resp).nanos) = some delay)
    (hle : delay.asSecs ≤ gap) (hnow : now + gap < 2 ^ 63) :
    ∃ (message : String) (next : ℤ), next ≤ now + gap ∧
      Leaves Progress.idle
        (w.table.update id (Row.failed (steady now resp).choice.coerce now message next)
          fun _ => rfl)
        (((fw.recordFailure id attempts failure).bind fun _ => CallProgram.pure Progress.idle).run
          (perform fw.db.ext) (fun _ => steady now resp) w) := by
  refine ⟨failure.message, now + delay.asSecs, by omega, ?_⟩
  have hleaves := leaves_recordFailure id (w := w) hdelay
  have hnow' : Prog.asI64 (now : ℤ) = now := Prog.asI64_of_lt (by omega) (by omega)
  have hsecs : Prog.asI64 (delay.asSecs : ℤ) = delay.asSecs :=
    Prog.asI64_of_lt (by omega) (by omega)
  have hnext : Prog.addI64 (now : ℤ) delay.asSecs = now + delay.asSecs :=
    Prog.asI64_of_lt (by omega) (by omega)
  rwa [hnow', hsecs, hnext] at hleaves

variable (fw) in
/-- A refusal is recorded as a failure for which the target asked for no delay. -/
theorem onAnswer_refusal (id : ℤ) (webhook : Webhook) :
    ∃ failure : Failure, failure.retryAfter = some (Duration.fromSecs 0) ∧
      fw.onAnswer id webhook (.ok fw.refusal) =
        (fw.recordFailure id webhook.forwardAttempts failure).bind fun _ => .pure .idle := by
  have hpreview : readBodyPreview fw.refusal = some "" := rfl
  refine ⟨⟨classifyStatus fw.refusal.status, fw.refusal.retryAfter,
    "HTTP " ++ toString fw.refusal.status ++ ": " ++ ""⟩, retryAfter_refusal fw, ?_⟩
  unfold onAnswer
  simp only [if_neg fw.status_refusal_ne, hpreview]
  rfl

/-- When a request the client refuses to send is retried within the gap, so is every webhook
of a refused run: one the target refuses is retried at once. -/
theorem parksWithin (herror : ∀ request e, fw.db.ext.requestError request = some e →
      ∀ attempts unit, ∃ delay,
        nextDelay fw.db.ext.float fw.backoff .transient attempts none unit = some delay ∧
          delay.asSecs ≤ gap) :
    fw.ParksWithin gap := by
  intro now id webhook request w _ hnow
  rcases fw.sendRequest_refusal fw.db.ext now request with ⟨e, hrefused, hanswer⟩ | hanswer
  · obtain ⟨delay, hdelay, hle⟩ := herror request e hrefused
      (Prog.addI64 webhook.forwardAttempts 1)
      (clockJitterUnit fw.db.ext.float (steady now fw.refusal).nanos)
    rw [hanswer]
    exact exists_parked ⟨.transient, none, "network error: " ++ e⟩ delay hdelay hle hnow
  · obtain ⟨failure, hretryAfter, honAnswer⟩ := fw.onAnswer_refusal id webhook
    rw [hanswer, honAnswer]
    refine exists_parked failure (min (Duration.fromSecs 0) fw.backoff.max) ?_ ?_ hnow
    · rw [hretryAfter]
      rfl
    · have hmin := Duration.asSecs_mono (min_le_left (Duration.fromSecs 0) fw.backoff.max)
      rw [Duration.asSecs_fromSecs] at hmin
      omega

/-- Every refused webhook is parked for at most the ceiling. -/
theorem parksWithin_max (hsound : fw.backoff.Sound) (hmax : fw.backoff.max.asSecs ≤ 2 ^ 53) :
    fw.ParksWithin fw.backoff.max.asSecs := by
  refine parksWithin fun _ _ _ attempts unit => ?_
  have hsafe : fw.backoff.max ≤ largestSafeCeiling := by
    obtain ⟨m, -, hm⟩ := hsound.max
    rw [hm, Duration.asSecs_fromSecs] at hmax
    have hcast : (m : ℚ) ≤ 2 ^ 53 := by exact_mod_cast hmax
    rw [hm]
    exact hcast.trans (by norm_num [largestSafeCeiling])
  obtain ⟨delay, hdelay⟩ :=
    hsound.exists_nextDelay hsafe fw.db.ext.float .transient attempts none unit
  exact ⟨delay, hdelay, Duration.asSecs_mono (hsound.nextDelay_le_max hdelay)⟩

/-- A client that sends every request meets a refusal each time, which parks for no time. -/
theorem parksWithin_of_clientSends (hsends : fw.ClientSends) : fw.ParksWithin gap :=
  parksWithin fun request e herror => by
    rw [hsends request] at herror
    cases herror

end Delays

/-! ## No forwarder keeps its queue moving -/

/-- Two webhooks of the channel that were received one after the other, and nothing else. -/
def twoQueued : World where
  table :=
    (Table.empty.insert ⟨.text fw.channel, .text "\x7b\x7d", .blob [123, 125], .int 0⟩).insert
      ⟨.text fw.channel, .text "\x7b\x7d", .blob [123, 125], .int 1⟩
  statuses := fun _ => some .new
  wire := []

theorem blocked_twoQueued : ∃ held waiting, held.id = 1 ∧ waiting.id = 2 ∧
    fw.Blocked held waiting fw.twoQueued.table 1 := by
  refine ⟨_, _, rfl, rfl,
    { rows := rfl
      held_inChannel := by simp [Row.inChannel, Row.inserted]
      waiting_inChannel := by simp [Row.inChannel, Row.inserted]
      wellTyped := Row.wellTyped_inserted _ _ _ _ _
      older := by simp [Row.Older, Row.inserted]
      due := fun _ _ => rfl
      fresh := rfl
      parked := rfl }⟩

/-- The interval of a forwarder of an accepted configuration is not above the ceiling. -/
theorem interval_le_max {state : AppState}
    (hconfig : state.config.validateForwardBackoff state.db.ext = .ok ()) {fw : Forwarder}
    (hfw : fw ∈ state.forwarders) :
    fw.backoff.Sound ∧ fw.cfg.intervalSeconds.toNat ≤ fw.backoff.max.asSecs := by
  obtain ⟨ch, hch, fwd, hfwd, rfl⟩ := AppState.exists_channel_of_mem_forwarders hfw
  have hsound := sound_of_validateForwardBackoff hconfig hch hfwd
  have hle := Duration.asSecs_mono hsound.base_le_max
  exact ⟨hsound, (Duration.asSecs_fromSecs _).symm.trans_le hle⟩

variable {fw} in
/-- The passes of a number that fits the clock can be spaced so that each is made when the
refused webhook is due again and an interval has passed. -/
theorem FitsClock.exists_gap {bound : ℕ} (hsound : fw.backoff.Sound)
    (hinterval : fw.cfg.intervalSeconds.toNat ≤ fw.backoff.max.asSecs) (hpos : 0 < bound)
    (h : fw.FitsClock bound) :
    ∃ gap, fw.ParksWithin gap ∧ fw.cfg.intervalSeconds.toNat ≤ gap ∧ bound * gap ≤ 2 ^ 62 := by
  rcases h with hmax | ⟨hsends, hfits⟩
  · have hle : fw.backoff.max.asSecs ≤ 2 ^ 53 := (Nat.le_mul_of_pos_left _ hpos).trans hmax
    exact ⟨_, parksWithin_max hsound hle, hinterval, hmax.trans (by norm_num)⟩
  · exact ⟨_, parksWithin_of_clientSends hsends, le_rfl, hfits⟩

/-- **A webhook the target refuses holds up its queue without a bound**, for every forwarder
of every accepted configuration. -/
theorem held_up_without_bound {state : AppState}
    (hconfig : state.config.validateForwardBackoff state.db.ext = .ok ()) {fw : Forwarder}
    (hfw : fw ∈ state.forwarders) : ¬fw.KeepsMoving := by
  rintro ⟨bound, hfits, hmoves⟩
  obtain ⟨hsound, hinterval⟩ := interval_le_max hconfig hfw
  obtain ⟨held, waiting, -, -, hblocked⟩ := fw.blocked_twoQueued
  rcases Nat.eq_zero_or_pos bound with rfl | hpos
  · exact Nat.lt_irrefl 0 (hmoves _ _ _ [] hblocked.holdsUp_nil)
  · obtain ⟨gap, hparks, hgap, hrange⟩ := hfits.exists_gap hsound hinterval hpos
    have hheld := hblocked.holdsUp hparks hgap bound (by omega)
    have hlength := hmoves _ _ _ _ hheld
    rw [length_refusals] at hlength
    exact Nat.lt_irrefl bound hlength

theorem validateForwardBackoff_small :
    AppState.small.config.validateForwardBackoff AppState.small.db.ext = .ok () :=
  Except.eq_ok_of_toBool (by decide +kernel)

/-- The forwarder of the small service: a refused webhook is selected again by as many passes
as the clock has room for. -/
theorem held_up_without_bound_small : ¬small.KeepsMoving :=
  held_up_without_bound validateForwardBackoff_small small_mem_forwarders

/-- **Passes one interval apart are held up too**: the target of the small service asks every
time to be tried again after zero seconds, and no bound on such passes holds. -/
theorem small_held_up_every_interval :
    AppState.small.config.validateForwardBackoff AppState.small.db.ext = .ok () ∧
      small ∈ AppState.small.forwarders ∧ small.cfg.intervalSeconds = 60 ∧
      ¬∃ bound, small.FitsClock bound ∧ ∀ n,
        small.HoldsUp 1 2 small.twoQueued (small.passes (small.refusals 60 n 1) small.twoQueued) →
          n < bound := by
  refine ⟨validateForwardBackoff_small, small_mem_forwarders, rfl, ?_⟩
  rintro ⟨bound, hfits, hmoves⟩
  obtain ⟨held, waiting, hheld, hwaiting, hblocked⟩ := small.blocked_twoQueued
  have hparks : small.ParksWithin 60 := parksWithin_of_clientSends fun _ => rfl
  have hceiling : small.backoff.max.asSecs = 3600 := Duration.asSecs_fromSecs 3600
  have hinterval : small.cfg.intervalSeconds.toNat = 60 := rfl
  unfold FitsClock at hfits
  rw [hceiling, hinterval] at hfits
  have hrun := hblocked.holdsUp hparks (by decide +kernel) bound (by omega)
  rw [hheld, hwaiting] at hrun
  exact Nat.lt_irrefl bound (hmoves bound hrun)

end Forwarder
