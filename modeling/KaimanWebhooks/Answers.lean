/-
# Answers agree with what was stored

An operation of the adapter that returns a value executed its statement once, and one that
returns an error executed nothing; the error is `busy` exactly when the last attempt failed
by contention.  The handlers pass this on: 2xx for a statement that was executed once, 503
with `Retry-After` for contention, 500 for any other failure.
-/
import KaimanWebhooks.Attempts
import KaimanWebhooks.Service

/-! ## The operations of the adapter -/

/-- The operations of the repository, with their arguments. -/
inductive Operation : Type where
  | insert (webhook : Webhook)
  | readAndDeleteByChannel (channel : WebhookChannel) (limit : ℤ)
  | peekOldestDueByChannel (channel : WebhookChannel) (now : ℤ)
  | listByChannel (channel : WebhookChannel)
  | deleteById (id : ℤ)
  | recordForwardFailure (id : ℤ) (errorMessage : String) (nextAttemptAt : ℤ)
  | countByChannel (channel : WebhookChannel)
  | listQueueByChannel (channel : WebhookChannel)
  | clearByChannel (channel : WebhookChannel)
  | getById (id : ℤ)
  | resetForwardAttempts (id : ℤ)

namespace Operation

/-- What an operation returns. -/
abbrev Result : Operation → Type
  | .insert _ => Unit
  | .readAndDeleteByChannel _ _ => List Webhook
  | .peekOldestDueByChannel _ _ => Option Webhook
  | .listByChannel _ => List Webhook
  | .deleteById _ => Unit
  | .recordForwardFailure _ _ _ => Unit
  | .countByChannel _ => ℤ
  | .listQueueByChannel _ => List Webhook
  | .clearByChannel _ => ℤ
  | .getById _ => Option Webhook
  | .resetForwardAttempts _ => Unit

variable (db : Sqlite)

/-- The program of an operation. -/
def program : (op : Operation) → AppAction (Except WebhookRepositoryError op.Result)
  | .insert webhook => db.insert webhook
  | .readAndDeleteByChannel channel limit => db.readAndDeleteByChannel channel limit
  | .peekOldestDueByChannel channel now => db.peekOldestDueByChannel channel now
  | .listByChannel channel => db.listByChannel channel
  | .deleteById id => db.deleteById id
  | .recordForwardFailure id errorMessage next => db.recordForwardFailure id errorMessage next
  | .countByChannel channel => db.countByChannel channel
  | .listQueueByChannel channel => db.listQueueByChannel channel
  | .clearByChannel channel => db.clearByChannel channel
  | .getById id => db.getById id
  | .resetForwardAttempts id => db.resetForwardAttempts id

/-- The effect of an operation that is executed at the time `now`. -/
def effect (now : ℤ) : Operation → Query
  | .insert w => .insert w.channel (db.headersJson w.headers) w.payload w.receivedAt
  | .readAndDeleteByChannel channel limit => .readAndDeleteByChannel channel limit
  | .peekOldestDueByChannel channel now => .peekOldestDueByChannel channel now
  | .listByChannel channel => .listByChannel channel
  | .deleteById id => .deleteById id
  | .recordForwardFailure id errorMessage next => .recordForwardFailure now errorMessage next id
  | .countByChannel channel => .countByChannel channel
  | .listQueueByChannel channel => .listQueueByChannel channel
  | .clearByChannel channel => .clearByChannel channel
  | .getById id => .getById id
  | .resetForwardAttempts id => .resetForwardAttempts id

/-- How the answer of the statement is read. -/
def read (now : ℤ) : (op : Operation) → (op.effect db now).Answer → op.Result
  | .insert _, _ => ()
  | .readAndDeleteByChannel _ _, rows => rows.filterMap (parseWebhookRow db.ext)
  | .peekOldestDueByChannel _ _, row => row.bind (parseWebhookRow db.ext)
  | .listByChannel _, rows => rows.filterMap (parseWebhookRow db.ext)
  | .deleteById _, _ => ()
  | .recordForwardFailure _ _ _, _ => ()
  | .countByChannel _, count => count
  | .listQueueByChannel _, rows => rows.filterMap (parseWebhookRow db.ext)
  | .clearByChannel _, affected =>
      let affected : ℕ := affected
      Prog.asI64 affected
  | .getById _, row => row.bind (parseWebhookRow db.ext)
  | .resetForwardAttempts _, _ => ()

variable {db}

/-- An operation is its statement; recording a failure reads the clock first. -/
theorem program_eq (op : Operation) :
    (∀ now, op.program db = db.statement (op.effect db now) (op.read db now)) ∨
      op.program db = Prog.nowUnix.bind fun now =>
        db.statement (op.effect db now) (op.read db now) := by
  cases op with
  | recordForwardFailure id errorMessage next => exact Or.inr rfl
  | _ => exact Or.inl fun _ => rfl

/-- **Every operation agrees with what was stored.** -/
theorem agrees (hretry : db.retry = LockRetryPolicy.default) (op : Operation) (ω : ℕ → Input)
    (w : World) : ∃ now, OperationAgrees (op.effect db now) (op.read db now) w
      ((op.program db).run (perform db.ext) ω w) := by
  have hcases : (∀ now, op.program db = db.statement (op.effect db now) (op.read db now)) ∨ _ :=
    op.program_eq
  rcases hcases with hprogram | hprogram
  · refine ⟨0, ?_⟩
    rw [hprogram 0]
    exact statement_agrees hretry _ ω w
  · refine ⟨Prog.asI64 (ω 0).unixSeconds, ?_⟩
    rw [hprogram]
    -- the clock reading is one more call, and no attempt
    exact statement_agrees hretry _ (fun n => ω (n + 1)) w

end Operation

/-! ## The handlers -/

/-- The three ways a handler can answer once its request was let through. -/
def RouteAgrees (q : Query) (w : World) (ex : Executed HttpResponse) : Prop :=
  ∃ resp, ex.outcome = .done resp ∧
    ((200 ≤ resp.status ∧ resp.status < 300 ∧ ∃ choice, CommittedOnce q choice w ex) ∨
     (resp = .storageBusy ∧ ∃ e, FailedWith e w ex ∧ e.IsContention) ∨
     (resp = .text 500 "Error" ∧ ∃ e, FailedWith e w ex ∧ ¬e.IsContention))

/-- Reading the clock first changes nothing about the agreement. -/
theorem routeAgrees_nowUnix {ext : External} {q : Query} {g : ℤ → AppAction HttpResponse}
    {ω : ℕ → Input} {w : World} :
    RouteAgrees q w ((Prog.nowUnix.bind g).run (perform ext) ω w) ↔
      RouteAgrees q w ((g (Prog.asI64 (ω 0).unixSeconds)).run (perform ext)
        (fun n => ω (n + 1)) w) := Iff.rfl

/-- A handler that runs one operation, answers 2xx to its value without touching the table
again and turns its error into the response for errors. -/
theorem route_agrees {db : Sqlite} (hretry : db.retry = LockRetryPolicy.default) {β : Type}
    {q : Query} {read : q.Answer → β} {f : Except WebhookRepositoryError β → AppAction HttpResponse}
    (hok : ∀ b ω w, ∃ resp, ((f (.ok b)).run (perform db.ext) ω w).outcome = .done resp ∧
      200 ≤ resp.status ∧ resp.status < 300 ∧
      outcomes ((f (.ok b)).run (perform db.ext) ω w).calls = [] ∧
      ((f (.ok b)).run (perform db.ext) ω w).state.table = w.table)
    (herr : ∀ e, f (.error e) = .pure (.ofError e)) (ω : ℕ → Input) (w : World) :
    RouteAgrees q w (((db.statement q read).bind f).run (perform db.ext) ω w) := by
  have hagrees := statement_agrees hretry read ω w
  rw [CallProgram.run_bind]
  unfold OperationAgrees at hagrees
  cases houtcome : ((db.statement q read).run (perform db.ext) ω w).outcome with
  | panicked m =>
      rw [houtcome] at hagrees
      exact hagrees.elim
  | done result =>
      rw [houtcome] at hagrees
      cases result with
      | ok b =>
          obtain ⟨choice, -, ⟨failed, hcalls⟩, htable⟩ := hagrees
          obtain ⟨resp, hresp, hlow, hhigh, hquiet, hsame⟩ := hok b
            (fun n => ω (n + ((db.statement q read).run (perform db.ext) ω w).calls.length))
            ((db.statement q read).run (perform db.ext) ω w).state
          refine ⟨resp, hresp, Or.inl ⟨hlow, hhigh, choice, ⟨failed, ?_⟩, hsame.trans htable⟩⟩
          dsimp only
          rw [outcomes_append, hquiet, List.append_nil]
          exact hcalls
      | error e =>
          obtain ⟨last, hfailed, hbusy⟩ := hagrees
          dsimp only
          rw [herr e, CallProgram.run_pure]
          refine ⟨.ofError e, rfl, Or.inr ?_⟩
          have hfailed' : FailedWith last w
              (⟨.done (.ofError e), ((db.statement q read).run (perform db.ext) ω w).state,
                ((db.statement q read).run (perform db.ext) ω w).calls ++ []⟩ :
                Executed HttpResponse) := by
            unfold FailedWith
            rw [List.append_nil]
            exact hfailed
          by_cases hb : e.isBusy = true
          · exact Or.inl ⟨by rw [HttpResponse.ofError, if_pos hb], last, hfailed', hbusy.mp hb⟩
          · refine Or.inr ⟨by rw [HttpResponse.ofError, if_neg hb], last, hfailed', ?_⟩
            exact fun hcontention => hb (hbusy.mpr hcontention)

namespace AppState

variable (state : AppState)

/-- The request is one of the six routes that store, read or remove webhooks, and it passes
the authorization and the validation of its route. -/
def Passes : Request → Prop
  | .receive clientIp channel headers body =>
      state.checkRequest clientIp channel headers body = .ok ()
  | .poll channel headers => state.authorize headers channel = .ok ()
  | .list channel headers => state.authorize headers channel = .ok ()
  | .delete channel _ headers => state.authorize headers channel = .ok ()
  | .queue channel headers => state.authorize headers channel = .ok () ∧
      ∃ target, state.findForwardTarget channel = .ok target
  | .clear channel headers => state.authorize headers channel = .ok ()
  | _ => False

/-- The effect of a request that is executed at the time `now`. -/
def effect (now : ℤ) : Request → Option Query
  | .receive _ channel headers body =>
      some (.insert channel (state.db.headersJson (state.forwardedHeaders headers)) body now)
  | .poll channel _ => some (.readAndDeleteByChannel channel Sqlite.readLimit)
  | .list channel _ => some (.listByChannel channel)
  | .delete _ id _ => some (.deleteById id)
  | .queue channel _ => some (.listQueueByChannel channel)
  | .clear channel _ => some (.clearByChannel channel)
  | _ => none

variable {state}

/-- **Every handler agrees with what was stored.** -/
theorem handle_agrees (hretry : state.db.retry = LockRetryPolicy.default) {r : Request}
    (hpasses : state.Passes r) (ω : ℕ → Input) (w : World) :
    ∃ now q, state.effect now r = some q ∧
      RouteAgrees q w ((state.handle r).run (perform state.db.ext) ω w) := by
  cases r with
  | receive clientIp channel headers body =>
      refine ⟨Prog.asI64 (ω 0).unixSeconds, _, rfl, ?_⟩
      unfold Passes at hpasses
      simp only [handle, receiveWebhookRoute, hpasses, orRespond, Sqlite.receiveWebhook,
        CallProgram.bind_eq, CallProgram.bind_assoc]
      -- the time of receipt is read before the statement
      apply routeAgrees_nowUnix.mpr
      dsimp only [Sqlite.insert, Webhook.new]
      exact route_agrees hretry (fun _ _ _ => ⟨_, rfl, by decide, by decide, rfl, rfl⟩)
        (fun _ => rfl) (fun n => ω (n + 1)) w
  | poll channel headers =>
      refine ⟨0, _, rfl, ?_⟩
      unfold Passes at hpasses
      simp only [handle, readWebhooksRoute, authorizeInPlace_eq, hpasses, orRespond, pollFor]
      exact route_agrees hretry (fun _ _ _ => ⟨_, rfl, le_refl 200, by simp, rfl, rfl⟩)
        (fun _ => rfl) ω w
  | list channel headers =>
      refine ⟨0, _, rfl, ?_⟩
      unfold Passes at hpasses
      simp only [handle, listWebhooksRoute, authorizeInPlace_eq, hpasses, orRespond, listFor]
      exact route_agrees hretry (fun _ _ _ => ⟨_, rfl, le_refl 200, by simp, rfl, rfl⟩)
        (fun _ => rfl) ω w
  | delete channel id headers =>
      refine ⟨0, _, rfl, ?_⟩
      unfold Passes at hpasses
      simp only [handle, deleteWebhookRoute, authorizeInPlace_eq, hpasses, orRespond, deleteFor]
      exact route_agrees hretry (fun _ _ _ => ⟨_, rfl, by decide, by decide, rfl, rfl⟩)
        (fun _ => rfl) ω w
  | queue channel headers =>
      refine ⟨0, _, rfl, ?_⟩
      obtain ⟨hauthorized, target, htarget⟩ := hpasses
      simp only [handle, getQueueRoute, hauthorized, htarget, orRespond, viewFor]
      exact route_agrees hretry (fun _ _ _ => ⟨_, rfl, le_refl 200, by simp, rfl, rfl⟩)
        (fun _ => rfl) ω w
  | clear channel headers =>
      refine ⟨0, _, rfl, ?_⟩
      unfold Passes at hpasses
      simp only [handle, clearQueueRoute, hpasses, orRespond, clearFor]
      exact route_agrees hretry (fun _ _ _ => ⟨_, rfl, by decide, by decide, rfl, rfl⟩)
        (fun _ => rfl) ω w
  | pause channel headers => exact hpasses.elim
  | resume channel headers => exact hpasses.elim
  | retry channel id headers => exact hpasses.elim

end AppState

namespace AppState

/-- **Answers agree with what was stored.**  Every operation applies its effect once and
returns a value, or applies nothing and returns an error, which is `busy` exactly after
contention; and every request that is let through is answered accordingly: a receive that is
answered 2xx left one row more. -/
theorem answers_agree_with_storage (ext : External) (config : AppConfig) (ω : ℕ → Input)
    (w : World) :
    (∀ op : Operation, ∃ now,
      OperationAgrees (op.effect ⟨ext, LockRetryPolicy.default⟩ now)
        (op.read ⟨ext, LockRetryPolicy.default⟩ now) w
        ((op.program ⟨ext, LockRetryPolicy.default⟩).run (perform ext) ω w)) ∧
    ∀ r : Request, AppState.Passes ⟨config, ⟨ext, LockRetryPolicy.default⟩⟩ r →
      ∃ now q resp, AppState.effect ⟨config, ⟨ext, LockRetryPolicy.default⟩⟩ now r = some q ∧
        let ex := (AppState.handle ⟨config, ⟨ext, LockRetryPolicy.default⟩⟩ r).run (perform ext) ω w
        ex.outcome = .done resp ∧
        (200 ≤ resp.status ∧ resp.status < 300 ↔ ∃ choice, CommittedOnce q choice w ex) ∧
        (resp.status = 503 ∧ ("retry-after", "1") ∈ resp.headers ↔
          ∃ e, FailedWith e w ex ∧ e.IsContention) ∧
        (resp.status = 500 ↔ ∃ e, FailedWith e w ex ∧ ¬e.IsContention) ∧
        ((∃ choice, CommittedOnce q choice w ex) ∨ ∃ e, FailedWith e w ex) ∧
        (200 ≤ resp.status ∧ resp.status < 300 → ∀ channel headers payload receivedAt,
          q = .insert channel headers payload receivedAt →
            ex.state.table.rows = w.table.rows ++
              [⟨w.table.seq + 1, .text channel, .text headers, .blob payload, .int receivedAt,
                .int 0, .null, .null, .null⟩]) := by
  refine ⟨fun op => op.agrees rfl ω w, fun r hpasses => ?_⟩
  obtain ⟨now, q, heffect, resp, hresp, hways⟩ := handle_agrees rfl hpasses ω w
  refine ⟨now, q, resp, heffect, hresp, ?_⟩
  rcases hways with ⟨hlow, hhigh, choice, hcommitted⟩ | ⟨rfl, e, hfailed, hcontention⟩ |
    ⟨rfl, e, hfailed, hcontention⟩
  · have hnot : ∀ e, ¬FailedWith e w _ := fun e hfailed => hfailed.not_committedOnce hcommitted
    refine ⟨⟨fun _ => ⟨choice, hcommitted⟩, fun _ => ⟨hlow, hhigh⟩⟩, ⟨?_, ?_⟩, ⟨?_, ?_⟩,
      Or.inl ⟨choice, hcommitted⟩, ?_⟩
    · rintro ⟨hstatus, -⟩
      omega
    · rintro ⟨e, hfailed, -⟩
      exact absurd hfailed (hnot e)
    · intro hstatus
      omega
    · rintro ⟨e, hfailed, -⟩
      exact absurd hfailed (hnot e)
    · rintro - channel headers payload receivedAt rfl
      exact hcommitted.rows_insert
  · refine ⟨⟨?_, ?_⟩, ⟨fun _ => ⟨e, hfailed, hcontention⟩, fun _ => by decide⟩, ⟨?_, ?_⟩,
      Or.inr ⟨e, hfailed⟩, ?_⟩
    · rintro ⟨-, hhigh⟩
      simp [HttpResponse.storageBusy] at hhigh
    · rintro ⟨choice, hcommitted⟩
      exact absurd hcommitted hfailed.not_committedOnce
    · intro hstatus
      simp [HttpResponse.storageBusy] at hstatus
    · rintro ⟨e', hfailed', hother⟩
      exact absurd (hfailed.unique hfailed' ▸ hcontention) hother
    · rintro ⟨-, hhigh⟩
      simp [HttpResponse.storageBusy] at hhigh
  · refine ⟨⟨?_, ?_⟩, ⟨?_, ?_⟩, ⟨fun _ => ⟨e, hfailed, hcontention⟩, fun _ => rfl⟩,
      Or.inr ⟨e, hfailed⟩, ?_⟩
    · rintro ⟨-, hhigh⟩
      simp [HttpResponse.text] at hhigh
    · rintro ⟨choice, hcommitted⟩
      exact absurd hcommitted hfailed.not_committedOnce
    · rintro ⟨hstatus, -⟩
      simp [HttpResponse.text] at hstatus
    · rintro ⟨e', hfailed', hcontention'⟩
      exact absurd (hfailed.unique hfailed' ▸ hcontention') hcontention
    · rintro ⟨-, hhigh⟩
      simp [HttpResponse.text] at hhigh

theorem passes_small : small.Passes Request.small := by
  show small.checkRequest _ _ _ _ = .ok ()
  apply Except.eq_ok_of_toBool
  decide +kernel

/-- An empty object is received while the storage works: it is answered 200, and the table holds
its row. -/
theorem answers_agree_with_storage_small :
    ∃ now q resp, small.effect now Request.small = some q ∧
      let ex := (small.handle Request.small).run (perform External.plain)
        (fun _ => Input.calm 1000 200) small.initial.shared
      ex.outcome = .done resp ∧ resp.status = 200 ∧
      (∃ choice, CommittedOnce q choice small.initial.shared ex) ∧
      ∃ headers, ex.state.table.rows = [⟨1, .text "orders", .text headers, .blob [123, 125],
        .int now, .int 0, .null, .null, .null⟩] := by
  obtain ⟨now, q, resp, heffect, hresp, hsuccess, -, -, -, hrow⟩ :=
    (answers_agree_with_storage External.plain AppConfig.small (fun _ => Input.calm 1000 200)
      small.initial.shared).2 Request.small passes_small
  have hdone : ((small.handle Request.small).run (perform External.plain)
      (fun _ => Input.calm 1000 200) small.initial.shared).outcome = .done resp := hresp
  have hanswer : (match ((small.handle Request.small).run (perform External.plain)
      (fun _ => Input.calm 1000 200) small.initial.shared).outcome with
      | .done r => decide (r.status = 200)
      | .panicked _ => false) = true := by
    decide +kernel
  rw [hdone] at hanswer
  have hstatus : resp.status = 200 := of_decide_eq_true hanswer
  have hok : 200 ≤ resp.status ∧ resp.status < 300 := by omega
  have hrows := hrow hok
  obtain rfl := Option.some.inj heffect
  exact ⟨now, _, resp, heffect, hresp, hstatus, hsuccess.mp hok, _, hrows _ _ _ _ rfl⟩

end AppState
