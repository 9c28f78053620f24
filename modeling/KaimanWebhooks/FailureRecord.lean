/-
# Recording a failure

The forwarder and the manual retry record a failed attempt in the same steps: they compute
the delay, read the clock, and store the failure with the time the delay leads to.  Only what
follows the statement is their own.
-/
import KaimanWebhooks.Attempts
import KaimanWebhooks.Routes

/-! ## The common steps -/

section Common

variable {α β : Type}

/-- Compute the delay of a failure, store the failure, and go on with the result. -/
def recordFailureThen (db : Sqlite) (backoff : ForwardBackoff) (kind : FailureKind)
    (attemptsBefore : ℤ) (retryAfter : Option Duration) (id : ℤ) (message : String)
    (next : Except WebhookRepositoryError Unit → AppAction α) : AppAction α :=
  .call .subsecNanos fun nanos =>
    match nextDelay db.ext.float backoff kind (Prog.addI64 attemptsBefore 1) retryAfter
        (clockJitterUnit db.ext.float nanos) with
    | none => .panic "cannot convert float seconds to Duration"
    | some delay =>
        .call .systemNow fun secs => .call .systemNow fun secs' =>
          (db.statement (.recordForwardFailure (Prog.asI64 secs') message
            (Prog.addI64 (Prog.asI64 secs) (Prog.asI64 delay.asSecs)) id) fun _ => ()).bind next

/-- What comes after the recording belongs to what follows the statement. -/
theorem recordFailureThen_bind (db : Sqlite) (backoff : ForwardBackoff) (kind : FailureKind)
    (attemptsBefore : ℤ) (retryAfter : Option Duration) (id : ℤ) (message : String)
    (next : Except WebhookRepositoryError Unit → AppAction α) (f : α → AppAction β) :
    (recordFailureThen db backoff kind attemptsBefore retryAfter id message next).bind f =
      recordFailureThen db backoff kind attemptsBefore retryAfter id message
        fun result => (next result).bind f := by
  unfold recordFailureThen
  rw [CallProgram.bind_call]
  congr 1
  funext nanos
  cases nextDelay db.ext.float backoff kind (Prog.addI64 attemptsBefore 1) retryAfter
      (clockJitterUnit db.ext.float nanos) with
  | none => rfl
  | some delay => simp only [CallProgram.bind_call, CallProgram.bind_assoc]

end Common

/-- What the manual retry does once the failure was stored or could not be stored. -/
def RetryContext.afterRecorded (ctx : RetryContext) (message : String) : AppAction Unit :=
  .call .systemNow fun secs =>
    .call (.updateStatus ctx.channelName (.failed (Prog.asI64 secs) message)) fun _ => .pure ()

theorem Forwarder.recordFailure_eq (fw : Forwarder) (id attemptsBefore : ℤ) (failure : Failure) :
    fw.recordFailure id attemptsBefore failure =
      recordFailureThen fw.db fw.backoff failure.kind attemptsBefore failure.retryAfter id
        failure.message fun _ => fw.afterRecorded id attemptsBefore failure.message :=
  rfl

theorem RetryContext.recordFailure_eq (ctx : RetryContext) (kind : FailureKind)
    (retryAfter : Option Duration) (message : String) :
    ctx.recordFailure kind retryAfter message =
      recordFailureThen ctx.state.db
        (ctx.forwardCfg.resolveBackoff ctx.state.config.forwardBackoff) kind
        ctx.webhook.forwardAttempts retryAfter ctx.webhookId message
        fun _ => ctx.afterRecorded message :=
  rfl

/-! ## What follows makes no attempt -/

theorem Forwarder.passive_afterRecorded (fw : Forwarder) (ext : External) (id attempts : ℤ)
    (message : String) : Passive ext (fw.afterRecorded id attempts message) := by
  have hend : Passive ext (.call .systemNow fun secs =>
      .call (.updateStatus fw.channel (.failed (Prog.asI64 secs) message)) fun _ => .pure ()) :=
    passive_call (by simp) fun _ => passive_call (by simp) fun _ => passive_pure _
  simp only [Forwarder.afterRecorded, Forwarder.reportStuck, CallProgram.bind_eq,
    CallProgram.pure_eq, CallProgram.bind_call, CallProgram.bind_pure_left]
  split
  · exact passive_call (by simp) fun _ => hend
  · exact hend

theorem RetryContext.passive_afterRecorded (ctx : RetryContext) (ext : External)
    (message : String) : Passive ext (ctx.afterRecorded message) :=
  passive_call (by simp) fun _ => passive_call (by simp) fun _ => passive_pure _

/-! ## The statements of a run -/

section Runs

variable {α β : Type} {db : Sqlite} {q : Query} {read : q.Answer → β}

/-- An operation makes no other statement than its own. -/
theorem eq_of_sql_mem_run_statement {ω : ℕ → Input} {w : World} {q' : Query}
    {r : Except SqlxError q'.Answer}
    (h : (⟨.sql q', r⟩ : DoneCall) ∈ ((db.statement q read).run (perform db.ext) ω w).calls) :
    q' = q := by
  let A : (c : Call Query) → Call.Answer Query.Answer c → Prop := fun _ _ => True
  have hobeys : (db.statement q read).Obeys A (fun _ c => ∀ q', c = .sql q' → q' = q)
      (fun _ _ => True) [] := by
    refine Sqlite.obeys_statement ?_ ?_ (fun _ _ _ _ => trivial) (fun _ _ _ _ _ => trivial)
    · rintro past c hc q' rfl
      cases hc
    · rintro new - q' hq
      exact (Call.sql.inj hq).symm
  obtain ⟨before, after, hsplit⟩ := List.append_of_mem h
  exact (hobeys.of_run (fun _ _ _ => trivial) ω w).2 before (.sql q') r after hsplit q' rfl

/-- The statements of a program that makes no attempt: none. -/
theorem not_sql_mem_of_outcomes {calls : List DoneCall} (h : outcomes calls = []) {q' : Query}
    {r : Except SqlxError q'.Answer} : (⟨.sql q', r⟩ : DoneCall) ∉ calls := by
  intro hmem
  have hnone := List.filterMap_eq_nil_iff.mp h _ hmem
  cases r <;> cases hnone

/-- **The statements of an operation followed by a program that makes none**: at least one
attempt of the operation's own, and nothing else. -/
theorem sql_mem_run_statement_passive (hretry : db.retry = LockRetryPolicy.default)
    {f : Except WebhookRepositoryError β → AppAction α} (hf : ∀ result, Passive db.ext (f result))
    (ω : ℕ → Input) (w : World) :
    (∃ a, (((db.statement q read).bind f).run (perform db.ext) ω w).outcome = .done a) ∧
      (∃ r, (⟨.sql q, r⟩ : DoneCall) ∈
        (((db.statement q read).bind f).run (perform db.ext) ω w).calls) ∧
      ∀ q' (r : Except SqlxError q'.Answer),
        (⟨.sql q', r⟩ : DoneCall) ∈
          (((db.statement q read).bind f).run (perform db.ext) ω w).calls → q' = q := by
  have honly : ∀ q' (r : Except SqlxError q'.Answer), (⟨.sql q', r⟩ : DoneCall) ∈
      (((db.statement q read).bind f).run (perform db.ext) ω w).calls → q' = q := by
    intro q' r h
    rw [CallProgram.run_bind] at h
    split at h
    · rename_i result hresult
      rcases List.mem_append.mp h with h | h
      · exact eq_of_sql_mem_run_statement h
      · obtain ⟨_, -, hquiet, -⟩ := hf result _ _
        exact absurd h (not_sql_mem_of_outcomes hquiet)
    · exact eq_of_sql_mem_run_statement h
  obtain ⟨hdone, hends⟩ := run_statement_passive hretry hf ω w
  refine ⟨hdone, ?_, honly⟩
  -- an operation that ended made at least one attempt
  have hattempts :
      outcomes (((db.statement q read).bind f).run (perform db.ext) ω w).calls ≠ [] := by
    rcases hends with ⟨choice, ⟨failed, hfailed⟩, -⟩ | ⟨e, ⟨failed, hfailed⟩, -⟩ <;>
      simp [hfailed]
  obtain ⟨o, ho⟩ := List.exists_mem_of_ne_nil _ hattempts
  obtain ⟨⟨c, r⟩, hmem, hout⟩ := List.mem_filterMap.mp ho
  cases c with
  | sql q' =>
      obtain rfl := honly q' r hmem
      exact ⟨r, hmem⟩
  | _ => cases hout

/-- The execution ended with the statement that records a failure, and made no other. -/
structure FailureStored (now : ℤ) (message : String) (next id : ℤ) (w : World)
    (ex : Executed α) : Prop where
  endsWith : EndsWith (.recordForwardFailure now message next id) w ex
  stored : ∃ r, (⟨.sql (.recordForwardFailure now message next id), r⟩ : DoneCall) ∈ ex.calls
  only : ∀ q' (r : Except SqlxError q'.Answer), (⟨.sql q', r⟩ : DoneCall) ∈ ex.calls →
    q' = .recordForwardFailure now message next id

/-- A call that is no statement comes first. -/
theorem FailureStored.call {ext : External} {now : ℤ} {message : String} {next id : ℤ}
    {c : Call Query} (hc : ∀ q, c ≠ .sql q) {p : Call.Answer Query.Answer c → AppAction α}
    {ω : ℕ → Input} {w : World}
    (h : FailureStored now message next id (perform ext c (ω 0) w).2
      ((p (perform ext c (ω 0) w).1).run (perform ext) (fun n => ω (n + 1))
        (perform ext c (ω 0) w).2)) :
    FailureStored now message next id w ((CallProgram.call c p).run (perform ext) ω w) := by
  refine ⟨h.endsWith.call hc, ?_, fun q' r hr => ?_⟩
  · obtain ⟨r, hr⟩ := h.stored
    exact ⟨r, List.mem_cons_of_mem _ hr⟩
  · rcases List.mem_cons.mp hr with heq | hr
    · exact absurd (congrArg Sigma.fst heq).symm (hc q')
    · exact h.only q' r hr

/-- **A recorded failure** panics when there is no delay, and else comes to its end with one
statement, in which the clock reading and the delay are added up. -/
theorem run_recordFailureThen (hretry : db.retry = LockRetryPolicy.default)
    {backoff : ForwardBackoff} {kind : FailureKind} {attemptsBefore : ℤ}
    {retryAfter : Option Duration} {id : ℤ} {message : String}
    {next : Except WebhookRepositoryError Unit → AppAction α}
    (hnext : ∀ result, Passive db.ext (next result)) (ω : ℕ → Input) (w : World) :
    (nextDelay db.ext.float backoff kind (Prog.addI64 attemptsBefore 1) retryAfter
        (clockJitterUnit db.ext.float (ω 0).nanos) = none ∧
      ∃ m, ((recordFailureThen db backoff kind attemptsBefore retryAfter id message next).run
        (perform db.ext) ω w).outcome = .panicked m) ∨
    ∃ delay, nextDelay db.ext.float backoff kind (Prog.addI64 attemptsBefore 1) retryAfter
        (clockJitterUnit db.ext.float (ω 0).nanos) = some delay ∧
      FailureStored (Prog.asI64 (ω 2).unixSeconds) message
        (Prog.addI64 (Prog.asI64 (ω 1).unixSeconds) (Prog.asI64 delay.asSecs)) id w
        ((recordFailureThen db backoff kind attemptsBefore retryAfter id message next).run
          (perform db.ext) ω w) := by
  unfold recordFailureThen
  cases hdelay : nextDelay db.ext.float backoff kind (Prog.addI64 attemptsBefore 1) retryAfter
      (clockJitterUnit db.ext.float (ω 0).nanos) with
  | none =>
      refine Or.inl ⟨rfl, "cannot convert float seconds to Duration", ?_⟩
      rw [CallProgram.run_call]
      simp only [perform, hdelay, CallProgram.run_panic]
  | some delay =>
      refine Or.inr ⟨delay, rfl, ?_⟩
      -- three clock readings come first, and none of them is an attempt
      apply FailureStored.call (by simp)
      dsimp only [perform]
      rw [hdelay]
      apply FailureStored.call (by simp)
      apply FailureStored.call (by simp)
      obtain ⟨-, hstored, honly⟩ := sql_mem_run_statement_passive hretry hnext _ _
      exact ⟨run_statement_passive hretry hnext _ _, hstored, honly⟩

end Runs

/-! ## The calls of a recorded failure -/

/-- Clock readings, pauses and attempts of one statement. -/
def OnlyAttempts (q : Query) (calls : List DoneCall) : Prop :=
  ∀ d ∈ calls, d.1.isTiming = true ∨ d.1 = .sql q

theorem OnlyFailed.onlyAttempts {q : Query} {calls : List DoneCall} (h : OnlyFailed q calls) :
    OnlyAttempts q calls := by
  intro d hd
  rcases h d hd with htiming | ⟨e, rfl⟩
  · exact Or.inl htiming
  · exact Or.inr rfl

/-- **The rule for a recorded failure**: after the clock readings the failure is stored, with the
delay there is, and the rest follows. -/
theorem obeys_recordFailureThen {α : Type} {db : Sqlite} {backoff : ForwardBackoff}
    {kind : FailureKind} {attemptsBefore : ℤ} {retryAfter : Option Duration} {id : ℤ}
    {message : String} {next : Except WebhookRepositoryError Unit → AppAction α}
    {A : (c : Call Query) → Call.Answer Query.Answer c → Prop}
    {P : List DoneCall → Call Query → Prop} {post : List DoneCall → α → Prop}
    {past : List DoneCall} (htiming : ∀ past c, c.isTiming = true → P past c)
    (hstored : ∀ (nanos : Fin 1000000000) (secs secs' : ℕ) delay,
      nextDelay db.ext.float backoff kind (Prog.addI64 attemptsBefore 1) retryAfter
        (clockJitterUnit db.ext.float nanos) = some delay →
      let q := Query.recordForwardFailure (Prog.asI64 secs') message
        (Prog.addI64 (Prog.asI64 secs) (Prog.asI64 delay.asSecs)) id
      let past' : List DoneCall :=
        ⟨.systemNow, secs'⟩ :: ⟨.systemNow, secs⟩ :: ⟨.subsecNanos, nanos⟩ :: past
      (∀ waiting, OnlyFailed q waiting → P (waiting ++ past') (.sql q)) ∧
        ∀ result waiting, OnlyAttempts q waiting →
          (next result).Obeys A P post (waiting ++ past')) :
    (recordFailureThen db backoff kind attemptsBefore retryAfter id message next).Obeys A P post
      past := by
  unfold recordFailureThen
  refine ⟨htiming _ _ rfl, fun nanos _ => ?_⟩
  dsimp only
  cases hdelay : nextDelay db.ext.float backoff kind (Prog.addI64 attemptsBefore 1) retryAfter
      (clockJitterUnit db.ext.float nanos) with
  | none => trivial
  | some delay =>
      refine ⟨htiming _ _ rfl, fun secs _ => ⟨htiming _ _ rfl, fun secs' _ => ?_⟩⟩
      obtain ⟨hsql, hnext⟩ := hstored nanos secs secs' delay hdelay
      refine Sqlite.obeys_bind_statement htiming hsql ?_ ?_
      · intro waiting a _ hwaiting
        refine hnext _ (⟨.sql _, .ok a⟩ :: waiting) ?_
        exact List.forall_mem_cons.mpr ⟨Or.inr rfl, hwaiting.onlyAttempts⟩
      · intro waiting e hwaiting _
        exact hnext _ waiting hwaiting.onlyAttempts
