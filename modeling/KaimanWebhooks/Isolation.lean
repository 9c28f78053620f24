/-
# What the token of one channel reaches

The rows outside a channel are a frame for every statement that names the channel or the id
of one of its rows, and such a statement answers alike on two tables with the same rows of
the channel.  Every handler called with a channel's token issues only statements of this
kind, unless the id in its path belongs to a webhook of another channel: a DELETE removes
that webhook all the same, and a manual retry tells that it exists.
-/
import KaimanWebhooks.Service

/-! ## Tables split at a channel -/

namespace Table

variable {channel : WebhookChannel} {t t₁ t₂ : Table}

/-- The rows outside a channel. -/
def elsewhere (t : Table) (channel : WebhookChannel) : List Row :=
  t.rows.filter fun r => !r.inChannel channel

theorem mem_elsewhere {r : Row} :
    r ∈ t.elsewhere channel ↔ r ∈ t.rows ∧ r.inChannel channel = false := by
  unfold elsewhere
  rw [List.mem_filter, Bool.not_eq_true']

theorem inChannel_keep (p : Row → Bool) :
    (t.keep p).inChannel channel = (t.inChannel channel).filter p :=
  List.filter_comm ..

/-- Keeping rows by a condition that holds outside the channel leaves the rows there. -/
theorem elsewhere_keep {p : Row → Bool} (h : ∀ r ∈ t.elsewhere channel, p r = true) :
    (t.keep p).elsewhere channel = t.elsewhere channel := by
  show (t.rows.filter p).filter _ = t.rows.filter _
  rw [List.filter_comm]
  exact List.filter_eq_self.mpr h

/-- The rows with an id that no row outside the channel has. -/
theorem filter_id_eq_inChannel {id : ℤ} (h : ∀ r ∈ t.elsewhere channel, r.id ≠ id) :
    (t.rows.filter fun r => r.id = id) = (t.inChannel channel).filter fun r => r.id = id := by
  unfold inChannel
  rw [List.filter_filter]
  refine List.filter_congr fun r hr => ?_
  cases hch : r.inChannel channel with
  | true => simp
  | false => simpa using h r (mem_elsewhere.mpr ⟨hr, hch⟩)

section Update

variable {id : ℤ} {f : Row → Row} (hf : ∀ r, (f r).id = r.id)
  (hchannel : ∀ r, (f r).channel = r.channel)

include hchannel

theorem inChannel_update : (t.update id f hf).inChannel channel =
    (t.inChannel channel).map fun r => if r.id = id then f r else r := by
  show (t.rows.map _).filter _ = (t.rows.filter _).map _
  rw [List.filter_map]
  congr 1
  refine List.filter_congr fun r _ => ?_
  dsimp only [Function.comp_apply]
  split_ifs
  · simp only [Row.inChannel, hchannel]
  · rfl

/-- An update of a row that is not outside the channel leaves the rows there. -/
theorem elsewhere_update (h : ∀ r ∈ t.elsewhere channel, r.id ≠ id) :
    (t.update id f hf).elsewhere channel = t.elsewhere channel := by
  show (t.rows.map _).filter _ = t.rows.filter _
  rw [List.filter_map]
  have hsame : (t.rows.filter fun r => !r.inChannel channel) =
      t.rows.filter ((fun r => !r.inChannel channel) ∘ fun r => if r.id = id then f r else r) := by
    refine List.filter_congr fun r _ => ?_
    dsimp only [Function.comp_apply]
    split_ifs
    · simp only [Row.inChannel, hchannel]
    · rfl
  rw [← hsame]
  exact (List.map_congr_left fun r hr => if_neg (h r hr)).trans (List.map_id _)

end Update

end Table

/-! ## Statements that keep to a channel -/

/-- The statement names the channel, or names the id `bound`. -/
def Query.Owns (channel : WebhookChannel) (bound : Option ℤ) : Query → Prop
  | .readAndDeleteByChannel channel' _ => channel' = channel
  | .listByChannel channel' => channel' = channel
  | .listQueueByChannel channel' => channel' = channel
  | .clearByChannel channel' => channel' = channel
  | .deleteById id => bound = some id
  | .recordForwardFailure _ _ _ id => bound = some id
  | .getById id => bound = some id
  | _ => False

section Statements

variable {channel : WebhookChannel} {bound : Option ℤ} {q : Query} {choice : ScanChoice}
  {t t₁ t₂ : Table}

/-- The id is not one of a row outside the channel. -/
def Table.NotElsewhere (t : Table) (channel : WebhookChannel) (bound : Option ℤ) : Prop :=
  ∀ r ∈ t.elsewhere channel, bound ≠ some r.id

theorem Table.NotElsewhere.ne {id : ℤ} (h : t.NotElsewhere channel (some id)) :
    ∀ r ∈ t.elsewhere channel, r.id ≠ id := by
  intro r hr hid
  exact h r hr (congrArg some hid.symm)

/-- **The frame of a statement that keeps to a channel**: the rows elsewhere. -/
theorem Query.Owns.elsewhere_execute (hq : q.Owns channel bound)
    (hbound : t.NotElsewhere channel bound) :
    (q.execute choice t).2.elsewhere channel = t.elsewhere channel := by
  cases q with
  | readAndDeleteByChannel channel' limit =>
      obtain rfl : channel' = channel := hq
      refine Table.elsewhere_keep fun r hr => ?_
      obtain ⟨hrows, hout⟩ := Table.mem_elsewhere.mp hr
      rw [decide_eq_true_eq]
      intro hpicked
      obtain ⟨r', hr', hid⟩ := List.mem_map.mp hpicked
      obtain ⟨hrows', hin⟩ := List.mem_filter.mp (t.mem_of_mem_picked hr')
      obtain rfl := t.eq_of_id_eq hrows' hrows hid
      rw [hin] at hout
      cases hout
  | clearByChannel channel' =>
      obtain rfl : channel' = channel := hq
      refine Table.elsewhere_keep fun r hr => ?_
      rw [(Table.mem_elsewhere.mp hr).2]
      rfl
  | deleteById id =>
      obtain rfl : bound = some id := hq
      refine Table.elsewhere_keep fun r hr => ?_
      simpa using hbound.ne r hr
  | recordForwardFailure now message next id =>
      obtain rfl : bound = some id := hq
      exact Table.elsewhere_update (Row.failed_id choice.coerce now message next)
        (Row.failed_channel choice.coerce now message next) hbound.ne
  | listByChannel channel' => rfl
  | listQueueByChannel channel' => rfl
  | getById id => rfl
  | insert channel' headers payload receivedAt => exact hq.elim
  | peekOldestDueByChannel channel' now => exact hq.elim
  | countByChannel channel' => exact hq.elim
  | resetForwardAttempts id => exact hq.elim

/-- **Such a statement sees the channel only**: on two tables with the same rows of the
channel it answers alike and leaves the same rows of the channel. -/
theorem Query.Owns.execute_alike (hq : q.Owns channel bound) (choice : ScanChoice)
    (h₁ : t₁.NotElsewhere channel bound) (h₂ : t₂.NotElsewhere channel bound)
    (hsame : t₁.inChannel channel = t₂.inChannel channel) :
    (q.execute choice t₁).1 = (q.execute choice t₂).1 ∧
      (q.execute choice t₁).2.inChannel channel = (q.execute choice t₂).2.inChannel channel := by
  cases q with
  | readAndDeleteByChannel channel' limit =>
      obtain rfl : channel' = channel := hq
      have hpicked : t₁.picked choice channel' limit = t₂.picked choice channel' limit := by
        unfold Table.picked
        rw [hsame]
      simp only [Query.execute, hpicked, Table.inChannel_keep, hsame, and_self]
  | clearByChannel channel' =>
      obtain rfl : channel' = channel := hq
      simp only [Query.execute, Table.inChannel_keep, hsame, and_self]
  | deleteById id =>
      obtain rfl : bound = some id := hq
      simp only [Query.execute, Table.inChannel_keep, hsame, Table.filter_id_eq_inChannel h₁.ne,
        Table.filter_id_eq_inChannel h₂.ne, and_self]
  | recordForwardFailure now message next id =>
      obtain rfl : bound = some id := hq
      have hupdate : ∀ t : Table, ((Query.recordForwardFailure now message next id).execute
          choice t).2.inChannel channel = (t.inChannel channel).map fun r =>
            if r.id = id then r.failed choice.coerce now message next else r := fun t =>
        Table.inChannel_update (Row.failed_id choice.coerce now message next)
          (Row.failed_channel choice.coerce now message next)
      constructor
      · simp only [Query.execute, hsame, Table.filter_id_eq_inChannel h₁.ne,
          Table.filter_id_eq_inChannel h₂.ne]
      · rw [hupdate, hupdate, hsame]
  | listByChannel channel' =>
      obtain rfl : channel' = channel := hq
      simp only [Query.execute, hsame, and_self]
  | listQueueByChannel channel' =>
      obtain rfl : channel' = channel := hq
      simp only [Query.execute, hsame, and_self]
  | getById id =>
      obtain rfl : bound = some id := hq
      refine ⟨?_, hsame⟩
      show t₁.rows.find? _ = t₂.rows.find? _
      rw [← List.head?_filter, ← List.head?_filter, Table.filter_id_eq_inChannel h₁.ne,
        Table.filter_id_eq_inChannel h₂.ne, hsame]
  | insert channel' headers payload receivedAt => exact hq.elim
  | peekOldestDueByChannel channel' now => exact hq.elim
  | countByChannel channel' => exact hq.elim
  | resetForwardAttempts id => exact hq.elim

end Statements

/-! ## Programs that keep to a channel -/

/-- The call issues a statement that keeps to the channel, or uses its status. -/
def Call.Owns (channel : WebhookChannel) (bound : Option ℤ) : Call Query → Prop
  | .sql q => q.Owns channel bound
  | .readStatus channel' => channel' = channel
  | .updateStatus channel' _ => channel' = channel
  | _ => True

/-- Every call the program makes keeps to the channel. -/
def KeepsTo (channel : WebhookChannel) (bound : Option ℤ) {α : Type} (p : AppAction α) : Prop :=
  ∀ past, p.Obeys (fun _ _ => True) (fun _ c => c.Owns channel bound) (fun _ _ => True) past

/-- Two worlds a channel cannot tell apart, with the rows outside the channel given. -/
structure Alike (channel : WebhookChannel) (others₁ others₂ : List Row) (w₁ w₂ : World) : Prop where
  own : w₁.table.inChannel channel = w₂.table.inChannel channel
  status : w₁.statuses channel = w₂.statuses channel
  others₁ : w₁.table.elsewhere channel = others₁
  others₂ : w₂.table.elsewhere channel = others₂

section Programs

variable {channel : WebhookChannel} {bound : Option ℤ} {ext : External} {α β : Type}

/-- The rule for one operation of the adapter. -/
theorem keepsTo_operation {db : Sqlite} {q : Query} {read : q.Answer → β}
    {f : Except WebhookRepositoryError β → AppAction α} (hq : q.Owns channel bound)
    (hf : ∀ result, KeepsTo channel bound (f result)) :
    KeepsTo channel bound ((db.statement q read).bind f) := by
  intro past
  rw [CallProgram.obeys_bind]
  refine Sqlite.obeys_statement (fun _ c hc => ?_) (fun _ _ => hq) (fun _ _ _ _ => hf _ _)
    (fun _ _ _ _ _ => hf _ _)
  cases c <;> trivial

theorem keepsTo_pure (a : α) : KeepsTo channel bound (.pure a : AppAction α) := fun _ => trivial

theorem keepsTo_call {c : Call Query} {next : Call.Answer Query.Answer c → AppAction α}
    (hc : c.Owns channel bound) (hnext : ∀ r, KeepsTo channel bound (next r)) :
    KeepsTo channel bound (.call c next) := fun _ => ⟨hc, fun r _ => hnext r _⟩

theorem keepsTo_orRespond {check : Except HttpResponse β} {next : β → AppAction HttpResponse}
    (h : ∀ b, check = .ok b → KeepsTo channel bound (next b)) :
    KeepsTo channel bound (AppState.orRespond check next) := by
  cases hcheck : check with
  | error response => exact keepsTo_pure response
  | ok b => exact h b hcheck

/-- One call that keeps to the channel, in two worlds the channel cannot tell apart. -/
theorem Alike.after_call {others₁ others₂ : List Row} {w₁ w₂ : World}
    (h : Alike channel others₁ others₂ w₁ w₂) {c : Call Query} (hc : c.Owns channel bound)
    (h₁ : ∀ r ∈ others₁, bound ≠ some r.id) (h₂ : ∀ r ∈ others₂, bound ≠ some r.id) (i : Input) :
    (perform ext c i w₁).1 = (perform ext c i w₂).1 ∧
      Alike channel others₁ others₂ (perform ext c i w₁).2 (perform ext c i w₂).2 := by
  cases c with
  | sql q =>
      have hq : q.Owns channel bound := hc
      have hbound₁ : w₁.table.NotElsewhere channel bound := fun r hr => h₁ r (h.others₁ ▸ hr)
      have hbound₂ : w₂.table.NotElsewhere channel bound := fun r hr => h₂ r (h.others₂ ▸ hr)
      obtain ⟨hanswer, hown⟩ := hq.execute_alike i.choice hbound₁ hbound₂ h.own
      dsimp only [perform]
      cases i.fault with
      | some e => exact ⟨rfl, h⟩
      | none =>
          refine ⟨congrArg Except.ok hanswer, hown, h.status, ?_, ?_⟩
          · exact (hq.elsewhere_execute hbound₁).trans h.others₁
          · exact (hq.elsewhere_execute hbound₂).trans h.others₂
  | readStatus channel' =>
      obtain rfl : channel' = channel := hc
      exact ⟨h.status, h⟩
  | updateStatus channel' update =>
      obtain rfl : channel' = channel := hc
      refine ⟨congrArg Option.isSome h.status, h.own, ?_, h.others₁, h.others₂⟩
      simp only [perform, h.status]
  | instantNow => exact ⟨rfl, h⟩
  | systemNow => exact ⟨rfl, h⟩
  | subsecNanos => exact ⟨rfl, h⟩
  | sleep duration => exact ⟨rfl, h⟩
  | send about request => exact ⟨rfl, h.own, h.status, h.others₁, h.others₂⟩
  | logError record => exact ⟨rfl, h⟩

/-- **Noninterference**: a program that keeps to the channel ends alike in two worlds the
channel cannot tell apart, and leaves two such worlds. -/
theorem KeepsTo.run_alike {p : AppAction α} (hp : KeepsTo channel bound p) (ext : External)
    {others₁ others₂ : List Row} {w₁ w₂ : World} (h : Alike channel others₁ others₂ w₁ w₂)
    (h₁ : ∀ r ∈ others₁, bound ≠ some r.id) (h₂ : ∀ r ∈ others₂, bound ≠ some r.id)
    (ω : ℕ → Input) :
    (p.run (perform ext) ω w₁).outcome = (p.run (perform ext) ω w₂).outcome ∧
      Alike channel others₁ others₂ (p.run (perform ext) ω w₁).state
        (p.run (perform ext) ω w₂).state := by
  have hstep : ∀ (past : List DoneCall) c (i : Input) w₁ w₂, Call.Owns channel bound c →
      Alike channel others₁ others₂ w₁ w₂ → (perform ext c i w₁).1 = (perform ext c i w₂).1 ∧
        Alike channel others₁ others₂ (perform ext c i w₁).2 (perform ext c i w₂).2 :=
    fun _ _ i _ _ hc hrel => hrel.after_call hc h₁ h₂ i
  have hrun := CallProgram.Obeys.run_related (fun _ _ _ => trivial) hstep (hp []) ω h
  exact ⟨hrun.1, hrun.2.2⟩

end Programs

/-- What follows the load of a manual retry names its channel and its webhook only. -/
theorem keepsTo_retry_deliver (ctx : RetryContext) (request : HttpRequest) :
    KeepsTo ctx.channelName (some ctx.webhookId) (ctx.deliver request) := by
  have hrecord : ∀ kind retryAfter message response,
      KeepsTo ctx.channelName (some ctx.webhookId)
        ((ctx.recordFailure kind retryAfter message).bind fun _ =>
          (CallProgram.pure response : AppAction HttpResponse)) := by
    intro kind retryAfter message response
    unfold RetryContext.recordFailure
    simp only [CallProgram.bind_eq, CallProgram.bind_call, CallProgram.bind_pure_left]
    refine keepsTo_call trivial fun nanos => ?_
    cases nextDelay ctx.state.db.ext.float
        (ctx.forwardCfg.resolveBackoff ctx.state.config.forwardBackoff) kind
        (Prog.addI64 ctx.webhook.forwardAttempts 1) retryAfter
        (clockJitterUnit ctx.state.db.ext.float nanos) with
    | none => exact fun _ => trivial
    | some delay =>
        refine keepsTo_call trivial fun _ => keepsTo_call trivial fun _ => ?_
        simp only [CallProgram.bind_pure_left, CallProgram.bind_assoc]
        exact keepsTo_operation rfl fun _ =>
          keepsTo_call trivial fun _ => keepsTo_call rfl fun _ => keepsTo_pure _
  refine keepsTo_call trivial fun answer => ?_
  cases answer with
  | error cause => exact hrecord _ _ _ _
  | ok resp =>
      show KeepsTo _ _ (ctx.onResponse resp)
      unfold RetryContext.onResponse
      dsimp only
      split
      · exact hrecord _ _ _ _
      · simp only [RetryContext.forgetDelivered, CallProgram.bind_eq, CallProgram.bind_assoc]
        exact keepsTo_operation rfl fun _ =>
          keepsTo_call trivial fun _ => keepsTo_call rfl fun _ => keepsTo_pure _

/-! ## The handlers -/

namespace Request

/-- The headers of a request. -/
def headers : Request → HeaderMap
  | .receive _ _ headers _ => headers
  | .poll _ headers => headers
  | .list _ headers => headers
  | .delete _ _ headers => headers
  | .queue _ headers => headers
  | .pause _ headers => headers
  | .resume _ headers => headers
  | .clear _ headers => headers
  | .retry _ _ headers => headers

/-- The request stores a webhook; it carries no token. -/
def isReceive : Request → Bool
  | .receive .. => true
  | _ => false

end Request

namespace AppState

variable (state : AppState)

/-- The request goes to a route that asks for a token, and its token is the one of the
channel. -/
def SentBy (ch : WebhookChannelConfig) (r : Request) : Prop :=
  r.isReceive = false ∧
    (extractBearer r.headers).bind state.config.findChannelByToken = some ch

/-- The id in the path, when the request gets to the statement it is bound to. -/
def boundId : Request → Option ℤ
  | .delete channel id headers => if (state.authorize headers channel).toBool then some id else none
  | .retry channel id headers =>
      if (state.authorize headers channel).toBool ∧ (state.findForwardTarget channel).toBool then
        some id
      else none
  | _ => none

/-- The request names a webhook of another channel. -/
def NamesElsewhere (channel : WebhookChannel) (t : Table) (r : Request) : Prop :=
  ∃ row ∈ t.elsewhere channel, state.boundId r = some row.id

instance (channel : WebhookChannel) (t : Table) (r : Request) :
    Decidable (state.NamesElsewhere channel t r) :=
  inferInstanceAs (Decidable (∃ row ∈ t.elsewhere channel, state.boundId r = some row.id))

section Handlers

variable {state} {ch : WebhookChannelConfig}

/-- A channel's token is let through to the channel's own path only. -/
theorem channel_eq_of_authorize {headers : HeaderMap} {channel : String}
    (htoken : (extractBearer headers).bind state.config.findChannelByToken = some ch)
    (h : state.authorize headers channel = .ok ()) : channel = ch.name := by
  obtain ⟨bearer, hbearer, hfind⟩ := Option.bind_eq_some_iff.mp htoken
  simp only [authorize, hbearer, authorizeChannel, hfind] at h
  by_contra hne
  rw [if_pos (Ne.symm hne)] at h
  cases h

/-- **Every handler keeps to the channel whose token it was called with.** -/
theorem keepsTo_handle {r : Request} (hr : state.SentBy ch r) :
    KeepsTo ch.name (state.boundId r) (state.handle r) := by
  obtain ⟨hreceive, htoken⟩ := hr
  have hauthorized : ∀ {channel : String} {bound : Option ℤ} {next : AppAction HttpResponse},
      (state.authorize r.headers channel = .ok () → channel = ch.name →
        KeepsTo ch.name bound next) →
      KeepsTo ch.name bound (orRespond (state.authorize r.headers channel) fun _ => next) :=
    fun hnext => keepsTo_orRespond fun _ hcheck =>
      hnext hcheck (channel_eq_of_authorize htoken hcheck)
  cases r with
  | receive clientIp channel headers body => cases hreceive
  | poll channel headers =>
      refine hauthorized fun _ hchannel => ?_
      exact keepsTo_operation hchannel fun result => by cases result <;> exact keepsTo_pure _
  | list channel headers =>
      refine hauthorized fun _ hchannel => ?_
      exact keepsTo_operation hchannel fun result => by cases result <;> exact keepsTo_pure _
  | delete channel id headers =>
      refine hauthorized fun hcheck _ => ?_
      have hbound : state.boundId (.delete channel id headers) = some id := by
        simp [boundId, show state.authorize headers channel = .ok () from hcheck, Except.toBool]
      exact keepsTo_operation hbound fun result => by cases result <;> exact keepsTo_pure _
  | queue channel headers =>
      refine hauthorized fun _ hchannel => keepsTo_orRespond fun _ _ => ?_
      refine keepsTo_operation hchannel fun result => ?_
      cases result with
      | error e => exact keepsTo_pure _
      | ok webhooks => exact keepsTo_call hchannel fun _ => keepsTo_pure _
  | pause channel headers =>
      refine hauthorized fun _ hchannel => ?_
      exact keepsTo_call hchannel fun registered => by cases registered <;> exact keepsTo_pure _
  | resume channel headers =>
      refine hauthorized fun _ hchannel => ?_
      exact keepsTo_call hchannel fun registered => by cases registered <;> exact keepsTo_pure _
  | clear channel headers =>
      refine hauthorized fun _ hchannel => keepsTo_operation hchannel fun result => ?_
      cases result with
      | error e => exact keepsTo_pure _
      | ok removed => exact keepsTo_call hchannel fun _ => keepsTo_pure _
  | retry channel id headers =>
      refine hauthorized fun hcheck hchannel => keepsTo_orRespond fun target htarget => ?_
      have hbound : state.boundId (.retry channel id headers) = some id := by
        simp [boundId, show state.authorize headers channel = .ok () from hcheck, htarget,
          Except.toBool]
      unfold loadWebhookToRetry
      simp only [CallProgram.bind_eq, CallProgram.bind_assoc, CallProgram.pure_eq,
        CallProgram.bind_pure_left]
      refine keepsTo_operation hbound fun loaded => keepsTo_orRespond fun webhook _ => ?_
      refine keepsTo_orRespond fun request _ => ?_
      rw [hbound, ← hchannel]
      exact keepsTo_retry_deliver ⟨state, channel, id, webhook, target.1, target.2⟩ request

end Handlers

/-! ## Sequences of requests -/

/-- Serve the requests one after the other: the outcomes and the world they leave.  A panic
ends the service. -/
def serve : List (Request × (ℕ → Input)) → World → List (CallProgram.Outcome HttpResponse) × World
  | [], w => ([], w)
  | (r, ω) :: requests, w =>
      let ex := (state.handle r).run (perform state.db.ext) ω w
      match ex.outcome with
      | .panicked m => ([.panicked m], ex.state)
      | .done response =>
          let tail := serve requests ex.state
          (.done response :: tail.1, tail.2)

/-- None of the requests, when it is served, names a webhook of another channel. -/
def NoneElsewhere (channel : WebhookChannel) : List (Request × (ℕ → Input)) → World → Prop
  | [], _ => True
  | (r, ω) :: requests, w =>
      ¬state.NamesElsewhere channel w.table r ∧
        NoneElsewhere channel requests ((state.handle r).run (perform state.db.ext) ω w).state

section Sequences

variable {state} {ch : WebhookChannelConfig}

/-- Serving requests in two worlds the channel cannot tell apart. -/
theorem serve_alike {requests : List (Request × (ℕ → Input))}
    (hsent : ∀ x ∈ requests, state.SentBy ch x.1) {others₁ others₂ : List Row} {w₁ w₂ : World}
    (h : Alike ch.name others₁ others₂ w₁ w₂) (h₁ : state.NoneElsewhere ch.name requests w₁)
    (h₂ : state.NoneElsewhere ch.name requests w₂) :
    (state.serve requests w₁).1 = (state.serve requests w₂).1 ∧
      Alike ch.name others₁ others₂ (state.serve requests w₁).2 (state.serve requests w₂).2 := by
  induction requests generalizing w₁ w₂ with
  | nil => exact ⟨rfl, h⟩
  | cons x requests ih =>
      obtain ⟨r, ω⟩ := x
      obtain ⟨hfirst₁, hrest₁⟩ := h₁
      obtain ⟨hfirst₂, hrest₂⟩ := h₂
      have hbound₁ : ∀ row ∈ others₁, state.boundId r ≠ some row.id := fun row hrow hid =>
        hfirst₁ ⟨row, h.others₁ ▸ hrow, hid⟩
      have hbound₂ : ∀ row ∈ others₂, state.boundId r ≠ some row.id := fun row hrow hid =>
        hfirst₂ ⟨row, h.others₂ ▸ hrow, hid⟩
      have hkeeps := keepsTo_handle (hsent _ List.mem_cons_self)
      obtain ⟨houtcome, halike⟩ := hkeeps.run_alike state.db.ext h hbound₁ hbound₂ ω
      unfold serve
      dsimp only
      rw [← houtcome]
      cases ((state.handle r).run (perform state.db.ext) ω w₁).outcome with
      | panicked m => exact ⟨rfl, halike⟩
      | done response =>
          obtain ⟨houtcomes, hfinal⟩ :=
            ih (fun x hx => hsent x (List.mem_cons_of_mem _ hx)) halike hrest₁ hrest₂
          exact ⟨congrArg (_ :: ·) houtcomes, hfinal⟩

/-- **Channel isolation.**  Requests with the token of a channel, none of which names a
webhook of another channel when it is served, leave the rows of the other channels as they
are, and are answered alike whatever these rows are. -/
theorem channel_isolation {requests : List (Request × (ℕ → Input))}
    (hsent : ∀ x ∈ requests, state.SentBy ch x.1) {w₁ w₂ : World}
    (h₁ : state.NoneElsewhere ch.name requests w₁) (h₂ : state.NoneElsewhere ch.name requests w₂)
    (hown : w₁.table.inChannel ch.name = w₂.table.inChannel ch.name)
    (hstatus : w₁.statuses ch.name = w₂.statuses ch.name) :
    (state.serve requests w₁).2.table.elsewhere ch.name = w₁.table.elsewhere ch.name ∧
      (state.serve requests w₁).1 = (state.serve requests w₂).1 := by
  obtain ⟨houtcomes, halike⟩ := serve_alike hsent ⟨hown, hstatus, rfl, rfl⟩ h₁ h₂
  exact ⟨halike.others₁, houtcomes⟩

end Sequences

/-! ## Two channels -/

/-- The channel whose token the requests below carry. -/
def ordersChannel : WebhookChannelConfig :=
  ⟨"orders", "orders-token", none, none, .plain, none, none,
    some ⟨"http://target/hook", 60, 200, 15, none, none, none, none⟩, none, none, true, none⟩

/-- A webhook of the channel is stored, and then one of another channel. -/
def ownWorld : World where
  table := Table.empty.insert ⟨.text "orders", .text "\x7b\x7d", .blob [123, 125], .int 1000⟩
  statuses := small.initialStatuses
  wire := []

def sharedWorld : World :=
  { ownWorld with
    table := ownWorld.table.insert ⟨.text "alerts", .text "\x7b\x7d", .blob [123, 125], .int 1001⟩ }

theorem sentBy_delete (id : ℤ) :
    small.SentBy ordersChannel (.delete "orders" id HeaderMap.small) := by
  refine ⟨rfl, ?_⟩
  have hbearer : extractBearer HeaderMap.small = some "orders-token" := by decide +kernel
  show (extractBearer HeaderMap.small).bind _ = _
  rw [hbearer]
  simp [AppConfig.findChannelByToken, small, AppConfig.small, ordersChannel]

/-- A webhook of the channel is deleted: the webhook of the other channel stays, and the answer
is the one a service without it gives. -/
theorem channel_isolation_small :
    let requests := [(Request.delete "orders" 1 HeaderMap.small, fun _ : ℕ => Input.calm 1002 200)]
    (small.serve requests sharedWorld).2.table.elsewhere "orders" =
        sharedWorld.table.elsewhere "orders" ∧
      (small.serve requests sharedWorld).1 = (small.serve requests ownWorld).1 := by
  intro requests
  have hsent : ∀ x ∈ requests, small.SentBy ordersChannel x.1 := by
    intro x hx
    rw [List.mem_singleton.mp hx]
    exact sentBy_delete 1
  refine channel_isolation hsent ⟨?_, trivial⟩ ⟨?_, trivial⟩ ?_ rfl
  · decide +kernel
  · decide +kernel
  · decide +kernel

/-- **A token reaches the webhooks of every channel**: a DELETE removes the webhook its path
names, whatever channel that belongs to. -/
theorem delete_reaches_elsewhere :
    ¬∀ (state : AppState) (ch : WebhookChannelConfig) (requests : List (Request × (ℕ → Input))),
      (∀ x ∈ requests, state.SentBy ch x.1) → ∀ w,
        (state.serve requests w).2.table.elsewhere ch.name = w.table.elsewhere ch.name := by
  intro hclaim
  have hkept := hclaim small ordersChannel
    [(Request.delete "orders" 2 HeaderMap.small, fun _ => Input.calm 1002 200)]
    (fun x hx => List.mem_singleton.mp hx ▸ sentBy_delete 2) sharedWorld
  exact absurd hkept (by decide +kernel)

end AppState
