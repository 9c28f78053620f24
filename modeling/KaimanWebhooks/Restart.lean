/-
# Nothing accepted is lost in a crash

The service may be killed at any moment, in the middle of a delivery or of a request, and started
again on the same database.  The forwarder statuses live in memory: a restart registers them
anew, and a channel that was paused is forwarded again.  The table is all that is left, and it is
enough: over any number of restarts a webhook whose insert succeeded is stored, exactly once and
unchanged, until it leaves in one of the four ways.
-/
import KaimanWebhooks.Lifetimes
import KaimanWebhooks.Retention

/-- The service in its current lifetime. -/
abbrev ServiceLives : Type :=
  Lifetimes (Call Query) (Call.Answer Query.Answer) (Option HttpResponse) Job World

namespace AppState

variable (state : AppState)

/-- What the next process finds: the table, and statuses registered anew. -/
def restarted (w : World) : World := { w with statuses := state.initialStatuses }

/-- The service, started on an empty database and restarted any number of times, has come to
this. -/
def Lives (l : ServiceLives) : Prop :=
  state.machine.Outlives state.restarted (fun _ _ => True) state.initial.shared l

/-- A list of events, and after it the events of the next process. -/
theorem lives_of_runEvents {state : AppState} {s s' : ServiceState} {es es' : List ServiceEvent}
    (h : state.machine.runEvents state.initial es = some s)
    (h' : state.machine.runEvents (.fresh (state.restarted s.shared)) es' = some s') :
    state.Lives ⟨[s.history], state.restarted s.shared, s'⟩ ∧
      Lifetimes.history ⟨[s.history], state.restarted s.shared, s'⟩ = s'.history ++ s.history := by
  have hfirst : state.machine.Reaches (fun _ _ => True) (.fresh state.initial.shared) s :=
    TaskMachine.reaches_of_runEvents h fun _ _ _ => trivial
  refine ⟨.again (.first hfirst) (TaskMachine.reaches_of_runEvents h' fun _ _ _ => trivial), ?_⟩
  simp [Lifetimes.history]

/-! ## An account of the table -/

/-- A history that accounts for the table it led to, whatever processes made its calls. -/
structure Accounted (s : ServiceState) : Prop where
  ledger : Ledger s
  permitted : ∀ e ∈ s.history, ∃ past, state.Protocol e.job past e.call ∧
    ∀ d ∈ past, ∃ e' ∈ s.history, e'.task = e.task ∧ e'.job = e.job ∧ e'.done = d
  performed : ∀ e ∈ s.history, Performed state.db.ext e
  found : ∀ e ∈ s.history, ∀ r ∈ e.before.table.rows,
    (r.id, r.content) ∈ storedRows s ∧ r.WellTyped

/-- A history that tells of the webhook stored under an id: every row that was found with the id
had this content. -/
structure Traced (id : ℤ) (c : Content) (s : ServiceState) : Prop where
  permitted : ∀ e ∈ s.history, ∃ past, state.Protocol e.job past e.call ∧
    ∀ d ∈ past, ∃ e' ∈ s.history, e'.task = e.task ∧ e'.job = e.job ∧ e'.done = d
  performed : ∀ e ∈ s.history, Performed state.db.ext e
  found : ∀ e ∈ s.history, ∀ r ∈ e.before.table.rows, r.WellTyped ∧ (r.id = id → r.content = c)

section Trace

variable {state : AppState} {s : ServiceState} {id : ℤ} {c : Content}

/-- A webhook that was sent had been read from a row some call of the history found. -/
theorem exists_found_of_sent
    (hpermitted : ∀ e ∈ s.history, ∃ past, state.Protocol e.job past e.call ∧
      ∀ d ∈ past, ∃ e' ∈ s.history, e'.task = e.task ∧ e'.job = e.job ∧ e'.done = d)
    (hperformed : ∀ e ∈ s.history, Performed state.db.ext e) {e : ServiceEntry}
    (he : e ∈ s.history) {webhook : Webhook} {request : HttpRequest} {answer : PeerAnswer}
    (hdone : e.done = (⟨.send (some webhook) request, answer⟩ : DoneCall)) :
    Posts webhook request ∧ ∃ e' ∈ s.history, ∃ row ∈ e'.before.table.rows,
      parseWebhookRow state.db.ext row = some webhook := by
  obtain ⟨past, hprotocol, hpast⟩ := hpermitted e he
  have hcall : e.call = .send (some webhook) request := congrArg Sigma.fst hdone
  rw [hcall] at hprotocol
  obtain ⟨-, webhook', hwebhook, hposts, d, hd, row, hrow, hparse⟩ := hprotocol
  obtain rfl : webhook = webhook' := Option.some.inj hwebhook
  obtain ⟨e', he', -, -, rfl⟩ := hpast d hd
  exact ⟨hposts, e', he', row, (hperformed e' he').mem_of_loadedRow hrow, hparse⟩

/-- Whatever took the traced row is one of the four ways a webhook may leave. -/
theorem Traced.exists_left (h : state.Traced id c s) {accepted : Webhook}
    (hkept : ∀ row webhook, row.content = c → parseWebhookRow state.db.ext row = some webhook →
      KeptAs state.db.ext accepted webhook) {e : ServiceEntry} (he : e ∈ s.history)
    (htook : TookRow e id c) : ∃ e' ∈ s.history, state.Left id accepted e' := by
  obtain ⟨q, a, hdone, row, hrow, hid, hcontent, htakes⟩ := htook
  obtain ⟨webhook, hread⟩ := (h.found e he row hrow).1.exists_webhook state.db.ext
  have hrowKept := hkept row webhook hcontent hread
  obtain ⟨past, hprotocol, hpast⟩ := h.permitted e he
  have hcall : e.call = .sql q := congrArg Sigma.fst hdone
  rw [hcall] at hprotocol
  cases q with
  | readAndDeleteByChannel channel limit =>
      obtain ⟨rfl, headers, hjob⟩ := hprotocol
      have hwebhook : webhook.id = some id := by rw [(parseWebhookRow_eq_some hread).1, hid]
      exact ⟨e, he,
        .polled hjob hdone (List.mem_filterMap.mpr ⟨row, htakes, hread⟩) hwebhook hrowKept⟩
  | deleteById id' =>
      obtain rfl : id = id' := hid.symm.trans htakes
      rcases hprotocol with ⟨channel, headers, hjob⟩ | ⟨d, hd, haccepted⟩
      · exact ⟨e, he, .deleted hjob hdone⟩
      · -- the delivery was made in the lifetime of the delete, from a row found in any of them
        obtain ⟨e', he', -, hjob, rfl⟩ := hpast d hd
        obtain ⟨sent, request, resp, fwd, hsent, hsentId, htarget, hstatus⟩ :=
          exists_send_of_accepted haccepted
        obtain ⟨hposts, e'', he'', loaded, hloaded, hparse⟩ :=
          exists_found_of_sent h.permitted h.performed he' hsent
        have hsame := (h.found e'' he'' loaded hloaded).2 (id_of_parseWebhookRow hparse hsentId)
        exact ⟨e', he', .delivered hsent hposts hsentId (hkept loaded sent hsame hparse)
          (hjob ▸ htarget) hstatus⟩
  | clearByChannel channel =>
      obtain ⟨headers, hjob⟩ := hprotocol
      have hchannel : row.channel = .text channel := by
        simpa [Query.Takes, Row.inChannel] using htakes
      obtain rfl : channel = accepted.channel :=
        (SqlValue.text.inj (hchannel.symm.trans (parseWebhookRow_eq_some hread).2.1)).trans
          hrowKept.1
      exact ⟨e, he, .cleared hjob hdone hrow hid hread hrowKept⟩
  | _ => exact htakes.elim

end Trace

section Account

variable {state : AppState} {s : ServiceState} (h : state.Accounted s)

include h

/-- A webhook that was sent had been read from a stored row. -/
theorem Accounted.exists_row_of_sent {e : ServiceEntry} (he : e ∈ s.history) {webhook : Webhook}
    {request : HttpRequest} {answer : PeerAnswer}
    (hdone : e.done = (⟨.send (some webhook) request, answer⟩ : DoneCall)) :
    Posts webhook request ∧ ∃ row : Row, parseWebhookRow state.db.ext row = some webhook ∧
      (row.id, row.content) ∈ storedRows s := by
  obtain ⟨hposts, e', he', row, hrow, hparse⟩ :=
    exists_found_of_sent h.permitted h.performed he hdone
  exact ⟨hposts, row, hparse, (h.found e' he' row hrow).1⟩

/-- What a successful insert stored is the webhook of its receive request. -/
theorem Accounted.receivedBy_of_stored {e : ServiceEntry} (he : e ∈ s.history)
    {channel json : String} {payload : Bytes} {receivedAt id : ℤ}
    (hdone : e.done = (⟨.sql (.insert channel json payload receivedAt), .ok id⟩ : DoneCall)) :
    ∃ accepted, state.ReceivedBy e.job accepted receivedAt ∧
      (id, contentOf state accepted) ∈ storedRows s := by
  obtain ⟨past, hprotocol, -⟩ := h.permitted e he
  have hcall : e.call = .sql (.insert channel json payload receivedAt) := congrArg Sigma.fst hdone
  rw [hcall] at hprotocol
  obtain ⟨clientIp, headers, hjob, rfl⟩ := hprotocol
  refine ⟨_, ⟨clientIp, channel, headers, payload, hjob, rfl⟩, List.mem_filterMap.mpr ⟨e, he, ?_⟩⟩
  rw [hdone]
  rfl

/-- The history tells of every webhook that was stored. -/
theorem Accounted.traced {id : ℤ} {c : Content} (hstored : (id, c) ∈ storedRows s) :
    state.Traced id c s where
  permitted := h.permitted
  performed := h.performed
  found := fun e he r hr => by
    obtain ⟨hrow, htyped⟩ := h.found e he r hr
    exact ⟨htyped, fun hid => h.ledger.content_eq (hid ▸ hrow) hstored⟩

/-- **A stored webhook is there until it left.** -/
theorem Accounted.isStored_or_left {id : ℤ} {accepted : Webhook}
    (hstored : (id, contentOf state accepted) ∈ storedRows s) :
    state.IsStored s id accepted ∨ ∃ e ∈ s.history, state.Left id accepted e := by
  rcases h.ledger.kept _ hstored with ⟨row, hrow, hid, hcontent⟩ | ⟨e, he, htook⟩
  · left
    obtain ⟨webhook, hread⟩ := (h.ledger.wellTyped row hrow).exists_webhook state.db.ext
    exact ⟨row, webhook, Table.filter_id_eq hrow hid, hread, keptAs_of_content hcontent hread⟩
  · exact Or.inr ((h.traced hstored).exists_left (fun _ _ => keptAs_of_content) he htook)

end Account

/-! ## Lifetimes -/

section Lives

variable {state : AppState} {l : ServiceLives} (h : state.Lives l)

include h

/-- The ledger runs on through restarts. -/
theorem Lives.ledger : Ledger l.whole := by
  refine TaskMachine.Outlives.invariant
    (fun older s => Ledger ⟨s.shared, s.tasks, s.history ++ older⟩) h ledger_initial ?_ ?_ ?_
  · exact fun older s hs => { hs with }
  · exact fun older s j hs _ _ => { hs with }
  · intro older s n i t c k hs _ _ _
    have hperformed : Performed state.db.ext (state.machine.entry s n t c i) := ⟨i, rfl⟩
    exact hs.cons hperformed rfl rfl rfl

/-- **The calls of all lifetimes account for the table.** -/
theorem Lives.accounted : state.Accounted l.whole where
  ledger := h.ledger
  permitted := fun e he => TaskMachine.Outlives.protocol_of_mem h start_obeys he
  performed := fun e he => by
    obtain ⟨-, -, -, -, -, i, hperform⟩ := TaskMachine.Outlives.exists_madeIn h he
    exact ⟨i, hperform⟩
  found := fun e he r hr => by
    obtain ⟨l', newer, hl', hhistory, hbefore, -⟩ := TaskMachine.Outlives.exists_madeIn h he
    have hledger : Ledger l'.whole := Lives.ledger hl'
    rw [← hbefore] at hr
    refine ⟨?_, hledger.wellTyped r hr⟩
    have hstored := hledger.stored r hr
    show (r.id, r.content) ∈ l.history.filterMap fun e => storedRow e.done
    rw [hhistory, List.filterMap_append, List.filterMap_cons]
    refine List.mem_append_right _ ?_
    cases storedRow e.done with
    | none => exact hstored
    | some p => exact List.mem_cons_of_mem _ hstored

end Lives

/-- **Nothing accepted is lost in a crash.**  However often the service was killed and started
again, a webhook whose insert succeeded in any of its lifetimes is stored exactly once and
unchanged, or it left in one of the four ways. -/
theorem nothing_is_lost_in_a_crash (state : AppState) {l : ServiceLives} (h : state.Lives l)
    {e : ServiceEntry} (he : e ∈ l.history) {channel json : String} {payload : Bytes}
    {receivedAt id : ℤ}
    (hdone : e.done = (⟨.sql (.insert channel json payload receivedAt), .ok id⟩ : DoneCall)) :
    ∃ accepted, state.ReceivedBy e.job accepted receivedAt ∧
      (state.IsStored l.current id accepted ∨ ∃ e' ∈ l.history, state.Left id accepted e') := by
  obtain ⟨accepted, hreceived, hstored⟩ := h.accounted.receivedBy_of_stored he hdone
  exact ⟨accepted, hreceived, h.accounted.isStored_or_left hstored⟩

/-- A webhook is received, and a pass sends it and is killed before it can delete the row. -/
def killedRun : List ServiceEvent :=
  ServiceEvent.task (.request .small) 0 (List.replicate 3 (Input.calm 1000 200)) ++
    ServiceEvent.task (.refresh 0) 1 (List.replicate 3 (Input.calm 1000 200)) ++
    ServiceEvent.task (.cycle 0) 2 (List.replicate 5 (Input.calm 1000 200))

/-- The process is killed after its target has the webhook and before the row is deleted: the
next process finds the webhook stored. -/
theorem nothing_is_lost_in_a_crash_small :
    ∃ l : ServiceLives, small.Lives l ∧ l.restarts = 1 ∧
      (storedRows l.whole).map Prod.fst = [1] ∧
      l.current.shared.table.rows.map Row.id = [1] ∧
      ∀ e ∈ l.history, ∀ channel json payload receivedAt, ∀ id : ℤ,
        e.done = (⟨.sql (.insert channel json payload receivedAt), .ok id⟩ : DoneCall) →
          ∃ accepted, small.ReceivedBy e.job accepted receivedAt ∧
            (small.IsStored l.current id accepted ∨
              ∃ e' ∈ l.history, small.Left id accepted e') := by
  have hrun : ∃ s, small.machine.runEvents small.initial killedRun = some s ∧
      (storedRows s).map Prod.fst = [1] ∧ s.shared.table.rows.map Row.id = [1] := by
    decide +kernel
  obtain ⟨s, hs, hstored, hrows⟩ := hrun
  have hreaches : small.machine.Reaches (fun _ _ => True) (.fresh small.initial.shared) s :=
    TaskMachine.reaches_of_runEvents hs fun _ _ _ => trivial
  have hlives : small.Lives
      ⟨[s.history], small.restarted s.shared, .fresh (small.restarted s.shared)⟩ :=
    .again (.first hreaches) .refl
  refine ⟨_, hlives, rfl, ?_, hrows, ?_⟩
  · simpa [storedRows, Lifetimes.whole, Lifetimes.history, TaskSystem.fresh] using hstored
  · intro e he channel json payload receivedAt id hdone
    exact nothing_is_lost_in_a_crash small hlives he hdone

end AppState
