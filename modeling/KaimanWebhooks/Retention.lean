/-
# Nothing accepted is lost

A webhook whose insert succeeded is stored, under its own id and with everything it was
accepted with, until a target accepts it, a poll hands it out, a request deletes it or its
channel is cleared.  Between the moment a delivery task loads a webhook and the moment it
deletes or parks it anything may happen to the row; the statements it issues then still
reach no other webhook, since no id is given out twice.
-/
import KaimanWebhooks.Ledger

/-- The JSON codec gives a map back, up to the order of its entries. -/
def External.RoundTrips (ext : External) (m : StringMap) : Prop :=
  ∃ json m', ext.encodeHeaders m = .ok json ∧ ext.decodeHeaders json = .ok m' ∧ m.SameEntries m'

/-- The webhook read back has the channel, the payload, the time of receipt and — as far as
the codec round-trips them — the headers of the accepted one. -/
def KeptAs (ext : External) (accepted webhook : Webhook) : Prop :=
  webhook.channel = accepted.channel ∧ webhook.payload = accepted.payload ∧
    webhook.receivedAt = accepted.receivedAt ∧
    (ext.RoundTrips accepted.headers → accepted.headers.SameEntries webhook.headers)

namespace AppState

variable (state : AppState)

/-- The webhook a receive request stores, received at the time given. -/
def ReceivedBy (job : Job) (accepted : Webhook) (receivedAt : ℤ) : Prop :=
  ∃ clientIp channel headers body, job = .request (.receive clientIp channel headers body) ∧
    accepted = Webhook.new channel (state.forwardedHeaders headers) body receivedAt

/-- Exactly one row has the id, and it reads back as the accepted webhook. -/
def IsStored (s : ServiceState) (id : ℤ) (accepted : Webhook) : Prop :=
  ∃ row webhook, (s.shared.table.rows.filter fun r => r.id = id) = [row] ∧
    parseWebhookRow state.db.ext row = some webhook ∧ KeptAs state.db.ext accepted webhook

/-- The ways the webhook stored under an id may leave the queue, by the entry of the history
that witnesses it. -/
inductive Left (id : ℤ) (accepted : Webhook) (e : ServiceEntry) : Prop where
  /-- a request built from it was answered with the expected status -/
  | delivered {webhook : Webhook} {request : HttpRequest} {resp : WireResponse}
      {fwd : WebhookForwardConfig}
      (call : e.done = (⟨.send (some webhook) request, .ok resp⟩ : DoneCall))
      (built : Posts webhook request)
      (ofId : webhook.id = some id) (kept : KeptAs state.db.ext accepted webhook)
      (target : state.target e.job = some fwd) (status : resp.status = fwd.expectedStatus)
  /-- a poll returned it -/
  | polled {channel : WebhookChannel} {headers : HeaderMap} {rows : List Row} {webhook : Webhook}
      (job : e.job = .request (.poll channel headers))
      (call : e.done =
        (⟨.sql (.readAndDeleteByChannel channel Sqlite.readLimit), .ok rows⟩ : DoneCall))
      (returned : webhook ∈ rows.filterMap (parseWebhookRow state.db.ext))
      (ofId : webhook.id = some id) (kept : KeptAs state.db.ext accepted webhook)
  /-- a DELETE request named its id -/
  | deleted {channel : WebhookChannel} {headers : HeaderMap} {affected : ℕ}
      (job : e.job = .request (.delete channel id headers))
      (call : e.done = (⟨.sql (.deleteById id), .ok affected⟩ : DoneCall))
  /-- its channel was cleared while it was stored -/
  | cleared {headers : HeaderMap} {affected : ℕ} {row : Row} {webhook : Webhook}
      (job : e.job = .request (.clear accepted.channel headers))
      (call : e.done = (⟨.sql (.clearByChannel accepted.channel), .ok affected⟩ : DoneCall))
      (stored : row ∈ e.before.table.rows) (ofId : row.id = id)
      (read : parseWebhookRow state.db.ext row = some webhook)
      (kept : KeptAs state.db.ext accepted webhook)

/-- The entry settles an attempt to deliver the webhook with this id: it deletes the row
without a DELETE request having asked for it, or it records a failure. -/
def SettlesAttempt (id : ℤ) (e : ServiceEntry) : Prop :=
  (e.call = .sql (.deleteById id) ∧
    ∀ channel headers, e.job ≠ .request (.delete channel id headers)) ∨
  ∃ now message next, e.call = .sql (.recordForwardFailure now message next id)

section Retention

variable {state : AppState}

/-- The content an accepted webhook is stored with. -/
def contentOf (state : AppState) (accepted : Webhook) : Content :=
  ⟨.text accepted.channel, .text (state.db.headersJson accepted.headers), .blob accepted.payload,
    .int accepted.receivedAt⟩

/-- A row with the content of an accepted webhook reads back as that webhook. -/
theorem keptAs_of_content {accepted webhook : Webhook} {row : Row}
    (hcontent : row.content = contentOf state accepted)
    (hparse : parseWebhookRow state.db.ext row = some webhook) :
    KeptAs state.db.ext accepted webhook := by
  obtain ⟨-, hchannel, ⟨json, hjson, hheaders⟩, hpayload, hreceived, -⟩ :=
    parseWebhookRow_eq_some hparse
  simp only [Row.content, contentOf, Content.mk.injEq] at hcontent
  obtain ⟨hc, hh, hp, hr⟩ := hcontent
  rw [hchannel, SqlValue.text.injEq] at hc
  rw [hjson, SqlValue.text.injEq] at hh
  rw [hp, decodeBytes, Except.ok.injEq] at hpayload
  rw [hreceived, SqlValue.int.injEq] at hr
  refine ⟨hc, hpayload.symm, hr, ?_⟩
  rintro ⟨json', m', hencode, hdecode, hsame⟩
  rw [Sqlite.headersJson, hencode] at hh
  rw [hheaders, hh, hdecode]
  exact hsame

variable {ok : ServiceState → ServiceEvent → Prop} {s : ServiceState}
  (h : state.machine.Reaches ok state.initial s)

include h

/-- **What a successful insert stored**: the webhook of the receive request it belongs to. -/
theorem receivedBy_of_stored {e : ServiceEntry} (he : e ∈ s.history) {id : ℤ} {c : Content}
    (hstored : storedRow e.done = some (id, c)) :
    ∃ accepted receivedAt, state.ReceivedBy e.job accepted receivedAt ∧
      c = contentOf state accepted := by
  obtain ⟨channel, json, payload, receivedAt, hdone, hc⟩ := exists_sql_of_storedRow hstored
  obtain ⟨past, hprotocol, -⟩ := protocol_of_mem_history h he
  have hcall : e.call = .sql (.insert channel json payload receivedAt) := congrArg Sigma.fst hdone
  rw [hcall] at hprotocol
  obtain ⟨clientIp, headers, hjob, hjson⟩ := hprotocol
  refine ⟨_, receivedAt, ⟨clientIp, channel, headers, payload, hjob, rfl⟩, ?_⟩
  refine hc.trans ?_
  rw [hjson]
  rfl

/-- **Whatever took a stored row out of the table** is one of the four ways. -/
theorem exists_left_of_tookRow {e : ServiceEntry} (he : e ∈ s.history) {id : ℤ}
    {accepted : Webhook} (hstored : (id, contentOf state accepted) ∈ storedRows s)
    (htook : TookRow e id (contentOf state accepted)) :
    ∃ e' ∈ s.history, state.Left id accepted e' := by
  obtain ⟨q, a, hdone, row, hrow, hid, hcontent, htakes⟩ := htook
  obtain ⟨-, htyped⟩ := stored_of_mem_before h he hrow
  obtain ⟨webhook, hread⟩ := htyped.exists_webhook state.db.ext
  have hkept := keptAs_of_content hcontent hread
  have hwebhook : webhook.id = some id := by rw [(parseWebhookRow_eq_some hread).1, hid]
  obtain ⟨past, hprotocol, hpast⟩ := protocol_of_mem_history h he
  have hcall : e.call = .sql q := congrArg Sigma.fst hdone
  rw [hcall] at hprotocol
  cases q with
  | readAndDeleteByChannel channel limit =>
      obtain ⟨rfl, headers, hjob⟩ := hprotocol
      exact ⟨e, he, .polled hjob hdone (List.mem_filterMap.mpr ⟨row, htakes, hread⟩) hwebhook hkept⟩
  | deleteById id' =>
      obtain rfl : id = id' := hid.symm.trans htakes
      rcases hprotocol with ⟨channel, headers, hjob⟩ | ⟨d, hd, haccepted⟩
      · exact ⟨e, he, .deleted hjob hdone⟩
      · -- the delete follows an accepted attempt, whose webhook was read from this very row
        obtain ⟨e', he', -, hjob, rfl⟩ := hpast d hd
        obtain ⟨sent, request, resp, fwd, hsent, hsentId, htarget, hstatus⟩ :=
          exists_send_of_accepted haccepted
        obtain ⟨webhook', hwebhook', hposts, loaded, hparse, hloaded⟩ :=
          exists_row_of_sent h he' hsent
        obtain rfl : sent = webhook' := Option.some.inj hwebhook'
        have hloadedId : loaded.id = id := id_of_parseWebhookRow hparse hsentId
        rw [hloadedId] at hloaded
        have hsame := (ledger_of_reaches h).content_eq hloaded hstored
        exact ⟨e', he', .delivered hsent hposts hsentId (keptAs_of_content hsame hparse)
          (hjob ▸ htarget) hstatus⟩
  | clearByChannel channel =>
      obtain ⟨headers, hjob⟩ := hprotocol
      have hchannel : channel = accepted.channel := by
        have hc : row.channel = .text accepted.channel := congrArg Content.channel hcontent
        have htakes' : row.channel = .text channel := by
          simpa [Query.Takes, Row.inChannel] using htakes
        exact SqlValue.text.inj (htakes'.symm.trans hc)
      subst hchannel
      exact ⟨e, he, .cleared hjob hdone hrow hid hread hkept⟩
  | _ => exact htakes.elim

/-- **A stored webhook is there until it left.** -/
theorem isStored_or_left {id : ℤ} {accepted : Webhook}
    (hstored : (id, contentOf state accepted) ∈ storedRows s) :
    state.IsStored s id accepted ∨ ∃ e ∈ s.history, state.Left id accepted e := by
  have hledger := ledger_of_reaches h
  rcases hledger.kept _ hstored with ⟨row, hrow, hid, hcontent⟩ | ⟨e, he, htook⟩
  · left
    obtain ⟨webhook, hread⟩ := (hledger.wellTyped row hrow).exists_webhook state.db.ext
    refine ⟨row, webhook, ?_, hread, keptAs_of_content hcontent hread⟩
    exact Table.filter_id_eq hrow hid
  · exact Or.inr (exists_left_of_tookRow h he hstored htook)

/-- **A late delete or failure record reaches no other webhook** than the one its task had
sent. -/
theorem settles_only_sent {e : ServiceEntry} (he : e ∈ s.history) {id : ℤ}
    (hsettles : SettlesAttempt id e) :
    ∃ webhook loaded,
      (∃ e' ∈ s.history, e'.task = e.task ∧
        ∃ request answer, e'.done = (⟨.send (some webhook) request, answer⟩ : DoneCall)) ∧
      parseWebhookRow state.db.ext loaded = some webhook ∧ loaded.id = id ∧
      ∀ r ∈ e.before.table.rows, r ∈ e.after.table.rows ∨ Query.SameWebhook loaded r := by
  obtain ⟨past, hprotocol, hpast⟩ := protocol_of_mem_history h he
  -- both kinds of statement presuppose a send of the webhook with this id
  have hsent : ∃ d ∈ past, ∃ webhook request answer,
      d = (⟨.send (some webhook) request, answer⟩ : DoneCall) ∧ webhook.id = some id := by
    rcases hsettles with ⟨hcall, hjob⟩ | ⟨now, message, next, hcall⟩
    · rw [hcall] at hprotocol
      rcases hprotocol with ⟨channel, headers, hjob'⟩ | ⟨d, hd, haccepted⟩
      · exact absurd hjob' (hjob channel headers)
      · obtain ⟨webhook, request, resp, fwd, hd', hid, -⟩ := exists_send_of_accepted haccepted
        exact ⟨d, hd, webhook, request, .ok resp, hd', hid⟩
    · rw [hcall] at hprotocol
      obtain ⟨⟨d, hd, hattempted⟩, -⟩ := hprotocol
      obtain ⟨webhook, request, answer, hd', hid⟩ := exists_send_of_attempted hattempted
      exact ⟨d, hd, webhook, request, answer, hd', hid⟩
  obtain ⟨d, hd, webhook, request, answer, rfl, hid⟩ := hsent
  obtain ⟨e', he', htask, -, hdone⟩ := hpast _ hd
  obtain ⟨webhook', hwebhook', -, loaded, hparse, hloaded⟩ := exists_row_of_sent h he' hdone
  obtain rfl : webhook = webhook' := Option.some.inj hwebhook'
  have hloadedId : loaded.id = id := id_of_parseWebhookRow hparse hid
  refine ⟨webhook, loaded, ⟨e', he', htask, request, answer, hdone⟩, hparse, hloadedId, ?_⟩
  intro r hr
  by_cases hrid : r.id = id
  · right
    have hstored := (stored_of_mem_before h he hr).1
    rw [hrid] at hstored
    rw [hloadedId] at hloaded
    exact ⟨hrid.trans hloadedId.symm, (ledger_of_reaches h).content_eq hstored hloaded⟩
  · left
    refine (performed_of_mem_history h he).mem_after_of_id_ne ?_ hr hrid
    rcases hsettles with ⟨hcall, -⟩ | ⟨now, message, next, hcall⟩
    · exact Or.inl hcall
    · exact Or.inr ⟨now, message, next, hcall⟩

end Retention

/-- **Nothing accepted is lost.**  In every state of every run, a webhook whose insert
succeeded is stored exactly once and unchanged, or it left in one of the four ways; and a
delete or a failure record that settles an attempt touches no webhook but the one that was
attempted. -/
theorem nothing_accepted_is_lost (state : AppState) {s : ServiceState}
    (h : state.machine.Reaches (fun _ _ => True) state.initial s) :
    (∀ e ∈ s.history, ∀ channel json payload receivedAt, ∀ id : ℤ,
      e.done = (⟨.sql (.insert channel json payload receivedAt), .ok id⟩ : DoneCall) →
        ∃ accepted, state.ReceivedBy e.job accepted receivedAt ∧
          (state.IsStored s id accepted ∨ ∃ e' ∈ s.history, state.Left id accepted e')) ∧
    ∀ e ∈ s.history, ∀ id, SettlesAttempt id e →
      ∃ webhook loaded,
        (∃ e' ∈ s.history, e'.task = e.task ∧
          ∃ request answer, e'.done = (⟨.send (some webhook) request, answer⟩ : DoneCall)) ∧
        parseWebhookRow state.db.ext loaded = some webhook ∧ loaded.id = id ∧
        ∀ r ∈ e.before.table.rows, r ∈ e.after.table.rows ∨ Query.SameWebhook loaded r := by
  refine ⟨?_, fun e he id hsettles => settles_only_sent h he hsettles⟩
  intro e he channel json payload receivedAt id hdone
  have hstored : storedRow e.done =
      some (id, ⟨.text channel, .text json, .blob payload, .int receivedAt⟩) := by rw [hdone]; rfl
  obtain ⟨accepted, receivedAt', hreceived, hcontent⟩ := receivedBy_of_stored h he hstored
  have hmem : (id, contentOf state accepted) ∈ storedRows s :=
    List.mem_filterMap.mpr ⟨e, he, hcontent ▸ hstored⟩
  obtain rfl : receivedAt = receivedAt' := by
    obtain ⟨_, _, _, _, -, haccepted⟩ := hreceived
    have hr := congrArg Content.receivedAt hcontent
    rw [haccepted] at hr
    exact SqlValue.int.inj hr
  exact ⟨accepted, hreceived, isStored_or_left h hmem⟩

/-- The first webhook is delivered, the second deleted, the third polled; the fourth is refused
by the target and then cleared away; the fifth stays. -/
def leavingEvents : List ServiceEvent :=
  ServiceEvent.task (.request .small) 0 (List.replicate 3 (Input.calm 1000 200)) ++
    ServiceEvent.task (.refresh 0) 1 (List.replicate 3 (Input.calm 1001 200)) ++
    ServiceEvent.task (.cycle 0) 2 (List.replicate 9 (Input.calm 1002 200)) ++
    ServiceEvent.task (.request .small) 3 (List.replicate 3 (Input.calm 1100 200)) ++
    ServiceEvent.task (.request (.delete "orders" 2 .small)) 4
      (List.replicate 2 (Input.calm 1101 200)) ++
    ServiceEvent.task (.request .small) 5 (List.replicate 3 (Input.calm 1102 200)) ++
    ServiceEvent.task (.request (.poll "orders" .small)) 6
      (List.replicate 2 (Input.calm 1103 200)) ++
    ServiceEvent.task (.request .small) 7 (List.replicate 3 (Input.calm 1104 200)) ++
    ServiceEvent.task (.cycle 0) 8 (List.replicate 13 (Input.calm 1105 500)) ++
    ServiceEvent.task (.request (.clear "orders" .small)) 9
      (List.replicate 3 (Input.calm 1200 200)) ++
    ServiceEvent.task (.request .small) 10 (List.replicate 3 (Input.calm 1201 200))

/-- The ids the passes deleted or recorded a failure of, newest first. -/
def settledByPasses (s : ServiceState) : List ℤ :=
  s.history.filterMap fun e =>
    match e.job, e.call with
    | .cycle _, .sql (.deleteById id) => some id
    | .cycle _, .sql (.recordForwardFailure _ _ _ id) => some id
    | _, _ => none

/-- Five webhooks are stored and four of them leave, each in its own way; two attempts of passes
are settled on the way. -/
theorem nothing_accepted_is_lost_small :
    ∃ s : ServiceState, (storedRows s).map Prod.fst = [5, 4, 3, 2, 1] ∧
      s.shared.table.rows.map Row.id = [5] ∧ settledByPasses s = [4, 1] ∧
      (∀ e ∈ s.history, ∀ channel json payload receivedAt, ∀ id : ℤ,
        e.done = (⟨.sql (.insert channel json payload receivedAt), .ok id⟩ : DoneCall) →
          ∃ accepted, small.ReceivedBy e.job accepted receivedAt ∧
            (small.IsStored s id accepted ∨ ∃ e' ∈ s.history, small.Left id accepted e')) ∧
      ∀ e ∈ s.history, ∀ id, SettlesAttempt id e →
        ∃ webhook loaded,
          (∃ e' ∈ s.history, e'.task = e.task ∧
            ∃ request answer, e'.done = (⟨.send (some webhook) request, answer⟩ : DoneCall)) ∧
          parseWebhookRow External.plain loaded = some webhook ∧ loaded.id = id ∧
          ∀ r ∈ e.before.table.rows, r ∈ e.after.table.rows ∨ Query.SameWebhook loaded r := by
  have hrun : ∃ s, small.machine.runEvents small.initial leavingEvents = some s ∧
      (storedRows s).map Prod.fst = [5, 4, 3, 2, 1] ∧
      s.shared.table.rows.map Row.id = [5] ∧ settledByPasses s = [4, 1] := by
    decide +kernel
  obtain ⟨s, hs, hstored, hrows, hsettled⟩ := hrun
  have hreaches : small.machine.Reaches (fun _ _ => True) small.initial s :=
    TaskMachine.reaches_of_runEvents hs fun _ _ _ => trivial
  obtain ⟨hkept, hsettles⟩ := nothing_accepted_is_lost small hreaches
  exact ⟨s, hstored, hrows, hsettled, hkept, hsettles⟩

end AppState
