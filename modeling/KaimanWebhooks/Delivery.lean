/-
# Removed as delivered

A forwarder and a manual retry remove a webhook when the last response of its request has
the expected status.  The HTTP client follows redirects, and after 301, 302 or 303 the
POST goes on as a GET without a body: the last response may then be the answer to a
request that carried nothing of the webhook.  `removed_as_delivered_iff` says exactly when
the payload itself was accepted.
-/
import KaimanWebhooks.Ledger

/-- Some POST of the exchanges that carries the payload was answered with the status. -/
def PostAnswered (payload : Bytes) (status : ℕ) (exchanges : List Exchange) : Prop :=
  ∃ x ∈ exchanges, x.request.method = .post ∧ x.request.body = payload ∧
    ∃ resp, x.answer = .ok resp ∧ resp.status = status

/-- The peers never turn the POST into a GET, or one of the redirects they answer it with
before that has the status. -/
def StaysPost (ext : External) (answers : ℕ → PeerAnswer) (request : HttpRequest)
    (status : ℕ) : Prop :=
  redirectedAway ext.redirects maxRedirects answers request.onWire = false ∨
    status ∈ redirectStatuses ext.redirects maxRedirects answers request.onWire

/-- The entry deletes a row because a target accepted it: no DELETE request asked for it. -/
def RemovesDelivered (id : ℤ) (e : ServiceEntry) : Prop :=
  e.call = .sql (.deleteById id) ∧
    ∀ channel headers, e.job ≠ .request (.delete channel id headers)

section Send

variable {ext : External} {request : HttpRequest} {resp : WireResponse}

/-- A request that was answered went through the redirect chain of some peers, and the wire
saw that chain. -/
theorem Performed.exists_follow {e : ServiceEntry} (h : Performed ext e) {about : Option Webhook}
    (hdone : e.done = (⟨.send about request, .ok resp⟩ : DoneCall)) :
    ∃ answers, (follow ext.redirects maxRedirects answers request.onWire).1 = .ok resp ∧
      e.after.wire = e.before.wire ++
        (follow ext.redirects maxRedirects answers request.onWire).2 := by
  obtain ⟨i, hperform⟩ := h
  rcases e with ⟨n, job, c, answer, before, after⟩
  simp only [Entry.done, Sigma.mk.injEq] at hdone
  obtain ⟨rfl, hdone⟩ := hdone
  obtain rfl := eq_of_heq hdone
  have hanswer : (sendRequest ext i.answers request).1 = .ok resp := congrArg Prod.fst hperform
  have hafter : { before with wire := before.wire ++ (sendRequest ext i.answers request).2 } =
      after := congrArg Prod.snd hperform
  unfold sendRequest at hanswer hafter
  cases herror : ext.requestError request with
  | some message => simp [herror] at hanswer
  | none =>
      rw [herror] at hanswer hafter
      exact ⟨i.answers, hanswer, (congrArg World.wire hafter).symm⟩

/-- **One chain.**  When the last response has the expected status, a POST with the payload
got that status exactly when the chain stays a POST. -/
theorem postAnswered_iff_staysPost {answers : ℕ → PeerAnswer} {webhook : Webhook}
    (hposts : AppState.Posts webhook request)
    (hresp : (follow ext.redirects maxRedirects answers request.onWire).1 = .ok resp) :
    PostAnswered webhook.payload resp.status
        (follow ext.redirects maxRedirects answers request.onWire).2 ↔
      StaysPost ext answers request resp.status := by
  obtain ⟨hmethod, hbody⟩ := hposts
  unfold PostAnswered StaysPost
  rw [← hbody]
  cases haway : redirectedAway ext.redirects maxRedirects answers request.onWire with
  | false =>
      obtain ⟨x, hx, hpost, hpayload, hanswer⟩ :=
        exists_post_of_not_redirectedAway hmethod haway hresp
      exact ⟨fun _ => Or.inl rfl, fun _ => ⟨x, hx, hpost, hpayload, resp, hanswer, rfl⟩⟩
  | true =>
      rw [or_iff_right Bool.true_eq_false.mp]
      exact exists_post_iff_of_redirectedAway hmethod haway

end Send

namespace AppState

variable {state : AppState}

/-- **A webhook is removed as delivered when its payload was accepted, exactly if the chain
stays a POST.**  In every run, a delete that no DELETE request asked for follows a request
built from the stored webhook whose last response had the expected status; a POST with the
stored payload was answered with that status if and only if the peers never turned the
POST into a GET, or answered it with that very status when they redirected it. -/
theorem removed_as_delivered_iff {s : ServiceState}
    (h : state.machine.Reaches (fun _ _ => True) state.initial s) {e : ServiceEntry}
    (he : e ∈ s.history) {id : ℤ} (hremoves : RemovesDelivered id e) :
    ∃ e' ∈ s.history, e'.task = e.task ∧ ∃ webhook request resp fwd answers c,
      e'.done = (⟨.send (some webhook) request, .ok resp⟩ : DoneCall) ∧
      webhook.id = some id ∧ (id, c) ∈ storedRows s ∧ c.payload = .blob webhook.payload ∧
      state.target e.job = some fwd ∧ resp.status = fwd.expectedStatus ∧
      (follow state.db.ext.redirects maxRedirects answers request.onWire).1 = .ok resp ∧
      e'.after.wire = e'.before.wire ++
        (follow state.db.ext.redirects maxRedirects answers request.onWire).2 ∧
      (PostAnswered webhook.payload fwd.expectedStatus
          (follow state.db.ext.redirects maxRedirects answers request.onWire).2 ↔
        StaysPost state.db.ext answers request fwd.expectedStatus) := by
  obtain ⟨hcall, hjob⟩ := hremoves
  obtain ⟨past, hprotocol, hpast⟩ := protocol_of_mem_history h he
  rw [hcall] at hprotocol
  rcases hprotocol with ⟨channel, headers, hdelete⟩ | ⟨d, hd, haccepted⟩
  · exact absurd hdelete (hjob channel headers)
  · obtain ⟨webhook, request, resp, fwd, rfl, hid, htarget, hstatus⟩ :=
      exists_send_of_accepted haccepted
    obtain ⟨e', he', htask, -, hdone⟩ := hpast _ hd
    obtain ⟨webhook', hwebhook', hposts, row, hparse, hstored⟩ := exists_row_of_sent h he' hdone
    obtain rfl : webhook = webhook' := Option.some.inj hwebhook'
    obtain ⟨hrowId, -, -, hpayload, -⟩ := parseWebhookRow_eq_some hparse
    rw [Option.some.inj (hrowId.symm.trans hid)] at hstored
    obtain ⟨answers, hresp, hwire⟩ := (performed_of_mem_history h he').exists_follow hdone
    refine ⟨e', he', htask, webhook, request, resp, fwd, answers, row.content, hdone, hid, hstored,
      ?_, htarget, hstatus, hresp, hwire, ?_⟩
    · obtain ⟨_, -, hentry⟩ := List.mem_filterMap.mp hstored
      obtain ⟨_, _, payload, _, -, hcontent⟩ := exists_sql_of_storedRow hentry
      have hblob : row.payload = .blob payload := congrArg Content.payload hcontent
      rw [hblob] at hpayload
      obtain rfl := Except.ok.inj hpayload
      exact hblob
    · rw [← hstatus]
      exact postAnswered_iff_staysPost hposts hresp

/-- A run in which the target answers the POST with 302 and the page it leads to with 200. -/
def redirectEvents : List ServiceEvent :=
  let redirect : Input :=
    { Input.calm 1001 200 with
      answers := fun n =>
        if n = 0 then
          .ok ⟨302, [("location", HeaderValue.ofText "http://target/login".toList)], .ok ""⟩
        else .ok ⟨200, [], .ok ""⟩ }
  ServiceEvent.task (.request .small) 0 (List.replicate 3 (Input.calm 1000 200)) ++
    ServiceEvent.task (.refresh 0) 1 (List.replicate 3 (Input.calm 1000 200)) ++
    ServiceEvent.task (.cycle 0) 2 (List.replicate 9 redirect)

theorem exists_redirect_run : ∃ s, small.machine.runEvents small.initial redirectEvents = some s ∧
    (∃ e ∈ s.history, e.call = .sql (.deleteById 1) ∧ e.job = .cycle 0) ∧
    s.shared.table.rows = [] ∧
    ∀ x ∈ s.shared.wire, ¬(x.request.method = .post ∧
      (x.answer.toOption.map WireResponse.status) = some 200) := by
  decide +kernel

/-- **Not every webhook removed as delivered was accepted**: after the 302 no POST got the
expected status, whatever its payload. -/
theorem removed_without_accepted_post :
    ¬∀ (state : AppState) (s : ServiceState),
      state.machine.Reaches (fun _ _ => True) state.initial s →
        ∀ e ∈ s.history, ∀ id, RemovesDelivered id e →
          ∃ fwd, state.target e.job = some fwd ∧
            ∃ payload, PostAnswered payload fwd.expectedStatus s.shared.wire := by
  intro hclaim
  obtain ⟨s, hs, ⟨e, he, hcall, hjob⟩, -, hwire⟩ := exists_redirect_run
  have hreaches : small.machine.Reaches (fun _ _ => True) small.initial s :=
    TaskMachine.reaches_of_runEvents hs fun _ _ _ => trivial
  obtain ⟨fwd, htarget, payload, x, hx, hpost, -, resp, hanswer, hstatus⟩ :=
    hclaim small s hreaches e he 1 ⟨hcall, by simp [hjob]⟩
  have hexpected : fwd.expectedStatus = 200 := by
    rw [hjob] at htarget
    cases htarget
    rfl
  refine hwire x hx ⟨hpost, ?_⟩
  simp [hanswer, Except.toOption, hstatus, hexpected]

/-- After the 302 the webhook is removed as delivered: the deletion goes back to the send of the
same pass, whose POST was accepted just if the chain stayed a POST. -/
theorem removed_as_delivered_iff_small :
    ∃ s : ServiceState, ∃ e ∈ s.history, e.job = .cycle 0 ∧
      ∃ e' ∈ s.history, e'.task = e.task ∧ ∃ webhook request resp,
        e'.done = (⟨.send (some webhook) request, .ok resp⟩ : DoneCall) ∧
        ∃ answers, (PostAnswered webhook.payload resp.status
            (follow External.plain.redirects maxRedirects answers request.onWire).2 ↔
          StaysPost External.plain answers request resp.status) := by
  obtain ⟨s, hs, ⟨e, he, hcall, hjob⟩, -⟩ := exists_redirect_run
  have hreaches : small.machine.Reaches (fun _ _ => True) small.initial s :=
    TaskMachine.reaches_of_runEvents hs fun _ _ _ => trivial
  have hremoves : RemovesDelivered 1 e := ⟨hcall, by simp [hjob]⟩
  obtain ⟨e', he', htask, webhook, request, resp, fwd, answers, c, hdone, -, -, -, -, hstatus, -, -,
    hiff⟩ := removed_as_delivered_iff hreaches he hremoves
  rw [← hstatus] at hiff
  exact ⟨s, e, he, hjob, e', he', htask, webhook, request, resp, hdone, answers, hiff⟩

end AppState
