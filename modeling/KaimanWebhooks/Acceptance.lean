/-
# Only accepted requests are stored

A handler makes its checks before its first call.  Whatever a run stores was therefore sent by
a request whose channel is configured and which passed the checks of that channel.
-/
import KaimanWebhooks.Retention

namespace AppState

/-- The request passes every check of the channel it names. -/
structure Accepted (state : AppState) (ch : WebhookChannelConfig) (clientIp : IpAddr)
    (channel : String) (headers : HeaderMap) (body : Bytes) : Prop where
  channel : state.config.findChannelByName channel = some ch
  ip : ch.isIpAllowed state.db.ext clientIp = true
  secret : state.verifySecret ch headers body = .ok ()
  body : state.validateBody ch headers body = .ok ()

section Accepted

variable {state : AppState} {clientIp : IpAddr} {channel : String} {headers : HeaderMap}
  {body : Bytes}

theorem checkRequest_eq_ok :
    state.checkRequest clientIp channel headers body = .ok () ↔
      ∃ ch, state.Accepted ch clientIp channel headers body := by
  unfold checkRequest
  cases hfind : state.config.findChannelByName channel with
  | none =>
      simp only [reduceCtorEq, false_iff, not_exists]
      intro ch h
      cases hfind.symm.trans h.channel
  | some ch =>
      dsimp only
      cases hip : ch.isIpAllowed state.db.ext clientIp with
      | false =>
          simp only [Bool.not_false, if_true, reduceCtorEq, false_iff, not_exists]
          intro ch' h
          obtain rfl : ch = ch' := Option.some.inj (hfind.symm.trans h.channel)
          cases hip.symm.trans h.ip
      | true =>
          rw [if_neg (by simp)]
          constructor
          · intro h
            obtain ⟨hsecret, hbody⟩ := Except.andThen_eq_ok.mp h
            exact ⟨ch, hfind, hip, hsecret, hbody⟩
          · rintro ⟨ch', h⟩
            obtain rfl : ch = ch' := Option.some.inj (hfind.symm.trans h.channel)
            exact Except.andThen_eq_ok.mpr ⟨h.secret, h.body⟩

end Accepted

/-- A receive request that makes a call passed its checks. -/
def PassedChecks (state : AppState) (job : Job) : Prop :=
  ∀ clientIp channel headers body, job = .request (.receive clientIp channel headers body) →
    state.checkRequest clientIp channel headers body = .ok ()

theorem start_passedChecks (state : AppState) (job : Job) :
    (state.start job).Obeys state.machine.Answers (fun _ _ => state.PassedChecks job)
      (fun _ _ => True) [] := by
  by_cases hpassed : state.PassedChecks job
  · exact CallProgram.obeys_of_forall (fun _ _ => hpassed) (fun _ _ => trivial) _
  · -- a receive request whose check failed is answered without a call
    unfold PassedChecks at hpassed
    push Not at hpassed
    obtain ⟨clientIp, channel, headers, body, rfl, hcheck⟩ := hpassed
    simp only [start, handle, receiveWebhookRoute]
    cases h : state.checkRequest clientIp channel headers body with
    | error response => trivial
    | ok u => exact absurd h hcheck

section Runs

variable {state : AppState} {ok : ServiceState → ServiceEvent → Prop} {s : ServiceState}
  (h : state.machine.Reaches ok state.initial s)

include h

theorem passedChecks_of_mem_history {e : ServiceEntry} (he : e ∈ s.history) :
    state.PassedChecks e.job := by
  obtain ⟨past, hpassed, -⟩ := h.protocol_of_mem rfl rfl state.start_passedChecks he
  exact hpassed

/-- **What stored a row was an accepted request**: the run of a receive request that passed every
check of its channel, and the content is that of this very request. -/
theorem exists_accepted_of_storedRow {e : ServiceEntry} (he : e ∈ s.history) {id : ℤ}
    {c : Content} (hrow : storedRow e.done = some (id, c)) :
    ∃ ch clientIp channel headers body receivedAt,
      e.job = .request (.receive clientIp channel headers body) ∧
        state.Accepted ch clientIp channel headers body ∧
          c = contentOf state
            (Webhook.new channel (state.forwardedHeaders headers) body receivedAt) := by
  obtain ⟨accepted, receivedAt, ⟨clientIp, channel, headers, body, hjob, haccepted⟩, hcontent⟩ :=
    receivedBy_of_stored h he hrow
  obtain ⟨ch, hch⟩ := checkRequest_eq_ok.mp
    (passedChecks_of_mem_history h he clientIp channel headers body hjob)
  exact ⟨ch, clientIp, channel, headers, body, receivedAt, hjob, hch, haccepted ▸ hcontent⟩

/-- A webhook read from a stored row carries the body of an accepted request. -/
theorem exists_accepted_of_parse {row : Row} (hstored : (row.id, row.content) ∈ storedRows s)
    {webhook : Webhook} (hparse : parseWebhookRow state.db.ext row = some webhook) :
    ∃ ch clientIp headers, state.Accepted ch clientIp webhook.channel headers webhook.payload := by
  obtain ⟨e, he, hrow⟩ := List.mem_filterMap.mp hstored
  obtain ⟨ch, clientIp, channel, headers, body, receivedAt, -, haccepted, hcontent⟩ :=
    exists_accepted_of_storedRow h he hrow
  obtain ⟨hchannel, hpayload, -⟩ := keptAs_of_content hcontent hparse
  refine ⟨ch, clientIp, headers, ?_⟩
  rw [hchannel, hpayload]
  exact haccepted

end Runs

end AppState
