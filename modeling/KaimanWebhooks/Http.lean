/-
# HTTP messages and the redirecting client

Header maps, requests and responses as the service sees them, and what one `send` of
its HTTP client does on the wire.  The client is built with the default redirect
policy: it follows up to ten redirects, a POST answered 301, 302 or 303 goes on as a
GET without a body, and only the last response of the chain is handed back.
-/
import Mathlib.Data.List.Basic
import Mathlib.Data.List.Infix

abbrev Bytes : Type := List UInt8

/-! ## Headers -/

/-- The bytes of a header value. -/
abbrev HeaderValue : Type := List UInt8

namespace HeaderValue

/-- Visible ASCII, the space or the tab. -/
def isVisibleAscii (b : UInt8) : Bool := (32 ≤ b && b < 127) || b == 9

/-- `HeaderValue::to_str`: the value as text when it is visible ASCII throughout. -/
def toStr (value : HeaderValue) : Option (List Char) :=
  if value.all isVisibleAscii then some (value.map fun b => Char.ofNat b.toNat) else none

/-- The value of a visible ASCII text. -/
def ofText (text : List Char) : HeaderValue := text.map fun c => UInt8.ofNat c.toNat

/-- A character of visible ASCII, the space or the tab. -/
def IsTextChar (c : Char) : Prop := (32 ≤ c.toNat ∧ c.toNat < 127) ∨ c.toNat = 9

instance : DecidablePred IsTextChar := fun c =>
  inferInstanceAs (Decidable ((32 ≤ c.toNat ∧ c.toNat < 127) ∨ c.toNat = 9))

/-- A look at every character tells whether a text is visible ASCII. -/
theorem isTextChar_of_all {text : List Char} (h : text.all fun c => decide (IsTextChar c)) :
    ∀ c ∈ text, IsTextChar c :=
  fun c hc => of_decide_eq_true (List.all_eq_true.mp h c hc)

/-- A text of such characters survives being sent as a header value. -/
theorem toStr_ofText {text : List Char} (h : ∀ c ∈ text, IsTextChar c) :
    toStr (ofText text) = some text := by
  have hbyte : ∀ c ∈ text, (UInt8.ofNat c.toNat).toNat = c.toNat := by
    intro c hc
    rw [UInt8.toNat_ofNat']
    exact Nat.mod_eq_of_lt (by rcases h c hc with hc | hc <;> omega)
  have hall : (ofText text).all isVisibleAscii = true := by
    simp only [ofText, List.all_eq_true, List.mem_map]
    rintro b ⟨c, hc, rfl⟩
    have hb := hbyte c hc
    simp only [isVisibleAscii, Bool.or_eq_true, Bool.and_eq_true, decide_eq_true_eq,
      UInt8.le_iff_toNat_le, UInt8.lt_iff_toNat_lt, beq_iff_eq, ← UInt8.toNat_inj, hb]
    exact h c hc
  rw [toStr, if_pos hall, ofText, List.map_map]
  congr 1
  calc text.map ((fun b : UInt8 => Char.ofNat b.toNat) ∘ fun c => UInt8.ofNat c.toNat)
      = text.map id := by
        refine List.map_congr_left fun c hc => ?_
        simp only [Function.comp_apply, hbyte c hc, Char.ofNat_toNat, id]
    _ = text := List.map_id text

/-- The two halves of a value are read one after the other. -/
theorem toStr_append (a b : HeaderValue) :
    toStr (a ++ b) = (toStr a).bind fun front => (toStr b).map (front ++ ·) := by
  unfold toStr
  rw [List.all_append]
  cases a.all isVisibleAscii <;> cases b.all isVisibleAscii <;> simp

end HeaderValue

/-- A header map: name lines in order, the names in lower case. -/
abbrev HeaderMap : Type := List (String × HeaderValue)

namespace HeaderMap

/-- ASCII lower case. -/
def lowerName (name : String) : String := String.ofList (name.toList.map Char.toLower)

/-- `HeaderMap::get`: the first value under a name, the case of which does not matter. -/
def get (headers : HeaderMap) (name : String) : Option HeaderValue :=
  (headers.find? fun line => line.1 = lowerName name).map Prod.snd

/-- The first value under a name, as text. -/
def getStr (headers : HeaderMap) (name : String) : Option (List Char) :=
  (headers.get name).bind HeaderValue.toStr

end HeaderMap

/-! ## Requests and responses -/

inductive Method : Type where
  | get
  | post
  | head
  deriving DecidableEq

/-- A request as the service builds it; the timeout is in seconds. -/
structure HttpRequest where
  method : Method
  url : String
  timeout : ℕ
  headers : List (String × String)
  body : Bytes
  deriving DecidableEq

/-- One request line of a redirect chain.  The headers of the requests a redirect leads to
are not modelled. -/
structure WireRequest where
  method : Method
  url : String
  body : Bytes
  deriving DecidableEq

/-- The first request of a chain. -/
def HttpRequest.onWire (req : HttpRequest) : WireRequest := ⟨req.method, req.url, req.body⟩

/-- A response of a peer; `text` is what decoding its body gives. -/
structure WireResponse where
  status : ℕ
  headers : HeaderMap
  text : Except String String

/-- What a peer does with a request: it answers, or the transport fails with a chain of
error descriptions flattened into one line. -/
abbrev PeerAnswer : Type := Except String WireResponse

/-- One request on the wire together with what became of it. -/
structure Exchange where
  request : WireRequest
  answer : PeerAnswer

/-! ## Redirects -/

/-- The default policy follows this many redirects. -/
def maxRedirects : ℕ := 10

/-- The redirect turns a POST into a GET. -/
def dropsBody (status : ℕ) : Bool := status = 301 || status = 302 || status = 303

/-- The redirect repeats the request as it is. -/
def keepsBody (status : ℕ) : Bool := status = 307 || status = 308

/-- The request a redirect to `url` leads to. -/
def WireRequest.redirected (req : WireRequest) (status : ℕ) (url : String) : WireRequest :=
  if (status = 301 ∨ status = 302) ∧ req.method = .post then ⟨.get, url, []⟩
  else if status = 303 ∧ req.method ≠ .head then ⟨.get, url, []⟩
  else if status = 303 then ⟨req.method, url, []⟩
  else { req with url }

/-- What the client makes of the `Location` of a redirect.  The header arrives as bytes; how they
are read and resolved against the address they came from is the client's business, and so is the
wording of its errors. -/
structure RedirectPolicy where
  /-- no usable location, an error, or the address to go on with -/
  resolve : String → HeaderValue → Option (Except String String)
  /-- the error of a request that was redirected once too often, by its last response -/
  limitError : String → WireResponse → String

/-- What a response leads to: nothing, if it is no redirect with a usable `Location`, an error, or
the next request. -/
def nextRequest (policy : RedirectPolicy) (req : WireRequest) (resp : WireResponse) :
    Option (Except String WireRequest) :=
  if dropsBody resp.status || keepsBody resp.status then
    (resp.headers.get "location").bind fun location =>
      (policy.resolve req.url location).map fun target =>
        target.map fun url => req.redirected resp.status url
  else none

/-- Send a request and follow redirects while some are left: what `send` hands back and the
exchanges it made.  The `n`-th request is answered by `answers n`. -/
def follow (policy : RedirectPolicy) :
    ℕ → (ℕ → PeerAnswer) → WireRequest → PeerAnswer × List Exchange
  | left, answers, req =>
      match answers 0 with
      | .error e => (.error e, [⟨req, .error e⟩])
      | .ok resp =>
          match nextRequest policy req resp with
          | none => (.ok resp, [⟨req, .ok resp⟩])
          | some next =>
              match left with
              | 0 => (.error (policy.limitError req.url resp), [⟨req, .ok resp⟩])
              | left + 1 =>
                  match next with
                  | .error e => (.error e, [⟨req, .ok resp⟩])
                  | .ok next =>
                      let rest := follow policy left (fun n => answers (n + 1)) next
                      (rest.1, ⟨req, .ok resp⟩ :: rest.2)

section Follow

variable (policy : RedirectPolicy)

/-- The chain goes through a redirect that turns the POST into a GET. -/
def redirectedAway : ℕ → (ℕ → PeerAnswer) → WireRequest → Bool
  | left, answers, req =>
      match answers 0 with
      | .error _ => false
      | .ok resp =>
          match nextRequest policy req resp, left with
          | some (.ok next), left + 1 =>
              dropsBody resp.status || redirectedAway left (fun n => answers (n + 1)) next
          | _, _ => false

/-- The statuses of the redirects the chain follows, up to the first one that turns the POST
into a GET. -/
def redirectStatuses : ℕ → (ℕ → PeerAnswer) → WireRequest → List ℕ
  | left, answers, req =>
      match answers 0 with
      | .error _ => []
      | .ok resp =>
          match nextRequest policy req resp, left with
          | some (.ok next), left + 1 =>
              if dropsBody resp.status then [resp.status]
              else resp.status :: redirectStatuses left (fun n => answers (n + 1)) next
          | _, _ => []

variable {policy} {left : ℕ} {answers : ℕ → PeerAnswer} {req next : WireRequest}
  {resp : WireResponse} {e : String}

theorem follow_failed (h : answers 0 = .error e) :
    follow policy left answers req = (.error e, [⟨req, .error e⟩]) := by
  rw [follow.eq_def]
  simp only [h]

theorem follow_last (h : answers 0 = .ok resp) (hnext : nextRequest policy req resp = none) :
    follow policy left answers req = (.ok resp, [⟨req, .ok resp⟩]) := by
  rw [follow.eq_def]
  simp only [h, hnext]

theorem follow_limit {target : Except String WireRequest} (h : answers 0 = .ok resp)
    (hnext : nextRequest policy req resp = some target) :
    follow policy 0 answers req =
      (.error (policy.limitError req.url resp), [⟨req, .ok resp⟩]) := by
  rw [follow.eq_def]
  simp only [h, hnext]

theorem follow_refused (h : answers 0 = .ok resp)
    (hnext : nextRequest policy req resp = some (.error e)) :
    follow policy (left + 1) answers req = (.error e, [⟨req, .ok resp⟩]) := by
  rw [follow.eq_def]
  simp only [h, hnext]

theorem follow_onward (h : answers 0 = .ok resp)
    (hnext : nextRequest policy req resp = some (.ok next)) :
    follow policy (left + 1) answers req =
      ((follow policy left (fun n => answers (n + 1)) next).1,
       ⟨req, .ok resp⟩ :: (follow policy left (fun n => answers (n + 1)) next).2) := by
  rw [follow.eq_def]
  simp only [h, hnext]

variable (policy) in
/-- Induction along a chain: the first request fails, gets the last answer, is redirected
once too often or to where the client does not go, or is redirected to a shorter chain. -/
theorem follow_induct {motive : ℕ → (ℕ → PeerAnswer) → WireRequest → Prop}
    (failed : ∀ left answers req e, answers 0 = .error e → motive left answers req)
    (last : ∀ left answers req resp, answers 0 = .ok resp →
      nextRequest policy req resp = none → motive left answers req)
    (limit : ∀ answers req resp target, answers 0 = .ok resp →
      nextRequest policy req resp = some target → motive 0 answers req)
    (refused : ∀ left answers req resp e, answers 0 = .ok resp →
      nextRequest policy req resp = some (.error e) → motive (left + 1) answers req)
    (onward : ∀ left answers req resp next, answers 0 = .ok resp →
      nextRequest policy req resp = some (.ok next) →
      motive left (fun n => answers (n + 1)) next → motive (left + 1) answers req)
    (left : ℕ) (answers : ℕ → PeerAnswer) (req : WireRequest) : motive left answers req := by
  induction left generalizing answers req with
  | zero =>
      cases h : answers 0 with
      | error e => exact failed 0 answers req e h
      | ok resp =>
          cases hnext : nextRequest policy req resp with
          | none => exact last 0 answers req resp h hnext
          | some target => exact limit answers req resp target h hnext
  | succ left ih =>
      cases h : answers 0 with
      | error e => exact failed (left + 1) answers req e h
      | ok resp =>
          cases hnext : nextRequest policy req resp with
          | none => exact last (left + 1) answers req resp h hnext
          | some target =>
              cases target with
              | error e => exact refused left answers req resp e h hnext
              | ok next => exact onward left answers req resp next h hnext (ih _ next)

/-- Only redirects have a next request, and that request is the redirected one. -/
theorem nextRequest_eq_ok (h : nextRequest policy req resp = some (.ok next)) :
    (dropsBody resp.status || keepsBody resp.status) = true ∧
      ∃ url, next = req.redirected resp.status url := by
  simp only [nextRequest] at h
  split at h
  · rename_i hredirect
    obtain ⟨location, -, hmap⟩ := Option.bind_eq_some_iff.mp h
    obtain ⟨target, -, htarget⟩ := Option.map_eq_some_iff.mp hmap
    cases target with
    | error e => cases htarget
    | ok url => exact ⟨hredirect, url, (Except.ok.inj htarget).symm⟩
  · cases h

/-- A request that is not a POST never becomes one again. -/
theorem method_ne_post_of_next (hmethod : req.method ≠ .post)
    (h : nextRequest policy req resp = some (.ok next)) : next.method ≠ .post := by
  obtain ⟨-, url, rfl⟩ := nextRequest_eq_ok h
  rw [WireRequest.redirected, if_neg (by simp [hmethod])]
  split_ifs <;> simp [hmethod]

/-- After 301, 302 or 303 a POST goes on as something else. -/
theorem method_ne_post_of_dropsBody (hdrops : dropsBody resp.status = true)
    (h : nextRequest policy req resp = some (.ok next)) : next.method ≠ .post := by
  by_cases hmethod : req.method = .post
  · obtain ⟨-, url, rfl⟩ := nextRequest_eq_ok h
    simp only [dropsBody, Bool.or_eq_true, decide_eq_true_eq] at hdrops
    rcases hdrops with (hstatus | hstatus) | hstatus <;>
      simp [WireRequest.redirected, hstatus, hmethod]
  · exact method_ne_post_of_next hmethod h

/-- After 307 or 308 a request is repeated with the same method and body. -/
theorem same_request_of_not_dropsBody (hdrops : dropsBody resp.status = false)
    (h : nextRequest policy req resp = some (.ok next)) :
    next.method = req.method ∧ next.body = req.body := by
  obtain ⟨-, url, rfl⟩ := nextRequest_eq_ok h
  simp only [dropsBody, Bool.or_eq_false_iff, decide_eq_false_iff_not] at hdrops
  simp [WireRequest.redirected, hdrops]

/-- The exchanges of a chain that starts with another method hold no POST. -/
theorem method_ne_post_of_mem_follow (hmethod : req.method ≠ .post) :
    ∀ x ∈ (follow policy left answers req).2, x.request.method ≠ .post := by
  induction left, answers, req using follow_induct policy with
  | failed left answers req e h => simp [follow_failed h, hmethod]
  | last left answers req resp h hnext => simp [follow_last h hnext, hmethod]
  | limit answers req resp target h hnext => simp [follow_limit h hnext, hmethod]
  | refused left answers req resp e h hnext => simp [follow_refused h hnext, hmethod]
  | onward left answers req resp next h hnext ih =>
      intro x hx
      rw [follow_onward h hnext, List.mem_cons] at hx
      rcases hx with rfl | hx
      · exact hmethod
      · exact ih (method_ne_post_of_next hmethod hnext) x hx

/-- **A POST that is never turned into a GET gets the final answer itself.** -/
theorem exists_post_of_not_redirectedAway (hmethod : req.method = .post)
    (haway : redirectedAway policy left answers req = false)
    (h : (follow policy left answers req).1 = .ok resp) :
    ∃ x ∈ (follow policy left answers req).2,
      x.request.method = .post ∧ x.request.body = req.body ∧ x.answer = .ok resp := by
  induction left, answers, req using follow_induct policy with
  | failed left answers req e h₀ => simp [follow_failed h₀] at h
  | last left answers req resp₀ h₀ hnext =>
      simp only [follow_last h₀ hnext, Except.ok.injEq] at h
      subst h
      simp [follow_last h₀ hnext, hmethod]
  | limit answers req resp₀ target h₀ hnext => simp [follow_limit h₀ hnext] at h
  | refused left answers req resp₀ e h₀ hnext => simp [follow_refused h₀ hnext] at h
  | onward left answers req resp₀ next h₀ hnext ih =>
      rw [redirectedAway.eq_def] at haway
      simp only [h₀, hnext, Bool.or_eq_false_iff] at haway
      obtain ⟨hmethod', hbody⟩ := same_request_of_not_dropsBody haway.1 hnext
      rw [follow_onward h₀ hnext] at h ⊢
      obtain ⟨x, hx, hxm, hxb, hxa⟩ := ih (hmethod'.trans hmethod) haway.2 h
      exact ⟨x, List.mem_cons_of_mem _ hx, hxm, hxb.trans hbody, hxa⟩

/-- **A POST that is turned into a GET was answered with its redirects only**: a status was
given to it exactly when one of these has it. -/
theorem exists_post_iff_of_redirectedAway {status : ℕ} (hmethod : req.method = .post)
    (haway : redirectedAway policy left answers req = true) :
    (∃ x ∈ (follow policy left answers req).2, x.request.method = .post ∧
      x.request.body = req.body ∧ ∃ resp, x.answer = .ok resp ∧ resp.status = status) ↔
      status ∈ redirectStatuses policy left answers req := by
  induction left, answers, req using follow_induct policy with
  | failed left answers req e h =>
      rw [redirectedAway.eq_def] at haway
      simp [h] at haway
  | last left answers req resp h hnext =>
      rw [redirectedAway.eq_def] at haway
      simp [h, hnext] at haway
  | limit answers req resp target h hnext =>
      rw [redirectedAway.eq_def] at haway
      simp [h, hnext] at haway
  | refused left answers req resp e h hnext =>
      rw [redirectedAway.eq_def] at haway
      simp [h, hnext] at haway
  | onward left answers req resp next h hnext ih =>
      rw [redirectedAway.eq_def] at haway
      rw [redirectStatuses.eq_def, follow_onward h hnext]
      simp only [h, hnext, Bool.or_eq_true] at haway
      simp only [h, hnext, List.exists_mem_cons_iff]
      have hfirst : (req.method = .post ∧ True ∧
          ∃ resp', (Except.ok resp : PeerAnswer) = .ok resp' ∧ resp'.status = status) ↔
          status = resp.status := by
        simp [hmethod, eq_comm]
      rw [hfirst]
      cases hdrops : dropsBody resp.status with
      | true =>
          -- what follows the turn is no POST
          have hnone : ∀ x ∈ (follow policy left (fun n => answers (n + 1)) next).2,
              x.request.method ≠ .post :=
            method_ne_post_of_mem_follow (method_ne_post_of_dropsBody hdrops hnext)
          rw [if_pos rfl, List.mem_singleton]
          refine or_iff_left ?_
          rintro ⟨x, hx, hpost, -⟩
          exact hnone x hx hpost
      | false =>
          obtain ⟨hmethod', hbody⟩ := same_request_of_not_dropsBody hdrops hnext
          have haway' : redirectedAway policy left (fun n => answers (n + 1)) next = true := by
            simpa [hdrops] using haway
          rw [if_neg Bool.false_ne_true, List.mem_cons, ← ih (hmethod'.trans hmethod) haway', hbody]

end Follow
