/-
# What is signed here is accepted there

The service checks the signature of what it receives, hands out signatures for bodies, and signs
what it forwards.  These are three halves of one contract.  When the extract template of a channel
reads a signature off the values a sign template makes, a signature handed out for a body lets this
body in and no body of another hash, and the signed forward of one instance is let in by another
one with the same secret.
-/
import KaimanWebhooks.Acceptance
import KaimanWebhooks.Authorization
import KaimanWebhooks.HeaderFlow
import KaimanWebhooks.Protection
import KaimanWebhooks.Templates

/-! ## Hexadecimal digits -/

theorem toLower_hexDigit {n : ℕ} (h : n < 16) : (hexDigit n).toLower = hexDigit n := by
  have hall : ∀ m : Fin 16, (hexDigit m).toLower = hexDigit m := by decide
  exact hall ⟨n, h⟩

theorem eq_of_hexDigit_eq {m n : ℕ} (hm : m < 16) (hn : n < 16) (h : hexDigit m = hexDigit n) :
    m = n := by
  have hall : ∀ a b : Fin 16, hexDigit a = hexDigit b → a = b := by decide
  exact congrArg Fin.val (hall ⟨m, hm⟩ ⟨n, hn⟩ h)

/-- Hexadecimal digits are in lower case. -/
theorem lowerName_hexEncode (bytes : Bytes) :
    HeaderMap.lowerName (hexEncode bytes) = hexEncode bytes := by
  unfold HeaderMap.lowerName hexEncode
  rw [String.toList_ofList, List.map_flatMap]
  congr 2
  funext b
  have hb := b.toNat_lt
  simp only [List.map_cons, List.map_nil]
  rw [toLower_hexDigit (by omega), toLower_hexDigit (by omega)]

/-- Hexadecimal digits may stand in a header. -/
theorem isTextChar_hexEncode (bytes : Bytes) :
    ∀ c ∈ (hexEncode bytes).toList, HeaderValue.IsTextChar c := by
  have hall : ∀ m : Fin 16, HeaderValue.IsTextChar (hexDigit m) := by decide
  intro c hc
  rw [hexEncode, String.toList_ofList] at hc
  obtain ⟨b, -, hdigit⟩ := List.mem_flatMap.mp hc
  have hb := b.toNat_lt
  rcases List.mem_pair.mp hdigit with rfl | rfl
  · exact hall ⟨b.toNat / 16, by omega⟩
  · exact hall ⟨b.toNat % 16, by omega⟩

/-- Different bytes have different digits. -/
theorem hexEncode_injective {a b : Bytes} (h : hexEncode a = hexEncode b) : a = b := by
  have hdigits := congrArg String.toList h
  simp only [hexEncode, String.toList_ofList] at hdigits
  clear h
  induction a generalizing b with
  | nil =>
      cases b with
      | nil => rfl
      | cons y ys => simp at hdigits
  | cons x xs ih =>
      cases b with
      | nil => simp at hdigits
      | cons y ys =>
          simp only [List.flatMap_cons, List.cons_append, List.nil_append, List.cons.injEq]
            at hdigits
          obtain ⟨hhigh, hlow, hrest⟩ := hdigits
          have hx := x.toNat_lt
          have hy := y.toNat_lt
          have hdiv := eq_of_hexDigit_eq (by omega) (by omega) hhigh
          have hmod := eq_of_hexDigit_eq (by omega) (by omega) hlow
          have hbyte : x = y := UInt8.toNat_inj.mp (by omega)
          rw [hbyte, ih hrest]

/-! ## Signatures that are read back -/

/-- What a sign template makes of a signature; without a template it stays as it is. -/
def signedAs (ext : External) : Option String → String → Option String
  | none, signature => some signature
  | some template, signature => (ext.renderSignTemplate template signature).toOption

/-- The extract template reads this signature off a header value, up to the case of letters. -/
def ReadsBack (ext : External) (extractTemplate : Option String) (signature value : String) :
    Prop :=
  ∃ hex, ext.renderExtractTemplate (extractTemplate.getD "\x7b\x7b raw \x7d\x7d") value = .ok hex ∧
    HeaderMap.lowerName hex = HeaderMap.lowerName signature

/-- The channel checks signatures made with this secret, in this header. -/
structure WebhookChannelConfig.ChecksSignature (ch : WebhookChannelConfig)
    (secret header : String) : Prop where
  type : ch.secretType = .hmacSha256
  secret : ch.webhookSecret = some secret
  header : ch.secretHeader = some header

namespace AppState

section Admission

variable {state : AppState} {ch : WebhookChannelConfig} {secret header : String}
  {headers : HeaderMap} {signed body : Bytes} {value : String}

/-- **A signature proves the bodies of one hash.** -/
theorem carriesProof_iff (hch : ch.ChecksSignature secret header)
    (hcarries : headers.getStr header = some value.toList)
    (hreads : ReadsBack state.db.ext ch.secretExtractTemplate
      (state.db.ext.hmacSha256Hex (utf8Bytes secret) signed) value) :
    CarriesProof state.db.ext ch headers body ↔
      state.db.ext.hmacSha256 (utf8Bytes secret) body =
        state.db.ext.hmacSha256 (utf8Bytes secret) signed := by
  obtain ⟨hex, hrender, hhex⟩ := hreads
  have hsame : HeaderMap.lowerName hex = HeaderMap.lowerName (state.db.ext.hmacSha256Hex
      (utf8Bytes secret) body) ↔ state.db.ext.hmacSha256 (utf8Bytes secret) body =
        state.db.ext.hmacSha256 (utf8Bytes secret) signed := by
    rw [hhex, External.hmacSha256Hex, External.hmacSha256Hex, lowerName_hexEncode,
      lowerName_hexEncode]
    exact ⟨fun h => (hexEncode_injective h).symm, fun h => congrArg hexEncode h.symm⟩
  rw [← hsame]
  unfold CarriesProof ProvesSecret
  rw [hch.type, hch.secret, hch.header]
  constructor
  · rintro ⟨_, _, raw, ⟨⟩, ⟨⟩, hraw, hex', hrender', hhex'⟩
    obtain rfl := Option.some.inj (hcarries.symm.trans hraw)
    rw [String.ofList_toList, hrender] at hrender'
    obtain rfl := Except.ok.inj hrender'
    exact hhex'
  · intro h
    refine ⟨secret, header, value.toList, rfl, rfl, hcarries, hex, ?_, h⟩
    rw [String.ofList_toList]
    exact hrender

/-- **What a request with a signature needs to be let in.** -/
theorem checkRequest_of_signature {channel : String}
    (hfind : state.config.findChannelByName channel = some ch)
    (hch : ch.ChecksSignature secret header)
    (hcarries : headers.getStr header = some value.toList)
    (hreads : ReadsBack state.db.ext ch.secretExtractTemplate
      (state.db.ext.hmacSha256Hex (utf8Bytes secret) signed) value) (clientIp : IpAddr) :
    state.checkRequest clientIp channel headers body = .ok () ↔
      ch.isIpAllowed state.db.ext clientIp = true ∧ state.validateBody ch headers body = .ok () ∧
        state.db.ext.hmacSha256 (utf8Bytes secret) body =
          state.db.ext.hmacSha256 (utf8Bytes secret) signed := by
  have hsecret : state.verifySecret ch headers body = .ok () ↔
      state.db.ext.hmacSha256 (utf8Bytes secret) body =
        state.db.ext.hmacSha256 (utf8Bytes secret) signed := by
    rw [verifySecret_eq_ok, ← carriesProof_iff hch hcarries hreads, hch.secret, hch.header]
    simp
  rw [checkRequest_eq_ok, ← hsecret]
  constructor
  · rintro ⟨ch', h⟩
    obtain rfl : ch = ch' := Option.some.inj (hfind.symm.trans h.channel)
    exact ⟨h.ip, h.body, h.secret⟩
  · rintro ⟨hip, hbody, hverified⟩
    exact ⟨ch, hfind, hip, hverified, hbody⟩

end Admission

/-! ## Signatures that are handed out -/

section Signed

variable {state : AppState} {ch : WebhookChannelConfig} {channel : String} {headers : HeaderMap}
  {body : Bytes} {dto : SignResponseDto}

/-- The sign route goes by a channel of that name. -/
theorem mem_of_authorizeSign (h : state.authorizeSign headers channel = .ok ch) :
    ch ∈ state.config.channels ∧ ch.name = channel := by
  unfold authorizeSign at h
  dsimp only at h
  split at h
  · cases h
  · split at h
    · rename_i c hc
      split at h
      · cases h
      · rename_i hname
        obtain rfl := Except.ok.inj h
        exact ⟨List.mem_of_find?_eq_some hc, not_not.mp hname⟩
    · split at h
      · cases h
      · split at h
        · rename_i c hc
          obtain rfl := Except.ok.inj h
          rw [AppConfig.findChannelByName] at hc
          exact ⟨List.mem_of_find?_eq_some hc, by simpa using List.find?_some hc⟩
        · cases h

/-- A caller the sign route does not let in is answered with a text. -/
theorem exists_text_of_authorizeSign {response : HttpResponse}
    (h : state.authorizeSign headers channel = .error response) :
    ∃ status s, response = .text status s := by
  unfold authorizeSign at h
  dsimp only at h
  repeat' split at h
  all_goals first
    | exact ⟨_, _, (Except.error.inj h).symm⟩
    | cases h

/-- What the sign route hands out for a channel with a secret. -/
theorem renderSignTemplate_of_signFor {secret : String} (hsecret : ch.webhookSecret = some secret)
    (h : state.signFor ch body = ⟨200, [], .signed dto⟩) :
    dto.headerName = ch.secretHeader.getD "" ∧
      state.db.ext.renderSignTemplate (ch.secretSignTemplate.getD "\x7b\x7b signature \x7d\x7d")
        (state.db.ext.hmacSha256Hex (utf8Bytes secret) body) = .ok dto.headerValue := by
  unfold signFor at h
  split at h
  · cases h
  · rw [hsecret, Option.getD_some] at h
    dsimp only at h
    split at h
    · cases h
    · rename_i value hvalue
      cases h
      exact ⟨rfl, hvalue⟩

/-- Only a channel that checks signatures has them handed out. -/
theorem secretType_of_signFor (h : state.signFor ch body = ⟨200, [], .signed dto⟩) :
    ch.secretType = .hmacSha256 := by
  by_contra htype
  rw [signFor, if_pos htype] at h
  cases h

end Signed

/-- **A signature that was handed out lets its body in**, and no body of another hash, when the
extract template of the channel reads back what its sign template makes of a digest, and no other
channel has its name. -/
theorem signed_bodies_are_admitted (state : AppState)
    (hconfig : state.config.validateConfig state.db.ext = .ok ()) {channel : String}
    {ch : WebhookChannelConfig} (hfind : state.config.findChannelByName channel = some ch)
    (hone : ∀ ch' ∈ state.config.channels, ch'.name = channel → ch' = ch)
    (hreads : ∀ mac value, state.db.ext.renderSignTemplate
        (ch.secretSignTemplate.getD "\x7b\x7b signature \x7d\x7d") (hexEncode mac) = .ok value →
        ReadsBack state.db.ext ch.secretExtractTemplate (hexEncode mac) value)
    {headers : HeaderMap} {signed : Bytes} {dto : SignResponseDto}
    (hsigned : state.signWebhookRoute channel headers signed =
      .pure ⟨200, [], .signed dto⟩) {headers' : HeaderMap}
    (hcarries : headers'.getStr dto.headerName = some dto.headerValue.toList)
    (clientIp : IpAddr) (body : Bytes) :
    ∃ secret, ch.webhookSecret = some secret ∧
      (state.checkRequest clientIp channel headers' body = .ok () ↔
        ch.isIpAllowed state.db.ext clientIp = true ∧ state.validateBody ch headers' body = .ok () ∧
          state.db.ext.hmacSha256 (utf8Bytes secret) body =
            state.db.ext.hmacSha256 (utf8Bytes secret) signed) := by
  obtain ⟨ch', hch', hsign⟩ : ∃ ch', state.authorizeSign headers channel = .ok ch' ∧
      state.signFor ch' signed = ⟨200, [], .signed dto⟩ := by
    unfold signWebhookRoute orRespond at hsigned
    cases hauthorized : state.authorizeSign headers channel with
    | error response =>
        obtain ⟨status, text, rfl⟩ := exists_text_of_authorizeSign hauthorized
        rw [hauthorized] at hsigned
        cases hsigned
    | ok ch' =>
        rw [hauthorized] at hsigned
        exact ⟨ch', rfl, CallProgram.pure.inj hsigned⟩
  obtain ⟨hmem, hname⟩ := mem_of_authorizeSign hch'
  obtain rfl := hone ch' hmem hname
  have htype := secretType_of_signFor hsign
  obtain ⟨⟨secret, hsecret⟩, header, hheader⟩ :=
    exists_secret_of_validateConfig hconfig hmem htype
  obtain ⟨hsame, hrender⟩ := renderSignTemplate_of_signFor hsecret hsign
  rw [hsame, hheader, Option.getD_some] at hcarries
  exact ⟨secret, hsecret, checkRequest_of_signature hfind ⟨htype, hsecret, hheader⟩ hcarries
    (hreads _ _ hrender) clientIp⟩

/-! ## A keyed hash -/

end AppState

/-- The libraries of the template engine with a hash that tells bodies apart, and a codec that
also reads the empty list. -/
def External.keyed : External :=
  { External.templated with
    hmacSha256 := fun key body => key ++ body
    fromSlice := fun body =>
      if body = [123, 125] then .ok (.object [])
      else if body = [91, 93] then .ok (.array [])
      else .error "expected value" }

/-- The sign template that puts a prefix before the signature. -/
def prefixedTemplate : String := "sha256=\x7b\x7b signature \x7d\x7d"

/-- The extract template that takes the prefix away. -/
def unprefixedTemplate : String :=
  "\x7b\x7b raw | replace(from=\"sha256=\", to=\"\") \x7d\x7d"

theorem External.renderSignTemplate_keyed (signature : String) :
    External.keyed.renderSignTemplate prefixedTemplate signature =
      .ok ("sha256=" ++ signature) := by
  have hparse : PlainTemplate.parse prefixedTemplate =
      .ok ("sha256=".toList.map TemplatePiece.char ++ [.ref "signature"]) := by
    decide +kernel
  have hrender : PlainTemplate.renderAll [("signature", signature)]
      ("sha256=".toList.map TemplatePiece.char ++ [.ref "signature"]) =
        .ok ("sha256=" ++ signature).toList := by
    simp [PlainTemplate.renderAll, TemplatePiece.render, Except.map]
  show PlainTemplate.oneOff prefixedTemplate [("signature", signature)] = _
  rw [PlainTemplate.oneOff, hparse]
  dsimp only
  rw [hrender, Except.map, String.ofList_toList]

/-- No digit is a letter of the prefix. -/
theorem not_mem_hexEncode (mac : Bytes) : 's' ∉ (hexEncode mac).toList := by
  have hall : ∀ m : Fin 16, hexDigit m ≠ 's' := by decide
  intro hmem
  rw [hexEncode, String.toList_ofList] at hmem
  obtain ⟨b, -, hdigit⟩ := List.mem_flatMap.mp hmem
  have hb := b.toNat_lt
  rcases List.mem_pair.mp hdigit with hhigh | hlow
  · exact hall ⟨b.toNat / 16, by omega⟩ hhigh.symm
  · exact hall ⟨b.toNat % 16, by omega⟩ hlow.symm

/-- **The documented pair of templates fits**: the prefix that one puts before a digest the other
one takes away. -/
theorem External.readsBack_keyed (mac : Bytes) :
    ReadsBack External.keyed (some unprefixedTemplate) (hexEncode mac)
      ("sha256=" ++ hexEncode mac) := by
  have hparse : PlainTemplate.parse unprefixedTemplate =
      .ok [.replaced "raw" "sha256=".toList []] := by
    decide +kernel
  have hreplaced : replaceFrom "sha256=".toList [] 0 ("sha256=" ++ hexEncode mac).toList =
      (hexEncode mac).toList := by
    rw [String.toList_append, replaceFrom_append (by decide), List.nil_append]
    exact replaceFrom_of_not_mem _ _ (not_mem_hexEncode mac)
  refine ⟨hexEncode mac, ?_, rfl⟩
  show PlainTemplate.oneOff unprefixedTemplate [("raw", "sha256=" ++ hexEncode mac)] = _
  rw [PlainTemplate.oneOff, hparse]
  simp only [PlainTemplate.renderAll, TemplatePiece.render, List.lookup_cons, beq_self_eq_true,
    hreplaced, Except.map, List.append_nil, String.ofList_toList]

namespace AppState

/-- A service that checks what comes in, hands out signatures and signs its forwards, with a keyed
hash and the documented templates. -/
def keyed : AppState where
  config :=
    { AppConfig.small with
      channels :=
        [⟨"orders", "orders-token", some "key", some "x-hub-signature", .hmacSha256,
          some unprefixedTemplate, some prefixedTemplate,
          some ⟨"http://target/hook", 60, 200, 15, some "x-signature", none,
            some prefixedTemplate, none⟩, none, none, true, none⟩] }
  db := ⟨External.keyed, LockRetryPolicy.default⟩

/-- The headers of a caller of the sign route. -/
def tokenHeaders : HeaderMap :=
  [("authorization", HeaderValue.ofText "Bearer orders-token".toList)]

/-- The headers of a delivery with this signature. -/
def signatureHeaders (name signature : String) : HeaderMap :=
  [("content-type", HeaderValue.ofText "application/json".toList),
    (name, HeaderValue.ofText signature.toList)]

/-- The signature handed out for one body lets it in and keeps another one out. -/
theorem signed_bodies_are_admitted_keyed :
    let headers := signatureHeaders "x-hub-signature"
      ("sha256=" ++ hexEncode [107, 101, 121, 123, 125])
    keyed.checkRequest (.v4 0) "orders" headers [123, 125] = .ok () ∧
      keyed.checkRequest (.v4 0) "orders" headers [91, 93] ≠ .ok () := by
  dsimp only
  have hreads : ∀ mac value,
      External.keyed.renderSignTemplate prefixedTemplate (hexEncode mac) = .ok value →
        ReadsBack External.keyed (some unprefixedTemplate) (hexEncode mac) value := by
    intro mac value hvalue
    rw [External.renderSignTemplate_keyed] at hvalue
    obtain rfl := Except.ok.inj hvalue
    exact External.readsBack_keyed mac
  have hsigned : keyed.signWebhookRoute "orders" tokenHeaders [123, 125] =
      .pure ⟨200, [], .signed ⟨hexEncode [107, 101, 121, 123, 125], "x-hub-signature",
        "sha256=" ++ hexEncode [107, 101, 121, 123, 125]⟩⟩ := by
    have hbearer : ((tokenHeaders.get "Authorization").bind HeaderValue.toStr).bind (fun v =>
        ("Bearer ".toList.isPrefixOf? v).map String.ofList) = some "orders-token" := by
      decide +kernel
    have hmac : External.keyed.hmacSha256Hex (utf8Bytes "key") [123, 125] =
        hexEncode [107, 101, 121, 123, 125] := by
      decide +kernel
    have hrender := External.renderSignTemplate_keyed (hexEncode [107, 101, 121, 123, 125])
    rw [← hmac] at hrender ⊢
    unfold signWebhookRoute authorizeSign
    rw [hbearer]
    unfold signFor
    dsimp only [keyed, AppConfig.findChannelByToken]
    simp [orRespond, hrender]
  have hcarries : (signatureHeaders "x-hub-signature"
      ("sha256=" ++ hexEncode [107, 101, 121, 123, 125])).getStr "x-hub-signature" =
        some ("sha256=" ++ hexEncode [107, 101, 121, 123, 125]).toList := by
    decide +kernel
  have hadmits := signed_bodies_are_admitted keyed (Except.eq_ok_of_toBool (by decide +kernel))
    rfl (fun ch hch _ => List.mem_singleton.mp hch) hreads hsigned hcarries (.v4 0)
  obtain ⟨secret, hsecret, hiff⟩ := hadmits [123, 125]
  obtain ⟨secret', hsecret', hiff'⟩ := hadmits [91, 93]
  cases hsecret
  cases hsecret'
  refine ⟨hiff.mpr ⟨rfl, Except.eq_ok_of_toBool (by decide +kernel), rfl⟩, fun h => ?_⟩
  exact absurd (hiff'.mp h).2.2 (by decide +kernel)

/-! ## Forwards that are received -/

/-- The request arrives: under each of its names stands the first value that was sent, when that
is text. -/
def Arrives (headers : HeaderMap) (request : HttpRequest) : Prop :=
  ∀ name value, (request.valuesOf (HeaderMap.lowerName name)).head? = some value →
    (∀ c ∈ value.toList, HeaderValue.IsTextChar c) → headers.getStr name = some value.toList

/-- A request whose headers are sent as they are arrives. -/
theorem arrives_of_sent (request : HttpRequest) :
    Arrives (request.headers.map fun header =>
      (HeaderMap.lowerName header.1, HeaderValue.ofText header.2.toList)) request := by
  intro name value hfirst htext
  have hline : (request.headers.find? fun header =>
      HeaderMap.lowerName header.1 = HeaderMap.lowerName name).map Prod.snd = some value := by
    rw [← hfirst, HttpRequest.valuesOf, List.head?_map, List.head?_filter]
  obtain ⟨header, hheader, rfl⟩ := Option.map_eq_some_iff.mp hline
  unfold HeaderMap.getStr HeaderMap.get
  rw [List.find?_map]
  have hsame : ((fun line : String × HeaderValue => decide (line.1 = HeaderMap.lowerName name)) ∘
      fun header : String × String =>
        (HeaderMap.lowerName header.1, HeaderValue.ofText header.2.toList)) =
      fun header => decide (HeaderMap.lowerName header.1 = HeaderMap.lowerName name) := rfl
  rw [hsame, hheader]
  exact HeaderValue.toStr_ofText htext

section Forwards

variable {state : AppState} {fw : Forwarder} {webhook : Webhook} {request : HttpRequest}
  {signHeader secret : String}

/-- What a forwarder that signs builds. -/
theorem exists_signedForward (hfw : fw ∈ state.forwarders)
    (hsign : fw.cfg.signHeader = some signHeader)
    (hsecret : fw.cfg.signSecret.or fw.webhookSecret = some secret)
    (hbuild : fw.buildRequest webhook = some request) :
    ∃ value, signedAs state.db.ext fw.cfg.signTemplate
        (state.db.ext.hmacSha256Hex (utf8Bytes secret) webhook.payload) = some value ∧
      SignedForward fw.cfg webhook signHeader value request := by
  rw [forwarders_eq] at hfw
  obtain ⟨ch, -, hch⟩ := List.mem_filterMap.mp hfw
  obtain ⟨fwd, -, rfl⟩ := Option.map_eq_some_iff.mp hch
  have hsign' : fwd.signHeader = some signHeader := hsign
  have hsecret' : fwd.signSecret.or ch.webhookSecret = some secret := hsecret
  rw [buildRequest_forwarderOf, signedRequest, hsign'] at hbuild
  obtain ⟨value, hvalue, rfl⟩ := Option.map_eq_some_iff.mp hbuild
  refine ⟨value, ?_, signedForward_forwardRequest hsign value webhook⟩
  rw [signatureValue, hsecret', Option.bind_some] at hvalue
  show signedAs state.db.ext fwd.signTemplate _ = some value
  cases htemplate : fwd.signTemplate with
  | none =>
      rw [htemplate] at hvalue
      exact hvalue
  | some template =>
      rw [htemplate] at hvalue
      exact hvalue

/-- The only value under the name of the signature header is the signature. -/
theorem valuesOf_signHeader {value : String}
    (h : SignedForward fw.cfg webhook signHeader value request)
    (hname : HeaderMap.lowerName signHeader ≠ "content-type") :
    request.valuesOf (HeaderMap.lowerName signHeader) = [value] := by
  obtain ⟨copied, hheaders, hcopied⟩ := h.headers
  have hlower : HeaderMap.lowerName "content-type" = "content-type" := by decide +kernel
  have hnone : (copied.filter fun header =>
      HeaderMap.lowerName header.1 = HeaderMap.lowerName signHeader) = [] := by
    refine List.filter_eq_nil_iff.mpr fun header hheader hsame => ?_
    have hdiffers := (hcopied header hheader).2
    rw [eqIgnoreAsciiCase, decide_eq_false_iff_not] at hdiffers
    exact hdiffers (of_decide_eq_true hsame).symm
  unfold HttpRequest.valuesOf
  rw [hheaders, List.filter_append, List.filter_cons_of_neg (by simpa [hlower] using Ne.symm hname),
    hnone]
  simp

/-- The first content type is the one of the service. -/
theorem head?_valuesOf_contentType {value : String}
    (h : SignedForward fw.cfg webhook signHeader value request) :
    (request.valuesOf (HeaderMap.lowerName "content-type")).head? = some "application/json" := by
  obtain ⟨copied, hheaders, -⟩ := h.headers
  unfold HttpRequest.valuesOf
  rw [hheaders, List.cons_append, List.filter_cons_of_pos (by simp), List.map_cons, List.head?_cons]

end Forwards

/-- A body is looked at for its size and its syntax when the content type is right. -/
theorem validateBody_eq_ok {state : AppState} {ch : WebhookChannelConfig} {headers : HeaderMap}
    (htype : headers.getStr "content-type" = some "application/json".toList) (body : Bytes) :
    state.validateBody ch headers body = .ok () ↔
      body.length ≤ ch.maxBodySize.getD state.config.defaultBodyLimit ∧
        ∃ json, state.db.ext.fromSlice body = .ok json := by
  have hjson : "application/json".toList.isPrefixOf
      ((headers.getStr "content-type").getD []) = true := by
    rw [htype]
    decide +kernel
  unfold validateBody
  rw [hjson]
  split
  · rename_i hlong
    simp [not_le.mpr hlong]
  · rename_i hfits
    rw [if_neg (by simp)]
    cases state.db.ext.fromSlice body <;> simp [not_lt.mp hfits]

/-- **What one instance forwards another one lets in.**  When the forwarder of one instance signs
with the secret, the header and a template that the channel of another one checks, the other
instance lets the forwarded body in, if it allows the sender and the size, and no body of another
hash under the same headers. -/
theorem forwards_are_admitted (sender receiver : AppState)
    (hext : receiver.db.ext = sender.db.ext) {fw : Forwarder} (hfw : fw ∈ sender.forwarders)
    {signHeader secret : String} (hsign : fw.cfg.signHeader = some signHeader)
    (hname : HeaderMap.lowerName signHeader ≠ "content-type")
    (hsecret : fw.cfg.signSecret.or fw.webhookSecret = some secret) {webhook : Webhook}
    {request : HttpRequest} (hbuild : fw.buildRequest webhook = some request) {channel : String}
    {ch : WebhookChannelConfig} (hfind : receiver.config.findChannelByName channel = some ch)
    {header : String} (hch : ch.ChecksSignature secret header)
    (hheader : HeaderMap.lowerName header = HeaderMap.lowerName signHeader)
    (hreads : ∀ mac value,
      signedAs sender.db.ext fw.cfg.signTemplate (hexEncode mac) = some value →
        (∀ c ∈ value.toList, HeaderValue.IsTextChar c) ∧
          ReadsBack sender.db.ext ch.secretExtractTemplate (hexEncode mac) value)
    {headers : HeaderMap} (harrives : Arrives headers request) (clientIp : IpAddr) (body : Bytes) :
    receiver.checkRequest clientIp channel headers body = .ok () ↔
      ch.isIpAllowed receiver.db.ext clientIp = true ∧
        body.length ≤ ch.maxBodySize.getD receiver.config.defaultBodyLimit ∧
        (∃ json, receiver.db.ext.fromSlice body = .ok json) ∧
          sender.db.ext.hmacSha256 (utf8Bytes secret) body =
            sender.db.ext.hmacSha256 (utf8Bytes secret) webhook.payload := by
  obtain ⟨value, hvalue, hsigned⟩ := exists_signedForward hfw hsign hsecret hbuild
  obtain ⟨htext, hback⟩ := hreads _ _ hvalue
  have hcarries : headers.getStr header = some value.toList := by
    refine harrives header value ?_ htext
    rw [hheader, valuesOf_signHeader hsigned hname]
    rfl
  have htype : headers.getStr "content-type" = some "application/json".toList :=
    harrives _ _ (head?_valuesOf_contentType hsigned) (HeaderValue.isTextChar_of_all (by decide))
  rw [← hext] at hback
  rw [checkRequest_of_signature hfind hch hcarries hback clientIp, validateBody_eq_ok htype, hext,
    and_assoc]

/-- A service that takes in what the keyed one forwards. -/
def keyedInbox : AppState :=
  { keyed with
    config :=
      { AppConfig.small with
        channels :=
          [⟨"inbox", "inbox-token", some "key", some "X-Signature", .hmacSha256,
            some unprefixedTemplate, none, none, none, none, true, none⟩] } }

/-- What the forwarder of one service signs the other one lets in, with this body only. -/
theorem forwards_are_admitted_keyed :
    ∃ fw ∈ keyed.forwarders, ∃ request,
      fw.buildRequest (Webhook.new "orders" StringMap.empty [123, 125] 0) = some request ∧
      let headers := request.headers.map fun header =>
        (HeaderMap.lowerName header.1, HeaderValue.ofText header.2.toList)
      keyedInbox.checkRequest (.v4 0) "inbox" headers [123, 125] = .ok () ∧
        keyedInbox.checkRequest (.v4 0) "inbox" headers [91, 93] ≠ .ok () := by
  have hrenders : ∀ mac value,
      signedAs External.keyed (some prefixedTemplate) (hexEncode mac) = some value →
        (∀ c ∈ value.toList, HeaderValue.IsTextChar c) ∧
          ReadsBack External.keyed (some unprefixedTemplate) (hexEncode mac) value := by
    intro mac value hvalue
    rw [signedAs, External.renderSignTemplate_keyed] at hvalue
    obtain rfl := Option.some.inj hvalue
    refine ⟨fun c hc => ?_, External.readsBack_keyed mac⟩
    rw [String.toList_append] at hc
    rcases List.mem_append.mp hc with hprefix | hdigit
    · exact HeaderValue.isTextChar_of_all (by decide) c hprefix
    · exact isTextChar_hexEncode mac c hdigit
  have hone : keyed.forwarders.length = 1 := by decide +kernel
  obtain ⟨fw, hall⟩ := List.length_eq_one_iff.mp hone
  have hfw : fw ∈ keyed.forwarders := hall ▸ List.mem_singleton_self fw
  have hbuilds : ∀ fw ∈ keyed.forwarders, (fw.buildRequest
      (Webhook.new "orders" StringMap.empty [123, 125] 0)).isSome := by
    decide +kernel
  obtain ⟨request, hbuild⟩ := Option.isSome_iff_exists.mp (hbuilds fw hfw)
  obtain rfl : keyed.forwarderOf _ _ = fw := List.singleton_inj.mp hall
  have hfind : keyedInbox.config.findChannelByName "inbox" =
      some ⟨"inbox", "inbox-token", some "key", some "X-Signature", .hmacSha256,
        some unprefixedTemplate, none, none, none, none, true, none⟩ := rfl
  have hadmits := forwards_are_admitted keyed keyedInbox rfl hfw rfl (by decide +kernel) rfl
    hbuild hfind ⟨rfl, rfl, rfl⟩ (by decide +kernel) hrenders (arrives_of_sent request) (.v4 0)
  refine ⟨_, hfw, request, hbuild, (hadmits [123, 125]).mpr ⟨rfl, by decide +kernel, ⟨_, rfl⟩, rfl⟩,
    fun h => ?_⟩
  exact absurd ((hadmits [91, 93]).mp h).2.2.2 (by decide +kernel)

end AppState
