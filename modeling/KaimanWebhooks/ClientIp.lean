/-
# The address of a client behind a proxy

The middleware takes the address of a client from the headers when the connection comes
from a trusted proxy: the first element of `X-Forwarded-For`, then `X-Real-IP`, then the
address of the connection.  A proxy appends the address it sees at the end of the list, so
the first element is the client's own word (`client_ip_kept_iff`).
-/
import KaimanWebhooks.Config

namespace ClientIpExtractor

/-! ## The middleware -/

/-- Not empty, not too long, and an address. -/
def isValidIpFormat (ipStr : List Char) : Bool :=
  if ipStr.isEmpty || 45 < Text.byteLength ipStr then false else (IpAddr.parse ipStr).isSome

/-- The first element of a comma-separated list. -/
def parseForwardedFor (headerValue : List Char) : Option IpAddr :=
  (Text.split ',' headerValue).head?.bind fun ipStr =>
    let trimmed := Text.trim ipStr
    if isValidIpFormat trimmed then IpAddr.parse trimmed else none

section Extractor

variable (ext : External)

def matchesIpOrCidr (ip : IpAddr) (pattern : String) : Bool :=
  match IpAddr.parse pattern.toList with
  | some patternIp => ip = patternIp
  | none =>
      match ext.parseIpNet pattern with
      | some contains => contains ip
      | none => false

def isTrustedProxy (connectionIp : IpAddr) (trustedProxies : List String) : Bool :=
  trustedProxies.any fun trusted => matchesIpOrCidr ext connectionIp trusted

/-- The address in `X-Forwarded-For`. -/
def forwardedIp (headers : HeaderMap) : Option IpAddr :=
  (headers.getStr "x-forwarded-for").bind parseForwardedFor

/-- The address in `X-Real-IP`. -/
def realIp (headers : HeaderMap) : Option IpAddr :=
  (headers.getStr "x-real-ip").bind fun headerValue => IpAddr.parse (Text.trim headerValue)

def extractClientIp (headers : HeaderMap) (connectionIp : IpAddr) (trustedProxies : List String) :
    IpAddr :=
  if !(!trustedProxies.isEmpty && isTrustedProxy ext connectionIp trustedProxies) then connectionIp
  else
    match forwardedIp headers with
    | some firstIp => firstIp
    | none =>
        match realIp headers with
        | some ip => ip
        | none => connectionIp

end Extractor

/-! ## What the first element is -/

/-- The format check rejects no address. -/
theorem isValidIpFormat_iff {cs : List Char} :
    isValidIpFormat cs = true ↔ (IpAddr.parse cs).isSome = true := by
  unfold isValidIpFormat
  split_ifs with h
  · refine iff_of_false id fun hsome => ?_
    obtain ⟨ip, hip⟩ := Option.isSome_iff_exists.mp hsome
    rw [Bool.or_eq_true, decide_eq_true_eq, List.isEmpty_iff] at h
    rcases h with rfl | hlong
    · cases hip
    · have hlen := IpAddr.byteLength_le_of_parse hip
      omega
  · exact Iff.rfl

/-- The address before the first comma, without the whitespace around it. -/
theorem parseForwardedFor_eq (value : List Char) :
    parseForwardedFor value = IpAddr.parse (Text.trim (value.takeWhile (· ≠ ','))) := by
  unfold parseForwardedFor
  rw [Text.head?_split, Option.bind_some]
  dsimp only
  split_ifs with hvalid
  · rfl
  · rw [isValidIpFormat_iff, Option.not_isSome_iff_eq_none] at hvalid
    exact hvalid.symm

/-- What follows a comma does not count. -/
theorem parseForwardedFor_append (value rest : List Char) :
    parseForwardedFor (value ++ ',' :: rest) = parseForwardedFor value := by
  rw [parseForwardedFor_eq, parseForwardedFor_eq]
  congr 2
  induction value with
  | nil => rfl
  | cons c value ih =>
      by_cases hc : c = ','
      · simp [hc]
      · simpa [hc] using ih

theorem parseForwardedFor_of_parse {text : List Char} {ip : IpAddr}
    (h : IpAddr.parse text = some ip) : parseForwardedFor text = some ip := by
  have hall : text.takeWhile (· ≠ ',') = text := by
    refine List.takeWhile_eq_self_iff.mpr fun c hc => ?_
    have haddress := IpAddr.isAddressChar_of_parse h c hc
    rw [decide_eq_true_eq]
    rintro rfl
    cases haddress
  rw [parseForwardedFor_eq, hall, IpAddr.trim_of_parse h, h]

/-! ## A proxy in between -/

/-- The value a proxy forwards: the client's address appended to what the client sent. -/
def appended (sent : Option HeaderValue) (client : List Char) : HeaderValue :=
  match sent with
  | none => HeaderValue.ofText client
  | some value => value ++ HeaderValue.ofText (", ".toList ++ client)

/-- The headers a proxy forwards. -/
def throughProxy (sent : Option HeaderValue) (client : List Char) (others : HeaderMap) :
    HeaderMap :=
  ("x-forwarded-for", appended sent client) :: others

/-- The address the client put first. -/
def claimedIp (value : HeaderValue) : Option IpAddr := value.toStr.bind parseForwardedFor

/-- The client put nothing in the way of its address: it sent no list, it put its own address
first, or it put no address first and `X-Real-IP` has the right one. -/
def Undisputed (others : HeaderMap) (client : IpAddr) (sent : Option HeaderValue) : Prop :=
  ∀ value, sent = some value →
    claimedIp value = some client ∨ (claimedIp value = none ∧ realIp others = some client)

section Proxy

variable {ext : External} {trusted : List String} {peer client : IpAddr} {text : List Char}
  (htext : IpAddr.parse text = some client) {others : HeaderMap}

include htext

theorem isTextChar_of_parse : ∀ c ∈ text, HeaderValue.IsTextChar c := by
  intro c hc
  have hbounds := IpAddr.isAddressChar_bounds (IpAddr.isAddressChar_of_parse htext c hc)
  exact Or.inl ⟨by omega, by omega⟩

/-- The forwarded list starts with what the client claimed, or is the client's address. -/
theorem forwardedIp_throughProxy (sent : Option HeaderValue) :
    forwardedIp (throughProxy sent text others) =
      match sent with
      | none => some client
      | some value => claimedIp value := by
  have hget : forwardedIp (throughProxy sent text others) =
      (appended sent text).toStr.bind parseForwardedFor := by
    simp [forwardedIp, throughProxy, HeaderMap.getStr, HeaderMap.get, HeaderMap.lowerName]
  have hclient := isTextChar_of_parse htext
  rw [hget]
  cases sent with
  | none =>
      rw [appended, HeaderValue.toStr_ofText hclient, Option.bind_some]
      exact parseForwardedFor_of_parse htext
  | some value =>
      have hsuffix : ∀ c ∈ ", ".toList ++ text, HeaderValue.IsTextChar c := by
        intro c hc
        rcases List.mem_append.mp hc with hc | hc
        · rcases List.mem_cons.mp hc with rfl | hc
          · exact Or.inl (by decide)
          · rw [List.mem_singleton.mp hc]
            exact Or.inl (by decide)
        · exact hclient c hc
      rw [appended, HeaderValue.toStr_append, HeaderValue.toStr_ofText hsuffix]
      dsimp only [claimedIp]
      cases value.toStr with
      | none => rfl
      | some front => exact parseForwardedFor_append front (' ' :: text)

/-- **Whose word decides**: the client's claim, then the other header, then the proxy. -/
theorem extractClientIp_throughProxy (hpeer : isTrustedProxy ext peer trusted = true)
    (sent : Option HeaderValue) :
    extractClientIp ext (throughProxy sent text others) peer trusted =
      match sent with
      | none => client
      | some value => ((claimedIp value).or (realIp others)).getD peer := by
  have hnonempty : trusted.isEmpty = false := by
    cases trusted with
    | nil => cases hpeer
    | cons entry trusted => rfl
  have hreal : realIp (throughProxy sent text others) = realIp others := by
    simp [realIp, throughProxy, HeaderMap.getStr, HeaderMap.get, HeaderMap.lowerName]
  unfold extractClientIp
  rw [hpeer, hnonempty, hreal, forwardedIp_throughProxy htext]
  cases sent with
  | none => rfl
  | some value =>
      dsimp only
      cases claimedIp value <;> cases realIp others <;> rfl

variable (hpeer : isTrustedProxy ext peer trusted = true)
  (hclient : isTrustedProxy ext client trusted = false)

include hpeer hclient

/-- The extracted address is the client's exactly when the client's claim is no obstacle. -/
theorem extractClientIp_eq_client_iff (sent : Option HeaderValue) :
    extractClientIp ext (throughProxy sent text others) peer trusted = client ↔
      Undisputed others client sent := by
  have hne : peer ≠ client := by
    rintro rfl
    rw [hpeer] at hclient
    cases hclient
  rw [extractClientIp_throughProxy htext hpeer]
  unfold Undisputed
  cases sent with
  | none => simp
  | some value =>
      simp only [Option.some.injEq, forall_eq']
      cases claimedIp value <;> cases realIp others <;> simp [hne]

/-- **When a client cannot choose its address.**  Whatever two lists a client behind a
trusted proxy sends, its own address is extracted in both runs, with one verdict for every
channel, exactly when neither list puts something else in its place. -/
theorem client_ip_kept_iff (sent₁ sent₂ : Option HeaderValue) :
    let ip := fun sent => extractClientIp ext (throughProxy sent text others) peer trusted
    (ip sent₁ = client ∧ ip sent₂ = client ∧
        ∀ ch : WebhookChannelConfig,
          ch.isIpAllowed ext (ip sent₁) = ch.isIpAllowed ext (ip sent₂)) ↔
      Undisputed others client sent₁ ∧ Undisputed others client sent₂ := by
  intro ip
  rw [← extractClientIp_eq_client_iff htext hpeer hclient sent₁,
    ← extractClientIp_eq_client_iff htext hpeer hclient sent₂]
  constructor
  · rintro ⟨h₁, h₂, -⟩
    exact ⟨h₁, h₂⟩
  · rintro ⟨h₁, h₂⟩
    refine ⟨h₁, h₂, fun ch => ?_⟩
    show ch.isIpAllowed ext (extractClientIp _ _ _ _) = ch.isIpAllowed ext (extractClientIp _ _ _ _)
    rw [h₁, h₂]

end Proxy

/-- A client behind a proxy that claims another address in its request is not taken for itself. -/
theorem client_ip_kept_iff_spoofed :
    let ip := fun sent => extractClientIp External.plain
      (throughProxy sent "203.0.113.50".toList []) (.v4 0x0A000001#32) ["10.0.0.1"]
    ¬(ip none = .v4 0xCB007132#32 ∧
      ip (some (HeaderValue.ofText "198.51.100.7".toList)) = .v4 0xCB007132#32 ∧
      ∀ ch : WebhookChannelConfig, ch.isIpAllowed External.plain (ip none) =
        ch.isIpAllowed External.plain (ip (some (HeaderValue.ofText "198.51.100.7".toList)))) := by
  intro ip h
  have hboth := (client_ip_kept_iff (by decide +kernel) (by decide +kernel) (by decide +kernel) none
    (some (HeaderValue.ofText "198.51.100.7".toList))).mp h
  have hclaimed := hboth.2 _ rfl
  revert hclaimed
  decide +kernel

/-- **A client behind a proxy chooses its address**: the one it puts first is taken. -/
theorem spoofed_ip_is_taken :
    ¬∀ (ext : External) (trusted : List String) (peer client : IpAddr) (text : List Char)
      (others : HeaderMap), isTrustedProxy ext peer trusted = true →
      isTrustedProxy ext client trusted = false → IpAddr.parse text = some client →
      ∀ sent₁ sent₂, extractClientIp ext (throughProxy sent₁ text others) peer trusted =
        extractClientIp ext (throughProxy sent₂ text others) peer trusted := by
  intro hclaim
  have hsame := hclaim External.plain ["10.0.0.1"] (.v4 0x0A000001#32) (.v4 0xCB007132#32)
    "203.0.113.50".toList [] (by decide +kernel) (by decide +kernel) (by decide +kernel) none
    (some (HeaderValue.ofText "198.51.100.7".toList))
  revert hsame
  decide +kernel

end ClientIpExtractor
