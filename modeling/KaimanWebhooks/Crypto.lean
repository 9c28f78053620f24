/-
# Third-party functions and the signing helpers

`External` gathers what the service takes from libraries that are not part of it: the
floating-point unit, the keyed hash, the template engine, the network parser, the JSON
codec, and the checks of the HTTP client on what it is asked to send.  Everything else
is computed by the definitions of this development.
-/
import KaimanWebhooks.Webhook
import KaimanWebhooks.IpAddr

/-- The functions the service calls but does not define. -/
structure External where
  /-- the floating-point unit -/
  float : FloatModel
  /-- how a floating-point number is printed -/
  showF64 : F64 → String
  /-- HMAC-SHA256 of a body under a secret -/
  hmacSha256 : Bytes → Bytes → Bytes
  /-- the template engine: render a template in a context of variables, as far as the outcome is
  given by these, which leaves out templates that ask for the time or for a random number -/
  teraOneOff : String → List (String × String) → Except String String
  /-- the template engine: parse a template -/
  teraParse : String → Except String Unit
  /-- `str::parse::<IpNet>`, a network by its membership test -/
  parseIpNet : String → Option (IpAddr → Bool)
  /-- `serde_json::from_slice::<Value>` -/
  fromSlice : Bytes → Except String Json
  /-- `serde_json::to_string` of a string map -/
  encodeHeaders : StringMap → Except String String
  /-- `serde_json::from_str` into a string map -/
  decodeHeaders : String → Except String StringMap
  /-- what the HTTP client makes of a redirect -/
  redirects : RedirectPolicy
  /-- what the HTTP client objects to in a request, before anything is sent -/
  requestError : HttpRequest → Option String

/-! ## Text as bytes -/

/-- The UTF-8 bytes of a text. -/
def utf8Bytes (s : String) : Bytes := s.toUTF8.toList

/-- The lower-case hexadecimal digit of a number below sixteen. -/
def hexDigit (n : ℕ) : Char := Char.ofNat (if n < 10 then 48 + n else 87 + n)

/-- `hex::encode`. -/
def hexEncode (bytes : Bytes) : String :=
  String.ofList (bytes.flatMap fun b => [hexDigit (b.toNat / 16), hexDigit (b.toNat % 16)])

/-! ## Signatures -/

namespace External

variable (ext : External)

/-- The signature of a body, in hexadecimal digits. -/
def hmacSha256Hex (secret body : Bytes) : String := hexEncode (ext.hmacSha256 secret body)

/-- Render a template whose only variable is `raw`. -/
def renderExtractTemplate (template raw : String) : Except String String :=
  ext.teraOneOff template [("raw", raw)]

/-- Render a template whose only variable is `signature`.  Templates that call `now()` or
`get_random()` are left out: what they render to is not given by the signature. -/
def renderSignTemplate (template signature : String) : Except String String :=
  ext.teraOneOff template [("signature", signature)]

def validateTemplate (template : String) : Except String Unit := ext.teraParse template

end External

/-- Whether two hexadecimal signatures agree.  Letters outside ASCII never become a
hexadecimal digit in lower case, so ASCII lower case decides. -/
def verifyHmacHex (expected actual : String) : Bool :=
  HeaderMap.lowerName expected = HeaderMap.lowerName actual

/-! ## Plain libraries -/

/-- The libraries as they behave in the smallest runs: exact arithmetic, empty header maps,
JSON bodies that are the empty object, templates without variables, absolute locations. -/
def External.plain : External where
  float := FloatModel.exact
  showF64 := fun _ => ""
  hmacSha256 := fun _ _ => []
  teraOneOff := fun template _ => .ok template
  teraParse := fun _ => .ok ()
  parseIpNet := fun _ => none
  fromSlice := fun body => if body = [123, 125] then .ok (.object []) else .error "expected value"
  encodeHeaders := fun _ => .ok "\x7b\x7d"
  decodeHeaders := fun _ => .ok StringMap.empty
  redirects :=
    ⟨fun _ location => (HeaderValue.toStr location).map fun url => .ok (String.ofList url),
      fun _ _ => "error following redirect"⟩
  requestError := fun _ => none
