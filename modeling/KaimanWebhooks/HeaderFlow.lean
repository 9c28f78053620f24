/-
# What becomes of a header

The way of a header from the line its sender wrote to the line a target is sent: ignored names
and values that are no text are left out, a map keeps one value under a name, the map is stored
as JSON and read back, and the forwarder puts what is left after a content type of its own.
-/
import KaimanWebhooks.Acceptance
import KaimanWebhooks.Signing

/-! ## The ignored headers -/

/-- The ignored headers as they are read from the environment: the names between the commas,
trimmed and in lower case, each of them once and in order.  `toLowercase` is the lower case of
the standard library. -/
def loadIgnoredHeaders (toLowercase : List Char → List Char) (value : String) : List String :=
  let names := (Text.split ',' value.toList).map fun header => toLowercase (Text.trim header)
  ((names.filter (· ≠ [])).map String.ofList).dedup.insertionSort (· ≤ ·)

/-- The value lists the name, in some spelling. -/
def IsIgnored (toLowercase : List Char → List Char) (value name : String) : Prop :=
  name ≠ "" ∧ ∃ header ∈ Text.split ',' value.toList, toLowercase (Text.trim header) = name.toList

theorem mem_loadIgnoredHeaders {toLowercase : List Char → List Char} {value name : String} :
    name ∈ loadIgnoredHeaders toLowercase value ↔ IsIgnored toLowercase value name := by
  unfold loadIgnoredHeaders IsIgnored
  simp only [List.mem_insertionSort, List.mem_dedup, List.mem_map, List.mem_filter, ne_eq,
    decide_eq_true_eq]
  constructor
  · rintro ⟨_, ⟨⟨header, hheader, rfl⟩, hne⟩, rfl⟩
    refine ⟨fun hempty => hne ?_, header, hheader, ?_⟩
    · simpa using congrArg String.toList hempty
    · rw [String.toList_ofList]
  · rintro ⟨hne, header, hheader, hname⟩
    refine ⟨name.toList, ⟨⟨header, hheader, hname⟩, fun hempty => hne ?_⟩, String.ofList_toList⟩
    rw [← @String.ofList_toList name, hempty]

/-! ## Values under a name -/

/-- The values of the lines with a name. -/
def valuesUnder (name : String) (lines : List (String × String)) : List String :=
  (lines.filter fun line => line.1 = name).map Prod.snd

section ValuesUnder

variable {name : String} {lines : List (String × String)}

@[simp] theorem valuesUnder_nil : valuesUnder name [] = [] := rfl

@[simp] theorem valuesUnder_cons (line : String × String) :
    valuesUnder name (line :: lines) =
      if line.1 = name then line.2 :: valuesUnder name lines else valuesUnder name lines := by
  by_cases h : line.1 = name <;> simp [valuesUnder, h]

@[simp] theorem valuesUnder_append (lines' : List (String × String)) :
    valuesUnder name (lines ++ lines') = valuesUnder name lines ++ valuesUnder name lines' := by
  simp [valuesUnder]

theorem valuesUnder_of_notMem (h : name ∉ lines.map Prod.fst) : valuesUnder name lines = [] := by
  rw [valuesUnder, List.map_eq_nil_iff, List.filter_eq_nil_iff]
  intro line hline hname
  rw [decide_eq_true_eq] at hname
  exact h (hname ▸ List.mem_map_of_mem hline)

end ValuesUnder

namespace StringMap

variable {name key value : String}

/-- Replacing the value under a key leaves that one value under it. -/
theorem valuesUnder_setValue_self {entries : List (String × String)}
    (hnodup : (entries.map Prod.fst).Nodup) (hkey : key ∈ entries.map Prod.fst) :
    valuesUnder key (setValue key value entries) = [value] := by
  induction entries with
  | nil => simp at hkey
  | cons entry entries ih =>
      obtain ⟨k, v⟩ := entry
      obtain ⟨hnot, hrest⟩ := List.nodup_cons.mp hnodup
      rw [setValue]
      by_cases hk : k = key
      · subst hk
        rw [if_pos rfl, valuesUnder_cons, if_pos rfl, valuesUnder_of_notMem hnot]
      · rw [if_neg hk, valuesUnder_cons, if_neg hk]
        refine ih hrest ?_
        simpa [Ne.symm hk] using hkey

theorem valuesUnder_setValue_of_ne {entries : List (String × String)} (hne : key ≠ name) :
    valuesUnder name (setValue key value entries) = valuesUnder name entries := by
  induction entries with
  | nil => rfl
  | cons entry entries ih =>
      obtain ⟨k, v⟩ := entry
      rw [setValue]
      by_cases hk : k = key
      · subst hk
        simp [hne]
      · rw [if_neg hk, valuesUnder_cons, valuesUnder_cons, ih]

theorem valuesUnder_insert (m : StringMap) :
    valuesUnder name (m.insert key value).entries =
      if key = name then [value] else valuesUnder name m.entries := by
  unfold insert
  by_cases hkey : key ∈ m.entries.map Prod.fst
  · rw [dif_pos hkey]
    by_cases hname : key = name
    · subst hname
      rw [if_pos rfl]
      exact valuesUnder_setValue_self m.nodup hkey
    · rw [if_neg hname]
      exact valuesUnder_setValue_of_ne hname
  · rw [dif_neg hkey, valuesUnder_append]
    by_cases hname : key = name
    · subst hname
      simp [valuesUnder_of_notMem hkey]
    · simp [hname]

theorem collect_concat (lines : List (String × String)) (line : String × String) :
    collect (lines ++ [line]) = (collect lines).insert line.1 line.2 := by
  simp [collect]

/-- **A collected map keeps the last value under a name.** -/
theorem valuesUnder_collect (lines : List (String × String)) :
    valuesUnder name (collect lines).entries = (valuesUnder name lines).getLast?.toList := by
  induction lines using List.reverseRecOn with
  | nil => rfl
  | append_singleton lines line ih =>
      rw [collect_concat, valuesUnder_insert, valuesUnder_append, valuesUnder_cons, ih]
      by_cases hname : line.1 = name <;> simp [hname]

theorem mem_setValue {entries : List (String × String)} {entry : String × String}
    (h : entry ∈ setValue key value entries) : entry = (key, value) ∨ entry ∈ entries := by
  induction entries with
  | nil => cases h
  | cons first entries ih =>
      obtain ⟨k, v⟩ := first
      rw [setValue] at h
      split_ifs at h with hk
      · rcases List.mem_cons.mp h with rfl | h
        · exact Or.inl (by rw [hk])
        · exact Or.inr (List.mem_cons_of_mem _ h)
      · rcases List.mem_cons.mp h with rfl | h
        · exact Or.inr List.mem_cons_self
        · exact (ih h).imp_right (List.mem_cons_of_mem _)

/-- What a collected map holds was among the entries. -/
theorem mem_of_mem_collect {lines : List (String × String)} {entry : String × String}
    (h : entry ∈ (collect lines).entries) : entry ∈ lines := by
  induction lines using List.reverseRecOn with
  | nil => cases h
  | append_singleton lines line ih =>
      rw [collect_concat, insert] at h
      rw [List.mem_append, List.mem_singleton]
      split_ifs at h with hkey
      · exact (mem_setValue h).elim Or.inr fun hmem => Or.inl (ih hmem)
      · exact (List.mem_append.mp h).imp ih List.mem_singleton.mp

end StringMap

/-! ## What is sent of what was received -/

namespace HeaderMap

/-- Lower case does not change what is in lower case. -/
@[simp] theorem lowerName_lowerName (name : String) :
    lowerName (lowerName name) = lowerName name := by
  have hchar : ∀ c : Char, c.toLower.toLower = c.toLower := by
    intro c
    unfold Char.toLower
    split_ifs with h h'
    · -- a letter moved past the upper-case ones cannot be one of them
      exfalso
      obtain ⟨hA, hZ⟩ := h
      obtain ⟨-, hZ'⟩ := h'
      have hmoved : (c.val + ('a'.val - 'A'.val)).toNat = (c.val.toNat + 32) % 2 ^ 32 :=
        UInt32.toNat_add _ _
      have hA' : 65 ≤ c.val.toNat := UInt32.le_iff_toNat_le.mp hA
      have hZ₁ : c.val.toNat ≤ 90 := UInt32.le_iff_toNat_le.mp hZ
      have hZ₂ : (c.val + ('a'.val - 'A'.val)).toNat ≤ 90 := UInt32.le_iff_toNat_le.mp hZ'
      omega
    · rfl
    · rfl
  unfold lowerName
  rw [String.toList_ofList, List.map_map]
  congr 1
  exact List.map_congr_left fun c _ => hchar c

/-- The values received under a name. -/
def valuesOf (headers : HeaderMap) (name : String) : List HeaderValue :=
  (headers.filter fun line => lowerName line.1 = name).map Prod.snd

/-- The last of the values received under a name that are text. -/
def lastText (headers : HeaderMap) (name : String) : Option String :=
  (((headers.valuesOf name).filterMap HeaderValue.toStr).getLast?).map String.ofList

end HeaderMap

/-- The values a request carries under a name. -/
def HttpRequest.valuesOf (request : HttpRequest) (name : String) : List String :=
  (request.headers.filter fun header => HeaderMap.lowerName header.1 = name).map Prod.snd

/-- A forwarded request is faithful to what was received, as far as one value under a name
allows: the body as it was; under every name that is neither ignored nor the service's own the
last text received; of the ignored names only those of the content type and the signature; and
one content type when that name is ignored. -/
structure FaithfulTo (isIgnored : String → Prop) (signHeader : Option String)
    (headers : HeaderMap) (body : Bytes) (request : HttpRequest) : Prop where
  body : request.body = body
  kept : ∀ name, ¬isIgnored name → name ≠ "content-type" →
    (∀ h, signHeader = some h → HeaderMap.lowerName h ≠ name) →
      request.valuesOf name = (headers.lastText name).toList
  ignored : ∀ header ∈ request.headers, isIgnored (HeaderMap.lowerName header.1) →
    header = ("content-type", "application/json") ∨ signHeader = some header.1
  contentType : isIgnored "content-type" →
    (∀ h, signHeader = some h → HeaderMap.lowerName h ≠ "content-type") →
      request.valuesOf "content-type" = ["application/json"]

namespace AppState

section Flow

variable {state : AppState} {headers : HeaderMap} {name : String}

/-- The lines the stored map is collected from. -/
def textLines (state : AppState) (headers : HeaderMap) : List (String × String) :=
  headers.filterMap fun line =>
    let key := HeaderMap.lowerName line.1
    if state.config.ignoredHeaders.contains key then none
    else line.2.toStr.map fun value => (key, String.ofList value)

theorem forwardedHeaders_eq : state.forwardedHeaders headers =
    StringMap.collect (state.textLines headers) := rfl

theorem mem_textLines {entry : String × String} (h : entry ∈ state.textLines headers) :
    HeaderMap.lowerName entry.1 = entry.1 ∧ entry.1 ∉ state.config.ignoredHeaders := by
  obtain ⟨line, -, hline⟩ := List.mem_filterMap.mp h
  dsimp only at hline
  split_ifs at hline with hignored
  obtain ⟨value, -, rfl⟩ := Option.map_eq_some_iff.mp hline
  refine ⟨HeaderMap.lowerName_lowerName _, fun hmem => hignored ?_⟩
  simpa using hmem

/-- Under a name that is not ignored the lines hold what was received as text. -/
theorem valuesUnder_textLines (hname : name ∉ state.config.ignoredHeaders) :
    valuesUnder name (state.textLines headers) =
      ((headers.valuesOf name).filterMap HeaderValue.toStr).map String.ofList := by
  unfold textLines HeaderMap.valuesOf
  induction headers with
  | nil => rfl
  | cons line headers ih =>
      rw [List.filterMap_cons, List.filter_cons]
      by_cases hline : HeaderMap.lowerName line.1 = name
      · have hnot : state.config.ignoredHeaders.contains (HeaderMap.lowerName line.1) = false := by
          rw [hline]
          simpa using hname
        simp only [hnot, Bool.false_eq_true, if_false]
        cases hvalue : line.2.toStr with
        | none => simpa [hline, hvalue] using ih
        | some value => simpa [hline, hvalue] using ih
      · split
        · simpa [hline] using ih
        · rename_i entry hentry
          dsimp only at hentry
          split_ifs at hentry with hignored
          obtain ⟨value, -, rfl⟩ := Option.map_eq_some_iff.mp hentry
          simpa [hline] using ih

/-- The map that is stored keeps the last text under a name. -/
theorem valuesUnder_forwardedHeaders (hname : name ∉ state.config.ignoredHeaders) :
    valuesUnder name (state.forwardedHeaders headers).entries =
      (headers.lastText name).toList := by
  rw [forwardedHeaders_eq, StringMap.valuesUnder_collect, valuesUnder_textLines hname,
    List.getLast?_map]
  rfl

/-- The order in which a map is met does not matter for the one value under a name. -/
theorem valuesUnder_of_sameEntries {m : StringMap}
    (hsame : (state.forwardedHeaders headers).SameEntries m)
    (hname : name ∉ state.config.ignoredHeaders) :
    valuesUnder name m.entries = (headers.lastText name).toList := by
  have hperm : (valuesUnder name (state.forwardedHeaders headers).entries).Perm
      (valuesUnder name m.entries) := (List.Perm.filter _ hsame).map _
  rw [valuesUnder_forwardedHeaders hname] at hperm
  cases hlast : headers.lastText name with
  | none =>
      rw [hlast] at hperm
      exact hperm.symm.eq_nil
  | some value =>
      rw [hlast] at hperm
      exact List.perm_singleton.mp hperm.symm

/-- A stored header has a name in lower case that is not ignored. -/
theorem stored_name {m : StringMap} (hsame : (state.forwardedHeaders headers).SameEntries m)
    {entry : String × String} (h : entry ∈ m.entries) :
    HeaderMap.lowerName entry.1 = entry.1 ∧ entry.1 ∉ state.config.ignoredHeaders :=
  mem_textLines (StringMap.mem_of_mem_collect (hsame.mem_iff.mpr h))

/-- The copied headers under a name that is neither ignored nor the signature's. -/
theorem values_isForwarded {m : StringMap} {signHeader : Option String}
    (hsame : (state.forwardedHeaders headers).SameEntries m)
    (hname : name ∉ state.config.ignoredHeaders)
    (hsign : ∀ h, signHeader = some h → HeaderMap.lowerName h ≠ name) :
    ((m.entries.filter fun header =>
        isForwarded state.config.ignoredHeaders signHeader header.1).filter fun header =>
      HeaderMap.lowerName header.1 = name).map Prod.snd = (headers.lastText name).toList := by
  rw [← valuesUnder_of_sameEntries hsame hname, List.filter_filter, valuesUnder]
  congr 1
  refine List.filter_congr fun entry hentry => ?_
  rw [(stored_name hsame hentry).1]
  by_cases hentryName : entry.1 = name
  · subst hentryName
    have hforwarded : isForwarded state.config.ignoredHeaders signHeader entry.1 = true := by
      simp only [isForwarded, List.contains_eq_mem, hname, decide_false, Bool.not_false,
        Bool.true_and, Bool.not_eq_true', Option.any_eq_false]
      intro h hh
      have hne := hsign h hh
      rw [← (stored_name hsame hentry).1] at hne
      simpa [eqIgnoreAsciiCase] using hne
    simp [hforwarded]
  · simp [hentryName]

/-- A signature is not under any other name. -/
theorem filter_signature_eq_nil {signature : Option (String × String)}
    (hsign : ∀ h, signature.map Prod.fst = some h → HeaderMap.lowerName h ≠ name) :
    (signature.toList.filter fun header => HeaderMap.lowerName header.1 = name) = [] := by
  cases signature with
  | none => rfl
  | some header => simp [hsign header.1 rfl]

end Flow

/-- **A forward request is faithful to the headers it was stored with.** -/
theorem faithfulTo_forwardRequest {state : AppState} {headers : HeaderMap} {body : Bytes}
    {fwd : WebhookForwardConfig} {signature : Option (String × String)} {webhook : Webhook}
    (hsignature : signature.map Prod.fst = fwd.signHeader)
    (hsame : (state.forwardedHeaders headers).SameEntries webhook.headers)
    (hbody : webhook.payload = body) :
    FaithfulTo (· ∈ state.config.ignoredHeaders) fwd.signHeader headers body
      (forwardRequest state.config.ignoredHeaders fwd signature webhook) := by
  refine ⟨hbody, ?_, ?_, ?_⟩
  · intro name hname hown hsign
    have hvalues := values_isForwarded hsame hname hsign
    simp only [HttpRequest.valuesOf, forwardRequest, forwardHeaders, List.cons_append,
      List.filter_cons, List.filter_append, filter_signature_eq_nil (hsignature ▸ hsign),
      List.append_nil]
    rw [if_neg, hvalues]
    have hlower : HeaderMap.lowerName "content-type" = "content-type" := by decide +kernel
    simpa [hlower] using Ne.symm hown
  · intro header hheader hignored
    rcases List.mem_append.mp hheader with hheader | hheader
    · rcases List.mem_cons.mp hheader with rfl | hheader
      · exact Or.inl rfl
      · obtain ⟨hstored, -⟩ := List.mem_filter.mp hheader
        obtain ⟨hlower, hnot⟩ := stored_name hsame hstored
        rw [hlower] at hignored
        exact absurd hignored hnot
    · rw [Option.mem_toList] at hheader
      rw [← hsignature, hheader]
      exact Or.inr rfl
  · intro hignored hsign
    have hlower : HeaderMap.lowerName "content-type" = "content-type" := by decide +kernel
    simp only [HttpRequest.valuesOf, forwardRequest, forwardHeaders, List.cons_append,
      List.filter_cons, List.filter_append, filter_signature_eq_nil (hsignature ▸ hsign),
      List.append_nil, hlower,
      decide_true, if_true, List.map_cons, List.cons.injEq, true_and, List.map_eq_nil_iff,
      List.filter_eq_nil_iff]
    intro entry hentry hname
    obtain ⟨hstored, -⟩ := List.mem_filter.mp hentry
    obtain ⟨hlower', hnot⟩ := stored_name hsame hstored
    rw [decide_eq_true_eq, hlower'] at hname
    exact hnot (hname ▸ hignored)

/-- What a forwarder of the service builds is a forward request. -/
theorem exists_forwardRequest_of_buildRequest {state : AppState} {fw : Forwarder}
    (hfw : fw ∈ state.forwarders) {webhook : Webhook} {request : HttpRequest}
    (hbuild : fw.buildRequest webhook = some request) :
    ∃ signature : Option (String × String), signature.map Prod.fst = fw.cfg.signHeader ∧
      request = forwardRequest state.config.ignoredHeaders fw.cfg signature webhook := by
  rw [forwarders_eq] at hfw
  obtain ⟨ch, -, hch⟩ := List.mem_filterMap.mp hfw
  obtain ⟨fwd, -, rfl⟩ := Option.map_eq_some_iff.mp hch
  rw [buildRequest_forwarderOf, signedRequest] at hbuild
  show ∃ signature : Option (String × String), signature.map Prod.fst = fwd.signHeader ∧
    request = forwardRequest state.config.ignoredHeaders fwd signature webhook
  cases hsign : fwd.signHeader with
  | none =>
      rw [hsign] at hbuild
      exact ⟨none, rfl, (Option.some.inj hbuild).symm⟩
  | some signHeader =>
      rw [hsign] at hbuild
      obtain ⟨value, -, rfl⟩ := Option.map_eq_some_iff.mp hbuild
      exact ⟨some (signHeader, value), rfl, rfl⟩

/-- **Forwarding is faithful, one value under a name.**  In every run, whatever a forwarder
builds for the row an accepted request was stored in has the body of that request and, under
every name that is neither ignored nor the service's own, the last text received under it. -/
theorem forwarding_faithful (state : AppState) {toLowercase : List Char → List Char}
    {value : String} (hloaded : state.config.ignoredHeaders = loadIgnoredHeaders toLowercase value)
    {s : ServiceState} (h : state.machine.Reaches (fun _ _ => True) state.initial s)
    {e : ServiceEntry} (he : e ∈ s.history) {clientIp : IpAddr} {channel : String}
    {headers : HeaderMap} {body : Bytes}
    (hjob : e.job = .request (.receive clientIp channel headers body)) {id : ℤ} {c : Content}
    (hstored : storedRow e.done = some (id, c))
    (hjson : state.db.ext.RoundTrips (state.forwardedHeaders headers)) {row : Row}
    (hrow : row ∈ s.shared.table.rows) (hid : row.id = id) {webhook : Webhook}
    (hparse : parseWebhookRow state.db.ext row = some webhook) {fw : Forwarder}
    (hfw : fw ∈ state.forwarders) {request : HttpRequest}
    (hbuild : fw.buildRequest webhook = some request) :
    FaithfulTo (IsIgnored toLowercase value) fw.cfg.signHeader headers body request := by
  obtain ⟨accepted, receivedAt, ⟨clientIp', channel', headers', body', hjob', haccepted⟩, hc⟩ :=
    receivedBy_of_stored h he hstored
  cases hjob.symm.trans hjob'
  have hledger := ledger_of_reaches h
  -- the row under this id has the content of the accepted request
  have hcontent : row.content = contentOf state accepted := by
    have hmem : (id, c) ∈ storedRows s := List.mem_filterMap.mpr ⟨e, he, hstored⟩
    have hmem' := hledger.stored row hrow
    rw [hid] at hmem'
    rw [hledger.content_eq hmem' hmem, hc]
  obtain ⟨-, hpayload, -, hheaders⟩ := keptAs_of_content hcontent hparse
  rw [haccepted] at hpayload hheaders
  obtain ⟨signature, hsignature, rfl⟩ := exists_forwardRequest_of_buildRequest hfw hbuild
  have hignored : (· ∈ state.config.ignoredHeaders) = IsIgnored toLowercase value := by
    funext name
    rw [hloaded]
    exact propext mem_loadIgnoredHeaders
  rw [← hignored]
  exact faithfulTo_forwardRequest hsignature (hheaders hjson) hpayload

/-! ## Two values under one name -/

/-- A map as JSON, for texts without quotes and backslashes. -/
def plainJson (m : StringMap) : String :=
  "\x7b" ++ String.intercalate "," (m.entries.map fun (key, value) =>
    "\"" ++ key ++ "\":\"" ++ value ++ "\"") ++ "\x7d"

/-- The libraries on two maps of headers. -/
def flowExternal : External :=
  { External.plain with
    encodeHeaders := fun m => .ok (plainJson m)
    decodeHeaders := fun json =>
      if json = "\x7b\"x-a\":\"2\"\x7d" then .ok (StringMap.collect [("x-a", "2")])
      else if json = "\x7b\"content-type\":\"application/json; charset=utf-8\"," ++
          "\"x-a\":\"2\"\x7d" then
        .ok (StringMap.collect
          [("content-type", "application/json; charset=utf-8"), ("x-a", "2")])
      else .error "unexpected" }

/-- A forward target with a signature header. -/
def flowForward : WebhookForwardConfig :=
  ⟨"http://target/hook", 60, 200, 15, some "X-Signature", none, none, none⟩

def flowChannel : WebhookChannelConfig :=
  ⟨"orders", "orders-token", some "key", none, .plain, none, none, some flowForward, none, none,
    true, none⟩

/-- The service of one channel, with the headers to ignore. -/
def flowState (ignoredHeaders : String) : AppState where
  config :=
    { AppConfig.small with
      channels := [flowChannel]
      ignoredHeaders := loadIgnoredHeaders (List.map Char.toLower) ignoredHeaders }
  db := ⟨flowExternal, LockRetryPolicy.default⟩

/-- Two values under one name. -/
def repeatedHeaders (contentType : String) : HeaderMap :=
  [("content-type", HeaderValue.ofText contentType.toList), ("x-a", HeaderValue.ofText ['1']),
    ("x-a", HeaderValue.ofText ['2'])]

def receiveRepeated (headers : HeaderMap) : Request := .receive (.v4 0) "orders" headers [123, 125]

/-- A service that ignores the content type, and what it stores and sends of two values. -/
def keptState : AppState := flowState "Content-Type, X-Signature"

def keptReceive : Request := receiveRepeated (repeatedHeaders "application/json")

def keptWebhook : Webhook :=
  Webhook.new "orders" (StringMap.collect [("x-a", "2")]) [123, 125] 1000

def keptRequest : HttpRequest :=
  ⟨.post, "http://target/hook", 15,
    [("content-type", "application/json"), ("x-a", "2"), ("X-Signature", "")], [123, 125]⟩

/-- Of two lines of one name the second one is stored and sent on; the content type and the
signature are ignored and set by the forwarder. -/
theorem forwarding_faithful_repeated :
    keptRequest.valuesOf "x-a" = ["2"] ∧
      FaithfulTo (IsIgnored (List.map Char.toLower) "Content-Type, X-Signature")
        (some "X-Signature") (repeatedHeaders "application/json") [123, 125] keptRequest := by
  have hrun : ∃ s, keptState.machine.runEvents keptState.initial
      (ServiceEvent.task (.request keptReceive) 0
        (List.replicate 3 (Input.calm 1000 200))) = some s ∧
      (∃ e ∈ s.history, e.job = .request keptReceive ∧
        storedRow e.done = some (1, contentOf keptState keptWebhook)) ∧
      ∃ row ∈ s.shared.table.rows, row.id = 1 ∧
        parseWebhookRow keptState.db.ext row = some { keptWebhook with id := some 1 } := by
    decide +kernel
  obtain ⟨s, hs, ⟨e, he, hjob, hstored⟩, row, hrow, hid, hparse⟩ := hrun
  have hreaches : keptState.machine.Reaches (fun _ _ => True) keptState.initial s :=
    TaskMachine.reaches_of_runEvents hs fun _ _ _ => trivial
  have hforwarded : keptState.forwardedHeaders (repeatedHeaders "application/json") =
      StringMap.collect [("x-a", "2")] := by
    decide +kernel
  have hjson : keptState.db.ext.RoundTrips
      (keptState.forwardedHeaders (repeatedHeaders "application/json")) := by
    rw [hforwarded]
    exact ⟨"\x7b\"x-a\":\"2\"\x7d", _, by decide +kernel, rfl, List.Perm.refl _⟩
  have hbuild : (keptState.forwarderOf flowChannel flowForward).buildRequest
      { keptWebhook with id := some 1 } = some keptRequest := by
    decide +kernel
  exact ⟨by decide +kernel, forwarding_faithful keptState rfl hreaches he hjob hstored hjson hrow
    hid hparse (List.mem_singleton_self (keptState.forwarderOf flowChannel flowForward)) hbuild⟩

/-- Two values under one name, a value that is no text, and a content type with a parameter. -/
def lossyHeaders : HeaderMap :=
  repeatedHeaders "application/json; charset=utf-8" ++ [("x-b", [255])]

def lossyState : AppState := flowState "X-Signature"

/-- The headers are received, and then the forwarder sends them on. -/
def lossyEvents : List ServiceEvent :=
  ServiceEvent.task (.request (receiveRepeated lossyHeaders)) 0
      (List.replicate 3 (Input.calm 1000 200)) ++
    ServiceEvent.task (.refresh 0) 1 (List.replicate 3 (Input.calm 1000 200)) ++
    ServiceEvent.task (.cycle 0) 2 (List.replicate 5 (Input.calm 1001 200))

/-- The headers of the requests that were sent. -/
def sentHeaders (s : ServiceState) : List (List (String × String)) :=
  s.history.filterMap fun e =>
    match e.call with
    | .send _ request => some request.headers
    | _ => none

/-- **What is forwarded is less than what was received, and more**: of two values under one name
the last is sent, a value that is no text is not, a content type that is not ignored is sent as a
second one, and so is the signature under a name that is ignored. -/
theorem forwarding_changes_headers :
    lossyHeaders.valuesOf "x-a" = [HeaderValue.ofText ['1'], HeaderValue.ofText ['2']] ∧
      lossyHeaders.valuesOf "x-b" = [[255]] ∧
      ∃ s, lossyState.machine.runEvents lossyState.initial lossyEvents = some s ∧
        sentHeaders s =
          [[("content-type", "application/json"),
            ("content-type", "application/json; charset=utf-8"), ("x-a", "2"),
            ("X-Signature", "")]] := by
  decide +kernel

end AppState
