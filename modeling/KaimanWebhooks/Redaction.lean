/-
# Headers in an error report

An error report carries the headers of the request it is about.  The values of headers whose name
says that they hold a secret are left out, and so are those of the headers the channels are
configured to read a secret from or to put a signature in.  The configured names are arbitrary
texts; a lookup of such a name ignores its case, and the report has to follow it.
-/
import KaimanWebhooks.Config
import KaimanWebhooks.Text
import Mathlib.Data.List.Destutter
import Mathlib.Data.List.Infix
import Mathlib.Data.List.ReduceOption
import Mathlib.Data.String.Basic

/-! ## Maps in the order of their keys -/

/-- A map by its entries, which stand in the order of their keys. -/
structure OrderedMap (κ ν : Type) [LinearOrder κ] where
  entries : List (κ × ν)
  sorted : (entries.map Prod.fst).Pairwise (· < ·)

namespace OrderedMap

variable {κ ν : Type} [LinearOrder κ]

def empty : OrderedMap κ ν := ⟨[], List.Pairwise.nil⟩

/-- Put an entry in its place; one with the same key is replaced. -/
def insertEntry (key : κ) (value : ν) : List (κ × ν) → List (κ × ν)
  | [] => [(key, value)]
  | entry :: rest =>
      if key < entry.1 then (key, value) :: entry :: rest
      else if key = entry.1 then (key, value) :: rest
      else entry :: insertEntry key value rest

/-- What is there after an insertion was inserted or was there before. -/
theorem mem_insertEntry {key : κ} {value : ν} {entries : List (κ × ν)} {entry : κ × ν}
    (h : entry ∈ insertEntry key value entries) : entry = (key, value) ∨ entry ∈ entries := by
  induction entries with
  | nil => exact Or.inl (List.mem_singleton.mp h)
  | cons first rest ih =>
      rw [insertEntry] at h
      split at h
      · exact List.mem_cons.mp h
      · split at h
        · exact (List.mem_cons.mp h).imp_right (List.mem_cons_of_mem first)
        · rcases List.mem_cons.mp h with rfl | h
          · exact Or.inr List.mem_cons_self
          · exact (ih h).imp_right (List.mem_cons_of_mem first)

theorem sorted_insertEntry {key : κ} {value : ν} {entries : List (κ × ν)}
    (h : (entries.map Prod.fst).Pairwise (· < ·)) :
    ((insertEntry key value entries).map Prod.fst).Pairwise (· < ·) := by
  induction entries with
  | nil => exact List.pairwise_singleton _ key
  | cons first rest ih =>
      have hsorted := h
      rw [List.map_cons, List.pairwise_cons] at h
      obtain ⟨hfirst, hrest⟩ := h
      rw [insertEntry]
      split
      · rename_i hlt
        refine List.pairwise_cons.mpr ⟨fun k hk => ?_, hsorted⟩
        rcases List.mem_cons.mp hk with rfl | hk
        · exact hlt
        · exact hlt.trans (hfirst k hk)
      · split
        · rename_i hkey
          subst hkey
          exact List.pairwise_cons.mpr ⟨hfirst, hrest⟩
        · rename_i hlt hkey
          refine List.pairwise_cons.mpr ⟨fun k hk => ?_, ih hrest⟩
          obtain ⟨entry, hentry, rfl⟩ := List.mem_map.mp hk
          rcases mem_insertEntry hentry with rfl | hentry
          · exact lt_of_le_of_ne (not_lt.mp hlt) (Ne.symm hkey)
          · exact hfirst _ (List.mem_map_of_mem hentry)

def insert (m : OrderedMap κ ν) (key : κ) (value : ν) : OrderedMap κ ν :=
  ⟨insertEntry key value m.entries, sorted_insertEntry m.sorted⟩

/-- Collecting entries: the last value under a key stays. -/
def collect (entries : List (κ × ν)) : OrderedMap κ ν :=
  entries.foldl (fun m entry => m.insert entry.1 entry.2) empty

/-- Every entry of a collected map is one of those it was collected from. -/
theorem mem_of_mem_collect {entries : List (κ × ν)} {entry : κ × ν}
    (h : entry ∈ (collect entries).entries) : entry ∈ entries := by
  have hfold : ∀ m : OrderedMap κ ν,
      entry ∈ (entries.foldl (fun m entry => m.insert entry.1 entry.2) m).entries →
        entry ∈ m.entries ∨ entry ∈ entries := by
    clear h
    induction entries with
    | nil => exact fun m h => Or.inl h
    | cons first rest ih =>
        intro m h
        rcases ih (m.insert first.1 first.2) h with h | h
        · rcases mem_insertEntry h with rfl | h
          · exact Or.inr List.mem_cons_self
          · exact Or.inl h
        · exact Or.inr (List.mem_cons_of_mem first h)
  exact (hfold empty h).resolve_left List.not_mem_nil

end OrderedMap

/-! ## Names and lines -/

/-- Visible ASCII without the capital letters: the characters of a header name, which the HTTP
library keeps in lower case. -/
def isHeaderNameChar (c : Char) : Bool := 33 ≤ c.toNat && c.toNat < 127 && !c.isUpper

/-- The name of a header as the HTTP library holds it. -/
@[ext] structure HeaderName where
  text : String
  valid : (text ≠ "" && text.toList.all isHeaderNameChar) = true
  deriving DecidableEq

/-- A line of a header map.  A value can be marked as sensitive by who made it. -/
structure HeaderLine where
  name : HeaderName
  value : HeaderValue
  isSensitive : Bool
  deriving DecidableEq

/-- Lower case beyond ASCII is data of the standard library; on ASCII texts it is the lower case
of every letter. -/
structure Lowercase where
  /-- `str::to_lowercase` -/
  toLowercase : String → String
  ascii : ∀ s : String, (∀ c ∈ s.toList, c.toNat < 128) → toLowercase s = HeaderMap.lowerName s

/-- The lower case of ASCII letters, which leaves every other letter as it is. -/
def Lowercase.asciiOnly : Lowercase := ⟨HeaderMap.lowerName, fun _ _ => rfl⟩

/-! ## Which headers are sensitive -/

def redactedValue : String := "[redacted]"

def nonUtf8Value : String := "[non-utf8]"

/-- A name that contains one of these marks a header as sensitive. -/
def sensitiveHeaderMarkers : List String :=
  ["auth", "cookie", "key", "password", "secret", "sign", "token"]

/-- The headers a channel is configured to read a secret from and to put a signature in. -/
def WebhookChannelConfig.secretHeaders (channel : WebhookChannelConfig) : List String :=
  [channel.secretHeader, channel.forward.bind fun forward => forward.signHeader].reduceOption

section Redaction

variable (lower : Lowercase)

/-- The configured names in lower case, in order and each once. -/
def collectSensitiveHeaders (channels : List WebhookChannelConfig) : List String :=
  let headers := (channels.flatMap WebhookChannelConfig.secretHeaders).map fun header =>
    lower.toLowercase (String.ofList (Text.trim header.toList))
  ((headers.filter (· ≠ "")).mergeSort (· ≤ ·)).destutter (· ≠ ·)

def isSensitiveHeader (lowercaseName : String) (configuredSensitive : List String) : Bool :=
  if configuredSensitive.any (· = lowercaseName) then true
  else sensitiveHeaderMarkers.any fun marker => marker.toList <:+: lowercaseName.toList

/-- What a report says of a header line. -/
def redactLine (configuredSensitive : List String) (line : HeaderLine) : String × String :=
  let name := lower.toLowercase line.name.text
  if line.isSensitive || isSensitiveHeader name configuredSensitive then (name, redactedValue)
  else (name, (line.value.toStr.map String.ofList).getD nonUtf8Value)

/-- The headers of a report: of a header that is repeated the last line stays. -/
def redactHeaders (headers : List HeaderLine) (configuredSensitive : List String) :
    OrderedMap String String :=
  OrderedMap.collect (headers.map (redactLine lower configuredSensitive))

end Redaction

/-! ## Spelling -/

/-- Lower case moves the capital letters and nothing else. -/
theorem Char.toLower_eq_self_or (c : Char) : c.toLower = c ∨ 65 ≤ c.toNat ∧ c.toNat ≤ 90 := by
  unfold Char.toLower
  split_ifs with h
  · exact Or.inr ⟨UInt32.le_iff_toNat_le.mp h.1, UInt32.le_iff_toNat_le.mp h.2⟩
  · exact Or.inl rfl

theorem isHeaderNameChar_iff {c : Char} :
    isHeaderNameChar c = true ↔ 33 ≤ c.toNat ∧ c.toNat < 127 ∧ ¬(65 ≤ c.toNat ∧ c.toNat ≤ 90) := by
  have hupper : c.isUpper = true ↔ 65 ≤ c.toNat ∧ c.toNat ≤ 90 := by
    show (c.val ≥ 'A'.val ∧ c.val ≤ 'Z'.val : Bool) = true ↔ _
    simp only [decide_eq_true_eq, ge_iff_le, UInt32.le_iff_toNat_le]
    rfl
  simp only [isHeaderNameChar, Bool.and_eq_true, decide_eq_true_eq, Bool.not_eq_true',
    ← Bool.not_eq_true, hupper, and_assoc]

/-- The characters of a text whose lower case is the name of a header are visible ASCII. -/
theorem visible_of_lowerName_eq {text : String} {name : HeaderName}
    (h : HeaderMap.lowerName text = name.text) :
    ∀ c ∈ text.toList, 33 ≤ c.toNat ∧ c.toNat < 127 := by
  intro c hc
  have hlower : c.toLower ∈ name.text.toList := by
    rw [← h, HeaderMap.lowerName, String.toList_ofList]
    exact List.mem_map_of_mem hc
  have hvalid := name.valid
  rw [Bool.and_eq_true, List.all_eq_true] at hvalid
  obtain ⟨hlow, hhigh, -⟩ := isHeaderNameChar_iff.mp (hvalid.2 _ hlower)
  rcases Char.toLower_eq_self_or c with hsame | hupper
  · rw [hsame] at hlow hhigh
    exact ⟨hlow, hhigh⟩
  · omega

namespace HeaderName

variable (name : HeaderName)

theorem text_ne_empty : name.text ≠ "" := by
  have hvalid := name.valid
  rw [Bool.and_eq_true, decide_eq_true_eq] at hvalid
  exact hvalid.1

/-- The name of a header is in lower case. -/
theorem lowerName_text : HeaderMap.lowerName name.text = name.text := by
  have hvalid := name.valid
  rw [Bool.and_eq_true, List.all_eq_true] at hvalid
  have hchar : ∀ c ∈ name.text.toList, c.toLower = id c := by
    intro c hc
    obtain ⟨-, -, hupper⟩ := isHeaderNameChar_iff.mp (hvalid.2 c hc)
    exact (Char.toLower_eq_self_or c).resolve_right hupper
  rw [HeaderMap.lowerName, List.map_congr_left hchar, List.map_id, String.ofList_toList]

theorem toLowercase_text (lower : Lowercase) : lower.toLowercase name.text = name.text := by
  have hascii : ∀ c ∈ name.text.toList, c.toNat < 128 := fun c hc =>
    Nat.lt_trans (visible_of_lowerName_eq name.lowerName_text c hc).2 (by decide)
  rw [lower.ascii _ hascii, lowerName_text]

end HeaderName

/-- **Trimming and lower case read a configured name as a lookup does.**  Whatever the spelling of
a name that a lookup finds, it becomes the name of the header. -/
theorem toLowercase_trim_eq (lower : Lowercase) {configured : String} {name : HeaderName}
    (h : HeaderMap.lowerName configured = name.text) :
    lower.toLowercase (String.ofList (Text.trim configured.toList)) = name.text := by
  have hvisible := visible_of_lowerName_eq h
  have hspace : ∀ c ∈ configured.toList, Text.isWhitespace c = false := by
    intro c hc
    obtain ⟨hlow, hhigh⟩ := hvisible c hc
    simp only [Text.isWhitespace, Bool.or_eq_false_iff, Bool.and_eq_false_iff,
      decide_eq_false_iff_not, beq_eq_false_iff_ne]
    omega
  have htrim : Text.trim configured.toList = configured.toList :=
    Text.trim_eq_self (fun c hc => hspace c (List.mem_of_mem_head? hc))
      fun c hc => hspace c (List.mem_of_mem_getLast? hc)
  rw [htrim, String.ofList_toList, lower.ascii _ fun c hc => by have := hvisible c hc; omega, h]

/-! ## What is redacted -/

/-- The names whose values must not be reported: a marker is in them, or the lookup of a header
some channel reads a secret from or puts a signature in finds a line of that name. -/
def IsSensitiveName (channels : List WebhookChannelConfig) (name : HeaderName) : Prop :=
  (∃ marker ∈ sensitiveHeaderMarkers, marker.toList <:+: name.text.toList) ∨
    ∃ channel ∈ channels, ∃ configured,
      (channel.secretHeader = some configured ∨
        ∃ forward, channel.forward = some forward ∧ forward.signHeader = some configured) ∧
      ∀ value, HeaderMap.get [(name.text, value)] configured = some value

/-- Dropping repetitions that stand next to each other loses no element. -/
theorem List.mem_destutter_ne {α : Type} [DecidableEq α] {a : α} {l : List α} :
    a ∈ l.destutter (· ≠ ·) ↔ a ∈ l := by
  have hcons : ∀ (b : α) (l : List α), a ∈ b :: l → a ∈ l.destutter' (· ≠ ·) b := by
    intro b l
    induction l generalizing b with
    | nil => exact id
    | cons c l ih =>
        intro h
        rw [List.destutter'_cons]
        split_ifs with hne
        · exact (List.mem_cons.mp h).elim (fun heq => heq ▸ List.mem_cons_self)
            fun hmem => List.mem_cons_of_mem b (ih c hmem)
        · rw [ne_eq, not_not] at hne
          subst hne
          exact ih b (by simpa using h)
  constructor
  · exact fun h => (List.destutter_sublist _ l).subset h
  · cases l with
    | nil => exact id
    | cons b l => exact hcons b l

/-- What is collected: the lower case of every configured name but the empty one. -/
theorem mem_collectSensitiveHeaders (lower : Lowercase) {channels : List WebhookChannelConfig}
    {header : String} :
    header ∈ collectSensitiveHeaders lower channels ↔
      header ≠ "" ∧ ∃ channel ∈ channels, ∃ configured ∈ channel.secretHeaders,
        lower.toLowercase (String.ofList (Text.trim configured.toList)) = header := by
  simp only [collectSensitiveHeaders, List.mem_destutter_ne, List.mem_mergeSort, List.mem_filter,
    List.mem_map, List.mem_flatMap, decide_eq_true_eq]
  constructor
  · rintro ⟨⟨configured, ⟨channel, hchannel, hconfigured⟩, hheader⟩, hne⟩
    exact ⟨hne, channel, hchannel, configured, hconfigured, hheader⟩
  · rintro ⟨hne, channel, hchannel, configured, hconfigured, hheader⟩
    exact ⟨⟨configured, ⟨channel, hchannel, hconfigured⟩, hheader⟩, hne⟩

theorem WebhookChannelConfig.mem_secretHeaders {channel : WebhookChannelConfig}
    {configured : String} :
    configured ∈ channel.secretHeaders ↔ channel.secretHeader = some configured ∨
      ∃ forward, channel.forward = some forward ∧ forward.signHeader = some configured := by
  simp only [WebhookChannelConfig.secretHeaders, List.reduceOption_mem_iff, List.mem_cons,
    List.not_mem_nil, or_false]
  rw [eq_comm, @eq_comm _ (some configured), Option.bind_eq_some_iff]

/-- **Every sensitive name is recognised**, the configured ones whatever their spelling. -/
theorem isSensitiveHeader_of_isSensitiveName (lower : Lowercase)
    {channels : List WebhookChannelConfig} {name : HeaderName}
    (h : IsSensitiveName channels name) :
    isSensitiveHeader name.text (collectSensitiveHeaders lower channels) = true := by
  unfold isSensitiveHeader
  split_ifs with hany
  · rfl
  rcases h with ⟨marker, hmarker, hinfix⟩ | ⟨channel, hchannel, configured, hconfigured, hget⟩
  · exact List.any_eq_true.mpr ⟨marker, hmarker, decide_eq_true hinfix⟩
  · -- a lookup that finds the line has the line's name for its lower case
    have hname : HeaderMap.lowerName configured = name.text := by
      have hfound := hget []
      by_contra hne
      simp [HeaderMap.get, Ne.symm hne] at hfound
    refine absurd (List.any_eq_true.mpr ⟨name.text, ?_, decide_eq_true rfl⟩) hany
    exact (mem_collectSensitiveHeaders lower).mpr ⟨name.text_ne_empty, channel, hchannel,
      configured, WebhookChannelConfig.mem_secretHeaders.mpr hconfigured,
      toLowercase_trim_eq lower hname⟩

/-- **The line of a sensitive name is redacted**, and so is one whose value is marked. -/
theorem redactLine_of_sensitive (lower : Lowercase) {channels : List WebhookChannelConfig}
    {line : HeaderLine} (h : line.isSensitive = true ∨ IsSensitiveName channels line.name) :
    redactLine lower (collectSensitiveHeaders lower channels) line =
      (line.name.text, redactedValue) := by
  unfold redactLine
  rw [HeaderName.toLowercase_text]
  refine if_pos ?_
  rw [Bool.or_eq_true]
  exact h.imp_right (isSensitiveHeader_of_isSensitiveName lower)

/-! ## Two requests that differ in their secrets -/

/-- Two lines that differ at most in the value of a sensitive name. -/
structure SameButSecret (channels : List WebhookChannelConfig) (a b : HeaderLine) : Prop where
  name : a.name = b.name
  isSensitive : a.isSensitive = b.isSensitive
  value : ¬IsSensitiveName channels a.name → a.value = b.value

/-- The report does not tell such lines apart. -/
theorem SameButSecret.redactLine_eq (lower : Lowercase) {channels : List WebhookChannelConfig}
    {a b : HeaderLine} (h : SameButSecret channels a b) :
    redactLine lower (collectSensitiveHeaders lower channels) a =
      redactLine lower (collectSensitiveHeaders lower channels) b := by
  by_cases hsensitive : IsSensitiveName channels a.name
  · rw [redactLine_of_sensitive lower (Or.inr hsensitive),
      redactLine_of_sensitive lower (Or.inr (h.name ▸ hsensitive)), h.name]
  · unfold redactLine
    rw [h.name, h.isSensitive, h.value hsensitive]

/-- **Redaction is complete.**  Two requests whose header lines have the same names and marks in
the same order, and the same values but under sensitive names, are reported alike, however the
channels spell the names of their secrets and however often a header is repeated. -/
theorem redactHeaders_eq_of_sameButSecret (lower : Lowercase)
    (channels : List WebhookChannelConfig) {a b : List HeaderLine}
    (h : List.Forall₂ (SameButSecret channels) a b) :
    redactHeaders lower a (collectSensitiveHeaders lower channels) =
      redactHeaders lower b (collectSensitiveHeaders lower channels) := by
  have hlines : a.map (redactLine lower (collectSensitiveHeaders lower channels)) =
      b.map (redactLine lower (collectSensitiveHeaders lower channels)) := by
    induction h with
    | nil => rfl
    | cons hline _ ih => rw [List.map_cons, List.map_cons, hline.redactLine_eq lower, ih]
  rw [redactHeaders, redactHeaders, hlines]

/-- A channel that reads its secret from a header it spells in capitals. -/
def WebhookChannelConfig.withOriginCheck : WebhookChannelConfig :=
  ⟨"orders", "orders-token", some "s3cret", some "X-Origin-CHECK", .plain, none, none, none, none,
    none, true, none⟩

/-- The lines of a request that sends two values under `x-origin-check`. -/
def HeaderLine.checked (first second : HeaderValue) : List HeaderLine :=
  [⟨⟨"x-origin-check", by decide +kernel⟩, first, false⟩,
    ⟨⟨"accept", by decide +kernel⟩, HeaderValue.ofText "text/html".toList, false⟩,
    ⟨⟨"x-origin-check", by decide +kernel⟩, second, false⟩]

/-- The report of a request is the same whichever values it sends under `x-origin-check`. -/
theorem redactHeaders_checked_eq :
    redactHeaders Lowercase.asciiOnly (HeaderLine.checked [97] [98])
        (collectSensitiveHeaders Lowercase.asciiOnly [WebhookChannelConfig.withOriginCheck]) =
      redactHeaders Lowercase.asciiOnly (HeaderLine.checked [99] [255, 100])
        (collectSensitiveHeaders Lowercase.asciiOnly [WebhookChannelConfig.withOriginCheck]) := by
  have hline : ∀ value value' : HeaderValue,
      SameButSecret [WebhookChannelConfig.withOriginCheck]
        ⟨⟨"x-origin-check", by decide +kernel⟩, value, false⟩
        ⟨⟨"x-origin-check", by decide +kernel⟩, value', false⟩ := by
    refine fun value value' => ⟨rfl, rfl, fun hnot => absurd ?_ hnot⟩
    have hname : HeaderMap.lowerName "X-Origin-CHECK" = "x-origin-check" := by decide +kernel
    refine Or.inr ⟨_, List.mem_singleton_self _, "X-Origin-CHECK", Or.inl rfl, fun v => ?_⟩
    simp [HeaderMap.get, hname]
  exact redactHeaders_eq_of_sameButSecret Lowercase.asciiOnly [.withOriginCheck]
    (.cons (hline [97] [99]) (.cons ⟨rfl, rfl, fun _ => rfl⟩ (.cons (hline [98] [255, 100]) .nil)))

example : (redactHeaders Lowercase.asciiOnly (HeaderLine.checked [97] [98])
    (collectSensitiveHeaders Lowercase.asciiOnly [.withOriginCheck])).entries =
      [("accept", "text/html"), ("x-origin-check", "[redacted]")] := by decide +kernel
