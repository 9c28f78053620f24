/-
# Do the configured tokens work?

A channel token is meant for the channel it is configured for, and the UI token for every
channel.  Three things decide whether they do their work: what is left of the token when it
arrives in a header and whether that can be read as text, that the first channel which has the
token so read has the right name, and that no channel has the UI token.  The startup checks look
at none of them.
-/
import KaimanWebhooks.Authorization
import Mathlib.Data.List.DropRight

/-! ## Texts as header values -/

namespace HeaderValue

/-- The bytes a header value can hold: of the control characters only the tab. -/
def isLegal (b : UInt8) : Bool := (32 ≤ b && b != 127) || b == 9

/-- Some header value holds the text. -/
def Sendable (s : String) : Prop := ∀ b ∈ utf8Bytes s, isLegal b = true

/-- The bytes that are no part of a value where they stand around it. -/
def isBlank (b : UInt8) : Bool := b == 32 || b == 9

/-- The value a server reads: that of the line without the blanks around it. -/
def arrives (value : HeaderValue) : HeaderValue := (value.dropWhile isBlank).rdropWhile isBlank

/-- The space or the tab. -/
def isBlankChar (c : Char) : Bool := c == ' ' || c == '\t'

/-- What arrives of a text that comes last in a header line. -/
def presented (s : String) : String := String.ofList (s.toList.rdropWhile isBlankChar)

/-- The text survives being read as a header value. -/
def IsText (s : String) : Prop := ∀ c ∈ s.toList, IsTextChar c

instance (s : String) : Decidable (IsText s) :=
  List.decidableBAll IsTextChar s.toList

theorem isLegal_of_isVisibleAscii {b : UInt8} (h : isVisibleAscii b = true) :
    isLegal b = true := by
  simp only [isVisibleAscii, Bool.or_eq_true, Bool.and_eq_true, decide_eq_true_eq,
    UInt8.lt_iff_toNat_lt] at h
  simp only [isLegal, Bool.or_eq_true, Bool.and_eq_true, decide_eq_true_eq, bne_iff_ne, ne_eq,
    ← UInt8.toNat_inj]
  exact h.imp_left fun hrange => ⟨hrange.1, Nat.ne_of_lt hrange.2⟩

end HeaderValue

/-- Reading the bytes of an array one by one from a place on gives those that are left. -/
theorem ByteArray.loop_eq_append_drop (bytes : ByteArray) (start : ℕ) (front : List UInt8) :
    ByteArray.toList.loop bytes start front = front.reverse ++ bytes.data.toList.drop start := by
  fun_induction ByteArray.toList.loop bytes start front with
  | case1 start front hinside ih =>
      have hstart : start < bytes.data.toList.length := by simpa using hinside
      have hbyte : bytes.get! start = bytes.data.toList[start] := by
        rw [ByteArray.get!, Array.getElem_toList, getElem!_pos bytes.data start hinside]
      calc ByteArray.toList.loop bytes (start + 1) (bytes.get! start :: front)
          = front.reverse ++ bytes.get! start :: bytes.data.toList.drop (start + 1) := by
            rw [ih, List.reverse_cons, List.append_assoc, List.singleton_append]
        _ = front.reverse ++ bytes.data.toList.drop start := by
            rw [hbyte, ← List.drop_eq_getElem_cons hstart]
  | case2 start front houtside =>
      have hend : bytes.data.toList.length ≤ start := by simpa using houtside
      rw [List.drop_eq_nil_of_le hend, List.append_nil]

/-- The bytes of a text are those of its characters. -/
theorem utf8Bytes_eq (s : String) : utf8Bytes s = s.toList.flatMap String.utf8EncodeChar := by
  have h : s.toUTF8 = (s.toList.flatMap String.utf8EncodeChar).toByteArray :=
    String.utf8Encode_toList.symm
  rw [utf8Bytes, ByteArray.toList, ByteArray.loop_eq_append_drop, h, List.data_toByteArray]
  rfl

theorem utf8EncodeChar_of_lt {c : Char} (h : c.toNat < 128) :
    String.utf8EncodeChar c = [UInt8.ofNat c.toNat] := by
  unfold String.utf8EncodeChar
  exact if_pos (Nat.le_of_lt_succ h)

/-- A character beyond ASCII has no byte of ASCII. -/
theorem le_of_mem_utf8EncodeChar {c : Char} (h : 128 ≤ c.toNat) {b : UInt8}
    (hb : b ∈ String.utf8EncodeChar c) : 128 ≤ b.toNat := by
  have hv : ¬c.val.toNat ≤ 127 := Nat.not_le.mpr h
  unfold String.utf8EncodeChar at hb
  dsimp only at hb
  rw [if_neg hv] at hb
  split at hb
  · simp only [List.mem_cons, List.not_mem_nil, or_false] at hb
    rcases hb with rfl | rfl <;> rw [UInt8.toNat_ofNat'] <;> omega
  · split at hb
    · simp only [List.mem_cons, List.not_mem_nil, or_false] at hb
      rcases hb with rfl | rfl | rfl <;> rw [UInt8.toNat_ofNat'] <;> omega
    · simp only [List.mem_cons, List.not_mem_nil, or_false] at hb
      rcases hb with rfl | rfl | rfl | rfl <;> rw [UInt8.toNat_ofNat'] <;> omega

namespace HeaderValue

/-- Text is read back from its bytes. -/
theorem toStr_utf8Bytes {s : String} (h : IsText s) : toStr (utf8Bytes s) = some s.toList := by
  have hbytes : utf8Bytes s = ofText s.toList := by
    rw [utf8Bytes_eq, ofText, List.map_eq_flatMap]
    refine List.flatMap_congr fun c hc => utf8EncodeChar_of_lt ?_
    rcases h c hc with hchar | hchar <;> omega
  rw [hbytes, toStr_ofText h]

/-- What is not text is not read back. -/
theorem toStr_utf8Bytes_of_not {s : String} (h : ¬IsText s) : toStr (utf8Bytes s) = none := by
  simp only [IsText, not_forall] at h
  obtain ⟨c, hc, hchar⟩ := h
  -- the character shows in a byte that is not visible ASCII
  have hbyte : ∃ b ∈ String.utf8EncodeChar c, isVisibleAscii b = false := by
    by_cases hascii : c.toNat < 128
    · refine ⟨UInt8.ofNat c.toNat, by rw [utf8EncodeChar_of_lt hascii]; simp, ?_⟩
      have hnat : (UInt8.ofNat c.toNat).toNat = c.toNat := by
        rw [UInt8.toNat_ofNat']
        exact Nat.mod_eq_of_lt (by omega)
      rw [Bool.eq_false_iff]
      simp only [isVisibleAscii, ne_eq, Bool.or_eq_true, Bool.and_eq_true, decide_eq_true_eq,
        UInt8.le_iff_toNat_le, UInt8.lt_iff_toNat_lt, beq_iff_eq, ← UInt8.toNat_inj, hnat]
      exact hchar
    · obtain ⟨b, hb⟩ := List.exists_mem_of_ne_nil _ (String.utf8EncodeChar_ne_nil (c := c))
      have hhigh := le_of_mem_utf8EncodeChar (Nat.le_of_not_lt hascii) hb
      refine ⟨b, hb, ?_⟩
      rw [Bool.eq_false_iff]
      simp only [isVisibleAscii, ne_eq, Bool.or_eq_true, Bool.and_eq_true, decide_eq_true_eq,
        UInt8.le_iff_toNat_le, UInt8.lt_iff_toNat_lt, beq_iff_eq, ← UInt8.toNat_inj]
      rintro (⟨-, hlt⟩ | heq)
      · exact absurd hlt (Nat.not_lt.mpr (Nat.le_trans (by decide) hhigh))
      · exact absurd (heq ▸ hhigh) (by decide)
  obtain ⟨b, hb, hvisible⟩ := hbyte
  refine if_neg fun hall => ?_
  rw [List.all_eq_true] at hall
  have hmem : b ∈ utf8Bytes s := by
    rw [utf8Bytes_eq]
    exact List.mem_flatMap.mpr ⟨c, hc, hb⟩
  exact absurd (hall b hmem) (by rw [hvisible]; exact Bool.false_ne_true)

/-- Text can be sent. -/
theorem IsText.sendable {s : String} (h : IsText s) : Sendable s := by
  intro b hb
  have hvisible : (utf8Bytes s).all isVisibleAscii = true := by
    by_contra hall
    have := toStr_utf8Bytes h
    rw [toStr, if_neg hall] at this
    cases this
  exact isLegal_of_isVisibleAscii (List.all_eq_true.mp hvisible b hb)

end HeaderValue

/-! ## What arrives -/

/-- Dropping from the end of two lists one after the other. -/
theorem List.rdropWhile_append {α : Type} (p : α → Bool) (l₁ l₂ : List α) :
    (l₁ ++ l₂).rdropWhile p =
      if l₂.rdropWhile p = [] then l₁.rdropWhile p else l₁ ++ l₂.rdropWhile p := by
  unfold List.rdropWhile
  rw [List.reverse_append, List.dropWhile_append]
  by_cases h : l₂.reverse.dropWhile p = []
  · rw [if_pos (List.isEmpty_iff.mpr h), if_pos (List.reverse_eq_nil_iff.mpr h)]
  · rw [if_neg (mt List.isEmpty_iff.mp h), if_neg (mt List.reverse_eq_nil_iff.mp h),
      List.reverse_append, List.reverse_reverse]

namespace HeaderValue

/-- The bytes of a character are blank when the character is. -/
theorem isBlank_of_mem_utf8EncodeChar {c : Char} {b : UInt8}
    (hb : b ∈ String.utf8EncodeChar c) : isBlank b = isBlankChar c := by
  have hblank : isBlankChar c = true ↔ c.toNat = 32 ∨ c.toNat = 9 := by
    rw [isBlankChar, Bool.or_eq_true, beq_iff_eq, beq_iff_eq, ← Char.toNat_inj, ← Char.toNat_inj]
    rfl
  have hbyte : isBlank b = true ↔ b.toNat = 32 ∨ b.toNat = 9 := by
    rw [isBlank, Bool.or_eq_true, beq_iff_eq, beq_iff_eq, ← UInt8.toNat_inj, ← UInt8.toNat_inj]
    rfl
  rw [Bool.eq_iff_iff, hblank, hbyte]
  by_cases hascii : c.toNat < 128
  · rw [utf8EncodeChar_of_lt hascii, List.mem_singleton] at hb
    rw [hb, UInt8.toNat_ofNat', Nat.mod_eq_of_lt (by omega)]
  · have hhigh := le_of_mem_utf8EncodeChar (Nat.le_of_not_lt hascii) hb
    omega

/-- The blanks at the end of the bytes are those at the end of the text. -/
theorem rdropWhile_flatMap_utf8EncodeChar (l : List Char) :
    (l.flatMap String.utf8EncodeChar).rdropWhile isBlank =
      (l.rdropWhile isBlankChar).flatMap String.utf8EncodeChar := by
  induction l using List.reverseRecOn with
  | nil => rfl
  | append_singleton l c ih =>
      rw [List.flatMap_append, List.flatMap_singleton, List.rdropWhile_append]
      cases hc : isBlankChar c with
      | true =>
          have hall : (String.utf8EncodeChar c).rdropWhile isBlank = [] :=
            List.rdropWhile_eq_nil_iff.mpr fun b hb =>
              (isBlank_of_mem_utf8EncodeChar hb).trans hc
          rw [if_pos hall, ih, List.rdropWhile_concat_pos _ _ _ hc]
      | false =>
          have hkept : (String.utf8EncodeChar c).rdropWhile isBlank = String.utf8EncodeChar c :=
            List.rdropWhile_eq_self_iff.mpr fun hne => by
              rw [isBlank_of_mem_utf8EncodeChar (List.getLast_mem hne), hc]
              exact Bool.false_ne_true
          rw [hkept, if_neg String.utf8EncodeChar_ne_nil,
            List.rdropWhile_concat_neg _ _ _ (by rw [hc]; exact Bool.false_ne_true),
            List.flatMap_append, List.flatMap_singleton]

theorem toList_presented (s : String) :
    (presented s).toList = s.toList.rdropWhile isBlankChar :=
  String.toList_ofList

theorem presented_presented (s : String) : presented (presented s) = presented s := by
  rw [← String.toList_inj, toList_presented, toList_presented, List.rdropWhile_idempotent]

theorem presented_eq_empty_iff {s : String} :
    presented s = "" ↔ s.toList.rdropWhile isBlankChar = [] := by
  rw [← String.toList_inj, toList_presented]
  rfl

/-- What arrives of a token after its scheme: nothing of it is left when it is blank. -/
theorem arrives_bearer (token : String) :
    arrives (utf8Bytes ("Bearer " ++ token)) =
      utf8Bytes (if presented token = "" then "Bearer" else "Bearer " ++ presented token) := by
  have hfront : (utf8Bytes ("Bearer " ++ token)).dropWhile isBlank =
      utf8Bytes ("Bearer " ++ token) := by
    rw [utf8Bytes_eq, String.toList_append]
    exact List.dropWhile_cons_of_neg (by decide)
  have hscheme : "Bearer ".toList.rdropWhile isBlankChar = "Bearer".toList := by decide
  rw [arrives, hfront, utf8Bytes_eq, utf8Bytes_eq, rdropWhile_flatMap_utf8EncodeChar,
    String.toList_append, List.rdropWhile_append, hscheme]
  by_cases hempty : presented token = ""
  · rw [if_pos hempty, if_pos (presented_eq_empty_iff.mp hempty)]
  · rw [if_neg hempty, if_neg (mt presented_eq_empty_iff.mpr hempty), String.toList_append,
      toList_presented]

/-- Something is left of the token when it arrives, and it can be read as text. -/
def Readable (token : String) : Prop := presented token ≠ "" ∧ IsText (presented token)

instance (token : String) : Decidable (Readable token) :=
  inferInstanceAs (Decidable (presented token ≠ "" ∧ IsText (presented token)))

end HeaderValue

/-! ## Carrying a token -/

/-- The request was sent with the token in its `Authorization` header. -/
structure Carries (headers : HeaderMap) (token : String) : Prop where
  header : headers.get "Authorization" =
    some (HeaderValue.arrives (utf8Bytes ("Bearer " ++ token)))
  sendable : HeaderValue.Sendable token

/-- The request with the token and nothing else. -/
def HeaderMap.bearer (token : String) : HeaderMap :=
  [("authorization", HeaderValue.arrives (utf8Bytes ("Bearer " ++ token)))]

theorem carries_bearer {token : String} (h : HeaderValue.Sendable token) :
    Carries (HeaderMap.bearer token) token :=
  ⟨rfl, h⟩

/-- A token that comes after its scheme is text when it is text by itself. -/
theorem isText_bearer_append {token : String} :
    HeaderValue.IsText ("Bearer " ++ token) ↔ HeaderValue.IsText token := by
  have hscheme : HeaderValue.IsText "Bearer " := by decide +kernel
  simp only [HeaderValue.IsText, String.toList_append, List.mem_append]
  exact ⟨fun h c hc => h c (.inr hc), fun h c hc => hc.elim (hscheme c) (h c)⟩

theorem List.isPrefixOf?_append {α : Type} [BEq α] [LawfulBEq α] (l₁ l₂ : List α) :
    l₁.isPrefixOf? (l₁ ++ l₂) = some l₂ := by
  induction l₁ with
  | nil => cases l₂ <;> rfl
  | cons a l₁ ih =>
      rw [List.cons_append, List.isPrefixOf?, beq_self_eq_true, if_pos rfl, ih]

/-- A handler reads what arrived of the token when there is something and it is text, and no
token otherwise. -/
theorem extractBearer_of_carries {headers : HeaderMap} {token : String}
    (h : Carries headers token) :
    AppState.extractBearer headers =
      if HeaderValue.Readable token then some (HeaderValue.presented token) else none := by
  unfold AppState.extractBearer HeaderMap.getStr
  rw [h.header, Option.bind_some, HeaderValue.arrives_bearer]
  by_cases hempty : HeaderValue.presented token = ""
  · have hscheme : HeaderValue.IsText "Bearer" := by decide +kernel
    rw [if_pos hempty, if_neg fun hread => hread.1 hempty,
      HeaderValue.toStr_utf8Bytes hscheme]
    decide +kernel
  · rw [if_neg hempty]
    by_cases htext : HeaderValue.IsText (HeaderValue.presented token)
    · rw [if_pos ⟨hempty, htext⟩,
        HeaderValue.toStr_utf8Bytes (isText_bearer_append.mpr htext), Option.bind_some,
        String.toList_append, List.isPrefixOf?_append, Option.map_some, String.ofList_toList]
    · rw [if_neg fun hread => htext hread.2,
        HeaderValue.toStr_utf8Bytes_of_not (mt isText_bearer_append.mp htext), Option.bind_none]

/-! ## When every credential works -/

namespace AppConfig

variable {config : AppConfig}

/-- The first channel with a token, if any channel has it. -/
theorem exists_findChannelByToken {ch : WebhookChannelConfig} (hch : ch ∈ config.channels) :
    ∃ first, config.findChannelByToken ch.apiReadToken = some first := by
  rw [← Option.isSome_iff_exists, AppConfig.findChannelByToken, List.find?_isSome]
  exact ⟨ch, hch, decide_eq_true rfl⟩

theorem findChannelByName_isSome {ch : WebhookChannelConfig} (hch : ch ∈ config.channels) :
    (config.findChannelByName ch.name).isSome = true := by
  rw [AppConfig.findChannelByName, List.find?_isSome]
  exact ⟨ch, hch, decide_eq_true rfl⟩

/-- A token that some channel has is allowed where the first such channel has the name. -/
theorem decideBearer_eq_allow_iff {bearer : String} {first : WebhookChannelConfig}
    (hfirst : config.findChannelByToken bearer = some first) (channelName : String) :
    config.decideBearer bearer channelName = .allow ↔ first.name = channelName := by
  simp only [decideBearer, hfirst]
  split
  · next hname => exact iff_of_true rfl hname
  · next hname => exact iff_of_false (fun h => by cases h) hname

/-- The UI token is allowed on a channel when no channel has it. -/
theorem decideBearer_uiToken {token : String} (htoken : config.uiAccessToken = some token)
    (hfree : ∀ ch ∈ config.channels, ch.apiReadToken ≠ token) {ch : WebhookChannelConfig}
    (hch : ch ∈ config.channels) : config.decideBearer token ch.name = .allow := by
  have hnone : config.findChannelByToken token = none := by
    rw [AppConfig.findChannelByToken, List.find?_eq_none]
    intro c hc
    simpa using hfree c hc
  simp only [decideBearer, hnone]
  rw [if_pos (isUiToken_iff.mpr htoken), if_pos (findChannelByName_isSome hch)]

/-- The decision on a request that carries a token. -/
theorem decisionFor_of_carries {headers : HeaderMap} {token : String} (h : Carries headers token)
    (channelName : String) :
    config.decisionFor headers channelName =
      if HeaderValue.Readable token then
        config.decideBearer (HeaderValue.presented token) channelName
      else .unauthorized := by
  rw [decisionFor, extractBearer_of_carries h]
  by_cases hread : HeaderValue.Readable token
  · rw [if_pos hread, if_pos hread]
  · rw [if_neg hread, if_neg hread]

/-- A token opens a channel: every request that carries it is allowed there. -/
def Opens (config : AppConfig) (token channelName : String) : Prop :=
  ∀ headers, Carries headers token → config.decisionFor headers channelName = .allow

theorem opens_iff {token channelName : String} (hsend : HeaderValue.Sendable token) :
    config.Opens token channelName ↔ HeaderValue.Readable token ∧
      config.decideBearer (HeaderValue.presented token) channelName = .allow := by
  constructor
  · intro h
    have hbearer := h _ (carries_bearer hsend)
    rw [decisionFor_of_carries (carries_bearer hsend)] at hbearer
    split at hbearer
    · next hread => exact ⟨hread, hbearer⟩
    · cases hbearer
  · rintro ⟨hread, hallow⟩ headers hcarries
    rw [decisionFor_of_carries hcarries, if_pos hread, hallow]

/-- A token leads to a channel: what arrives of it can be read, is the token of some channel or
the UI token, and the channels that have it as their token have the name of that channel.  Of a
token without blanks at its end all of it arrives. -/
structure LeadsTo (config : AppConfig) (token channelName : String) : Prop where
  readable : HeaderValue.Readable token
  known : (∃ ch ∈ config.channels, ch.apiReadToken = HeaderValue.presented token) ∨
    config.uiAccessToken = some (HeaderValue.presented token)
  same : ∀ ch ∈ config.channels, ch.apiReadToken = HeaderValue.presented token →
    ch.name = channelName

/-- No token that can be sent is in the way of another: that of a channel leads to its channel,
and the UI token to every channel. -/
structure TokensApart (config : AppConfig) : Prop where
  channel : ∀ ch ∈ config.channels, HeaderValue.Sendable ch.apiReadToken →
    config.LeadsTo ch.apiReadToken ch.name
  ui : ∀ token, config.uiAccessToken = some token → HeaderValue.Sendable token →
    ∀ ch ∈ config.channels, config.LeadsTo token ch.name

/-- A token that leads to a channel opens it. -/
theorem LeadsTo.opens {token : String} {ch : WebhookChannelConfig} (hch : ch ∈ config.channels)
    (h : config.LeadsTo token ch.name) (hsend : HeaderValue.Sendable token) :
    config.Opens token ch.name := by
  refine (opens_iff hsend).mpr ⟨h.readable, ?_⟩
  by_cases hfree : ∀ c ∈ config.channels, c.apiReadToken ≠ HeaderValue.presented token
  · rcases h.known with ⟨c, hc, hshadow⟩ | hui
    · exact absurd hshadow (hfree c hc)
    · exact decideBearer_uiToken hui hfree hch
  · -- a channel that has the token decides, and must then be the one asked for
    push Not at hfree
    obtain ⟨shadow, hshadow, htoken⟩ := hfree
    obtain ⟨first, hfirst⟩ := exists_findChannelByToken hshadow
    rw [htoken] at hfirst
    obtain ⟨hmem, hsame⟩ := mem_of_findChannelByToken hfirst
    exact (decideBearer_eq_allow_iff hfirst ch.name).mpr (h.same first hmem hsame)

/-- A token that is let in is that of a channel or the UI token. -/
theorem known_of_decideBearer {bearer channelName : String}
    (h : config.decideBearer bearer channelName = .allow) :
    (∃ ch ∈ config.channels, ch.apiReadToken = bearer) ∨ config.uiAccessToken = some bearer := by
  unfold decideBearer at h
  cases hfirst : config.findChannelByToken bearer with
  | some first => exact Or.inl ⟨first, mem_of_findChannelByToken hfirst⟩
  | none =>
      rw [hfirst] at h
      dsimp only at h
      split at h
      · next hui => exact Or.inr (isUiToken_iff.mp hui)
      · cases h

/-- Where the tokens of the channels open their channels, a token that opens a channel leads to
it: a channel that has it as its token is opened by it too. -/
theorem Opens.leadsTo {token channelName : String} (h : config.Opens token channelName)
    (hsend : HeaderValue.Sendable token)
    (hchannels : ∀ ch ∈ config.channels, config.Opens ch.apiReadToken ch.name) :
    config.LeadsTo token channelName := by
  obtain ⟨hread, hallow⟩ := (opens_iff hsend).mp h
  refine ⟨hread, known_of_decideBearer hallow, fun ch hch htoken => ?_⟩
  -- both names are the name of the first channel with the token
  obtain ⟨first, hfirst⟩ := exists_findChannelByToken hch
  have hown := ((opens_iff (htoken ▸ hread.2.sendable)).mp (hchannels ch hch)).2
  rw [htoken] at hfirst
  rw [htoken, HeaderValue.presented_presented, decideBearer_eq_allow_iff hfirst] at hown
  rw [decideBearer_eq_allow_iff hfirst] at hallow
  exact hown.symm.trans hallow

end AppConfig

namespace AppState

/-- Every configured credential works: on every route behind a bearer token, the token of a
channel is allowed on its channel and the UI token on every channel. -/
structure CredentialsWork (state : AppState) : Prop where
  channel : ∀ ch ∈ state.config.channels, ∀ headers, Carries headers ch.apiReadToken →
    ∀ route : BearerRoute, route.check state headers ch.name = .ok ()
  ui : ∀ token, state.config.uiAccessToken = some token → ∀ ch ∈ state.config.channels,
    ∀ headers, Carries headers token →
      ∀ route : BearerRoute, route.check state headers ch.name = .ok ()

/-- A token opens a channel when every route lets it in. -/
theorem opens_iff_check {state : AppState} {token channelName : String} :
    state.config.Opens token channelName ↔ ∀ headers, Carries headers token →
      ∀ route : BearerRoute, route.check state headers channelName = .ok () := by
  refine forall_congr' fun headers => imp_congr_right fun _ => ⟨fun h route => ?_, fun h => ?_⟩
  · rw [route.check_eq_result, h]
    rfl
  · have hpoll := h .poll
    rw [BearerRoute.check_eq_result] at hpoll
    cases hdecision : state.config.decisionFor headers channelName with
    | allow => rfl
    | unauthorized | forbidden | notFound =>
        rw [hdecision] at hpoll
        cases hpoll

/-- **When the configured credentials work.**  For every configuration, accepted at startup or
not, every token does its work on every route if and only if no token that can be sent is in the
way of another. -/
theorem credentialsWork_iff (state : AppState) :
    state.CredentialsWork ↔ state.config.TokensApart := by
  constructor
  · rintro ⟨hchannel, hui⟩
    have hopens : ∀ ch ∈ state.config.channels, state.config.Opens ch.apiReadToken ch.name :=
      fun ch hch => opens_iff_check.mpr (hchannel ch hch)
    refine ⟨fun ch hch hsend => (hopens ch hch).leadsTo hsend hopens,
      fun token htoken hsend ch hch => ?_⟩
    have huiOpens : state.config.Opens token ch.name :=
      opens_iff_check.mpr (hui token htoken ch hch)
    exact huiOpens.leadsTo hsend hopens
  · rintro ⟨hchannel, hui⟩
    refine ⟨fun ch hch headers hcarries => ?_, fun token htoken ch hch headers hcarries => ?_⟩
    · have hopens := (hchannel ch hch hcarries.sendable).opens hch hcarries.sendable
      exact opens_iff_check.mp hopens headers hcarries
    · have hopens := (hui token htoken hcarries.sendable ch hch).opens hch hcarries.sendable
      exact opens_iff_check.mp hopens headers hcarries

/-- Two channels that were given one token. -/
def oneToken : AppState where
  config := { AppConfig.small with
    channels := AppConfig.small.channels.map fun ch => { ch with apiReadToken := "token" } }
  db := AppState.small.db

/-- Startup accepts two channels with one token, and the second cannot be polled with it. -/
theorem oneToken_credentials_fail :
    oneToken.config.validateConfig oneToken.db.ext = .ok () ∧ ¬oneToken.CredentialsWork := by
  refine ⟨Except.eq_ok_of_toBool (by decide +kernel), fun h => ?_⟩
  have hread : HeaderValue.Readable "token" := by decide +kernel
  have hmem : ∃ ch ∈ oneToken.config.channels, ch.apiReadToken = "token" ∧ ch.name = "alerts" :=
    ⟨_, List.mem_cons_of_mem _ List.mem_cons_self, rfl, rfl⟩
  obtain ⟨ch, hch, htoken, hname⟩ := hmem
  have hcarries : Carries (HeaderMap.bearer "token") "token" :=
    carries_bearer (HeaderValue.IsText.sendable (by decide +kernel))
  have hpoll := h.channel ch hch _ (htoken ▸ hcarries) .poll
  have hforbidden : oneToken.config.decideBearer (HeaderValue.presented "token") "alerts" =
      .forbidden := by
    decide +kernel
  rw [BearerRoute.check_eq_result, htoken, hname, AppConfig.decisionFor_of_carries hcarries,
    if_pos hread, hforbidden] at hpoll
  cases hpoll

end AppState
