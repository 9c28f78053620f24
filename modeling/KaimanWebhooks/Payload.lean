/-
# Stored payloads in the answers of the API

A body is stored as it came and handed out through the JSON library: it is read into a value
and the value is written again.  The library keeps integers of 64 bits; every other number
becomes a floating-point number, which is written in as few digits as tell it from its
neighbours.  A payload that was handed out denotes the body exactly when every number of the
body that counts survives this.

How the library reads a numeral that is no such integer, which depends on how it is written, and
how it writes a floating-point number, are `readFloat` and `printFloat`.
-/
import KaimanWebhooks.Acceptance
import KaimanWebhooks.Document
import KaimanWebhooks.Polling

/-! ## Reading and writing numbers -/

/-- How the library keeps a numeral. -/
def Numeral.read (readFloat : Numeral → F64) (n : Numeral) : JsonNumber :=
  match n.integer? with
  | none => .float (readFloat n)
  | some k =>
      if 0 ≤ k ∧ k < 2 ^ 64 then .posInt (UInt64.ofNat k.toNat)
      else if -2 ^ 63 ≤ k ∧ k < 0 then .negInt (Int64.ofInt k)
      else .float (readFloat n)

/-- What the library writes for a number; what is not finite is written as null. -/
def JsonNumber.written (printFloat : ℚ → Numeral) : JsonNumber → Document
  | .posInt n => .number (.ofInt n.toNat)
  | .negInt n => .number (.ofInt n.toInt)
  | .float (.finite q) => .number (printFloat q)
  | .float _ => .null

/-- The numeral is an integer of 64 bits, or it is read into a floating-point number that is
written as the same number. -/
def Numeral.Survives (readFloat : Numeral → F64) (printFloat : ℚ → Numeral) (n : Numeral) : Prop :=
  (∃ k : ℤ, n.integer? = some k ∧ -2 ^ 63 ≤ k ∧ k < 2 ^ 64) ∨
    ∃ q, readFloat n = .finite q ∧ (printFloat q).toRat = n.toRat

section Numbers

variable {readFloat : Numeral → F64} {printFloat : ℚ → Numeral}

theorem value_written_float {x : F64} {q : ℚ} :
    ((JsonNumber.float x).written printFloat).value = .number q ↔
      ∃ r, x = .finite r ∧ (printFloat r).toRat = q := by
  cases x with
  | finite r =>
      simp only [JsonNumber.written, Document.value, Document.denote, DocumentValue.number.injEq,
        F64.finite.injEq, exists_eq_left']
  | inf negative => simp [JsonNumber.written, Document.value, Document.denote]
  | nan => simp [JsonNumber.written, Document.value, Document.denote]

/-- An integer that the library keeps is written as it came. -/
theorem value_written_ofInt (k : ℤ) : (Document.number (.ofInt k)).value = .number (k : ℚ) := by
  rw [Document.value, Document.denote, Numeral.toRat_ofInt]

/-- **A number is handed out as it came** exactly when it survives. -/
theorem Numeral.value_written_read_iff (n : Numeral) :
    ((n.read readFloat).written printFloat).value = .number n.toRat ↔
      n.Survives readFloat printFloat := by
  unfold read Survives
  cases hinteger : n.integer? with
  | none => exact value_written_float.trans (or_iff_right (by simp)).symm
  | some k =>
      dsimp only
      rw [toRat_eq_of_integer? hinteger]
      by_cases hpos : 0 ≤ k ∧ k < 2 ^ 64
      · have hcast : ((UInt64.ofNat k.toNat).toNat : ℤ) = k := by
          rw [UInt64.toNat_ofNat', Nat.mod_eq_of_lt (by omega)]
          omega
        refine iff_of_true ?_ (Or.inl ⟨k, rfl, by omega, hpos.2⟩)
        rw [if_pos hpos, JsonNumber.written, hcast, value_written_ofInt]
      · by_cases hneg : -2 ^ 63 ≤ k ∧ k < 0
        · refine iff_of_true ?_ (Or.inl ⟨k, rfl, hneg.1, by omega⟩)
          rw [if_neg hpos, if_pos hneg, JsonNumber.written,
            Int64.toInt_ofInt_of_le hneg.1 (by omega), value_written_ofInt]
        · rw [if_neg hpos, if_neg hneg]
          have hwide : ¬∃ j : ℤ, some k = some j ∧ -2 ^ 63 ≤ j ∧ j < 2 ^ 64 := by
            rintro ⟨j, hj, h0, h1⟩
            cases hj
            omega
          exact value_written_float.trans (or_iff_right hwide).symm

end Numbers

/-! ## Reading and writing documents -/

namespace Document

section Reads

variable (readFloat : Numeral → F64)

mutual

/-- The library reads the document into the value: an object becomes a map with one value for
each name, that of the last member of the name. -/
def Reads : Document → Json → Prop
  | .null, .null => True
  | .bool a, .bool b => a = b
  | .number n, .number m => n.read readFloat = m
  | .string s, .string t => s = t
  | .array items, .array values => ReadsItems items values
  | .object members, .object values =>
      (values.map Prod.fst).Nodup ∧
        (∀ key, key ∈ values.map Prod.fst ↔ key ∈ members.map Prod.fst) ∧
        ReadsMembers members values
  | _, _ => False

def ReadsItems : List Document → List Json → Prop
  | [], [] => True
  | item :: items, value :: values => Reads item value ∧ ReadsItems items values
  | _, _ => False

def ReadsMembers : List (String × Document) → List (String × Json) → Prop
  | [], _ => True
  | (name, item) :: members, values =>
      (name ∈ members.map Prod.fst ∨ ∃ value, (name, value) ∈ values ∧ Reads item value) ∧
        ReadsMembers members values

end

end Reads

end Document

namespace Json

variable (printFloat : ℚ → Numeral)

mutual

/-- What the library writes for a value. -/
def written : Json → Document
  | .null => .null
  | .bool b => .bool b
  | .number n => n.written printFloat
  | .string s => .string s
  | .array items => .array (writtenItems items)
  | .object members => .object (writtenMembers members)

def writtenItems : List Json → List Document
  | [] => []
  | item :: items => written item :: writtenItems items

def writtenMembers : List (String × Json) → List (String × Document)
  | [] => []
  | (name, item) :: members => (name, written item) :: writtenMembers members

end

variable {printFloat}

theorem writtenMembers_eq (members : List (String × Json)) :
    writtenMembers printFloat members = members.map fun m => (m.1, written printFloat m.2) := by
  induction members with
  | nil => rfl
  | cons member members ih =>
      obtain ⟨name, item⟩ := member
      rw [writtenMembers, ih, List.map_cons]

@[simp] theorem map_fst_writtenMembers (members : List (String × Json)) :
    (writtenMembers printFloat members).map Prod.fst = members.map Prod.fst := by
  rw [writtenMembers_eq, List.map_map]
  rfl

end Json

namespace Document

variable {readFloat : Numeral → F64} {printFloat : ℚ → Numeral}

/-- The meaning of a numeral after it was read and written. -/
def throughLibrary (readFloat : Numeral → F64) (printFloat : ℚ → Numeral) (n : Numeral) :
    DocumentValue :=
  ((n.read readFloat).written printFloat).value

mutual

/-- **What is written for what was read**: the document, every numeral changed as the library
changes it. -/
theorem value_written_of_reads :
    ∀ (doc : Document) (v : Json), doc.Reads readFloat v →
      (v.written printFloat).value = doc.denote (throughLibrary readFloat printFloat)
  | .null, .null, _ => rfl
  | .bool _, .bool _, h => congrArg DocumentValue.bool h.symm
  | .number n, .number m, h => by
      have hread : n.read readFloat = m := h
      rw [Json.written, denote, throughLibrary, hread]
  | .string _, .string _, h => congrArg DocumentValue.string h.symm
  | .array items, .array values, h => by
      rw [Json.written, value, denote, denote]
      exact congrArg DocumentValue.array (valueItems_written_of_reads items values h)
  | .object members, .object values, h => by
      obtain ⟨hnodup, hnames, hmembers⟩ := h
      rw [Json.written, value, denote, denote]
      refine congrArg DocumentValue.object (funext fun key => ?_)
      by_cases hkey : key ∈ members.map Prod.fst
      · obtain ⟨v, hv, hvalue⟩ := valueMembers_written_of_reads members values hmembers key hkey
        rw [hvalue, denoteMembers_of_mem]
        · rfl
        · rw [Json.map_fst_writtenMembers]
          exact hnodup
        · rw [Json.writtenMembers_eq]
          exact List.mem_map.mpr ⟨_, hv, rfl⟩
      · rw [denoteMembers_eq_none_iff.mpr hkey, denoteMembers_eq_none_iff,
          Json.map_fst_writtenMembers, hnames]
        exact hkey

theorem valueItems_written_of_reads :
    ∀ (items : List Document) (values : List Json), ReadsItems readFloat items values →
      denoteItems (fun n => .number n.toRat) (Json.writtenItems printFloat values) =
        denoteItems (throughLibrary readFloat printFloat) items
  | [], [], _ => rfl
  | item :: items, v :: values, h => by
      rw [Json.writtenItems, denoteItems, denoteItems, valueItems_written_of_reads items values h.2]
      exact congrArg (· :: _) (value_written_of_reads item v h.1)

theorem valueMembers_written_of_reads :
    ∀ (members : List (String × Document)) (values : List (String × Json)),
      ReadsMembers readFloat members values → ∀ key ∈ members.map Prod.fst, ∃ v,
        (key, v) ∈ values ∧ denoteMembers (throughLibrary readFloat printFloat) members key =
          some (v.written printFloat).value
  | (name, item) :: members, values, h, key, hkey => by
      -- a later member of the same name hides this one
      by_cases hlater : key ∈ members.map Prod.fst
      · obtain ⟨v, hv, hvalue⟩ := valueMembers_written_of_reads members values h.2 key hlater
        exact ⟨v, hv, (denoteMembers_cons_of_mem hlater).trans hvalue⟩
      · obtain rfl : key = name := (List.mem_cons.mp hkey).resolve_right hlater
        obtain ⟨v, hv, hitem⟩ := h.1.resolve_left hlater
        refine ⟨v, hv, (denoteMembers_cons_self hlater).trans ?_⟩
        rw [value_written_of_reads item v hitem]

end

/-- **A document that was read and written denotes the same value** exactly when every numeral
that counts survives. -/
theorem value_written_eq_iff {doc : Document} {v : Json} (h : doc.Reads readFloat v) :
    (v.written printFloat).value = doc.value ↔
      doc.ForEffective (Numeral.Survives readFloat printFloat) := by
  rw [value_written_of_reads doc v h, value, denote_eq_iff]
  exact forEffective_congr (fun n => n.value_written_read_iff) doc

end Document

/-! ## The payloads of a response -/

/-- The payloads a response carries. -/
def ResponseBody.payloads : ResponseBody → List Json
  | .webhooks items => items.map WebhookDto.payload
  | .listed items => items.map WebhookListItemDto.payload
  | .queue view => view.items.map QueueItemDto.payload
  | _ => []

/-- The rows a poll, a list or a view of the queue was answered with. -/
def answeredRows : DoneCall → List Row
  | ⟨.sql (.readAndDeleteByChannel _ _), .ok rows⟩ => rows
  | ⟨.sql (.listByChannel _), .ok rows⟩ => rows
  | ⟨.sql (.listQueueByChannel _), .ok rows⟩ => rows
  | _ => []

namespace AppState

/-- Every payload of the response is the one of a webhook read from a row the task was
answered with. -/
def ShowsRows (state : AppState) (past : List DoneCall) (response : Option HttpResponse) : Prop :=
  ∀ resp, response = some resp → ∀ p ∈ resp.body.payloads, ∃ d ∈ past, ∃ row ∈ answeredRows d,
    ∃ webhook, parseWebhookRow state.db.ext row = some webhook ∧
      p = state.payloadJson webhook.payload

section Shows

variable {state : AppState} {past : List DoneCall}

/-- A response without payloads shows nothing. -/
theorem showsRows_of_payloads_eq_nil {resp : HttpResponse} (h : resp.body.payloads = []) :
    state.ShowsRows past (some resp) := by
  rintro _ ⟨⟩ p hp
  rw [h] at hp
  cases hp

/-- A response to the rows of the last call shows them. -/
theorem showsRows_of_rows {resp : HttpResponse} {d : DoneCall}
    (h : ∀ p ∈ resp.body.payloads, ∃ webhook ∈
      (answeredRows d).filterMap (parseWebhookRow state.db.ext),
        p = state.payloadJson webhook.payload) :
    state.ShowsRows (d :: past) (some resp) := by
  rintro _ ⟨⟩ p hp
  obtain ⟨webhook, hwebhook, hpayload⟩ := h p hp
  obtain ⟨row, hrow, hparse⟩ := List.mem_filterMap.mp hwebhook
  exact ⟨d, List.mem_cons_self, row, hrow, webhook, hparse, hpayload⟩

/-- What a handler owes for its response. -/
def ShowsOnly (state : AppState) (p : AppAction HttpResponse) : Prop :=
  ∀ past, p.Obeys state.machine.Answers (fun _ _ => True)
    (fun past response => state.ShowsRows past (some response)) past

theorem showsOnly_pure {resp : HttpResponse} (h : resp.body.payloads = []) :
    state.ShowsOnly (.pure resp) := fun _ => showsRows_of_payloads_eq_nil h

theorem ShowsOnly.bind {α : Type} (p : AppAction α) {f : α → AppAction HttpResponse}
    (hf : ∀ a, state.ShowsOnly (f a)) : state.ShowsOnly (p.bind f) := fun _ =>
  CallProgram.obeys_bind_of_forall (fun _ _ => trivial) p fun past a => hf a past

/-- An operation that answers nothing to show, whether it succeeds or fails. -/
theorem ShowsOnly.bind_result {β : Type} (p : AppAction (Except WebhookRepositoryError β))
    {f : Except WebhookRepositoryError β → AppAction HttpResponse}
    (hok : ∀ b, state.ShowsOnly (f (.ok b))) (herr : ∀ e, state.ShowsOnly (f (.error e))) :
    state.ShowsOnly (p.bind f) := by
  refine ShowsOnly.bind p fun result => ?_
  cases result with
  | ok b => exact hok b
  | error e => exact herr e

theorem showsOnly_orRespond {α : Type} {check : Except HttpResponse α}
    {next : α → AppAction HttpResponse}
    (herr : ∀ response, check = .error response → response.body.payloads = [])
    (hok : ∀ a, state.ShowsOnly (next a)) : state.ShowsOnly (orRespond check next) := by
  cases check with
  | error response => exact showsOnly_pure (herr response rfl)
  | ok a => exact hok a

/-- A check answers with a text only. -/
def AnswersText {α : Type} (check : Except HttpResponse α) : Prop :=
  ∀ response, check = .error response → response.body.payloads = []

theorem payloads_ofError (e : WebhookRepositoryError) :
    (HttpResponse.ofError e).body.payloads = [] := by
  cases e <;> rfl

theorem answersText_authorize (headers : HeaderMap) (channel : String) :
    AnswersText (state.authorize headers channel) := by
  intro response h
  simp only [authorize, authorizeChannel] at h
  split at h
  · cases h
    rfl
  · split at h
    · split at h <;> cases h
      rfl
    · split_ifs at h <;> cases h <;> rfl

theorem answersText_findForwardTarget (channel : String) :
    AnswersText (state.findForwardTarget channel) := by
  intro response h
  simp only [findForwardTarget] at h
  split at h
  · cases h
    rfl
  · split at h <;> cases h
    rfl

theorem answersText_verifySecret (ch : WebhookChannelConfig) (headers : HeaderMap)
    (body : Bytes) : AnswersText (state.verifySecret ch headers body) := by
  intro response h
  simp only [verifySecret] at h
  split at h
  · rename_i secret headerName _ _
    cases htype : ch.secretType with
    | plain =>
        simp only [htype] at h
        cases hany : (headers.getStr headerName).any fun token => token = secret.toList with
        | true => simp [hany] at h
        | false =>
            simp only [hany, Except.error.injEq] at h
            exact h ▸ rfl
    | hmacSha256 =>
        simp only [htype, verifyHmacSecret] at h
        cases hraw : headers.getStr headerName with
        | none =>
            simp only [hraw, Except.error.injEq] at h
            exact h ▸ rfl
        | some raw =>
            simp only [hraw] at h
            split at h
            · rename_i response' hrender
              split at hrender <;> cases hrender
              cases h
              rfl
            · cases h
            · cases h
              rfl
  · cases h

theorem answersText_checkRequest (clientIp : IpAddr) (channel : String) (headers : HeaderMap)
    (body : Bytes) : AnswersText (state.checkRequest clientIp channel headers body) := by
  intro response h
  simp only [checkRequest] at h
  split at h
  · cases h
    rfl
  · split at h
    · cases h
      rfl
    · rename_i ch _ _
      cases hsecret : state.verifySecret ch headers body with
      | error response' =>
          rw [hsecret] at h
          cases h
          exact answersText_verifySecret ch headers body _ hsecret
      | ok u =>
          rw [hsecret] at h
          simp only [Except.bind, validateBody] at h
          split_ifs at h
          · cases h
            rfl
          · cases h
            rfl
          · split at h <;> cases h
            rfl

theorem answersText_checkLoaded (channel : String)
    (loaded : Except WebhookRepositoryError (Option Webhook)) :
    AnswersText (checkLoaded channel loaded) := by
  intro response h
  unfold checkLoaded at h
  split at h
  · cases h
    exact payloads_ofError _
  · cases h
    rfl
  · split at h <;> cases h
    rfl

theorem answersText_buildRequest (ctx : RetryContext) : AnswersText ctx.buildRequest := by
  intro response h
  unfold RetryContext.buildRequest at h
  dsimp only at h
  split at h
  · cases h
  · cases hsign : ctx.sign ctx.webhook.payload with
    | ok value => simp [hsign, Except.map] at h
    | error response' =>
        simp only [hsign, Except.map, Except.error.injEq] at h
        subst h
        unfold RetryContext.sign at hsign
        split at hsign
        · cases hsign
          rfl
        · dsimp only at hsign
          split at hsign
          · cases hsign
          · split at hsign <;> cases hsign
            rfl

theorem showsOnly_retryLoaded (channel : String) (id : ℤ) (ch : WebhookChannelConfig)
    (fwd : WebhookForwardConfig) (webhook : Webhook) :
    state.ShowsOnly (state.retryLoaded channel id ch fwd webhook) := by
  refine showsOnly_orRespond (answersText_buildRequest _) fun request => ?_
  refine ShowsOnly.bind _ fun answer => ?_
  cases answer with
  | error cause => exact ShowsOnly.bind _ fun _ => showsOnly_pure rfl
  | ok resp =>
      simp only [RetryContext.onAnswer, RetryContext.onResponse]
      split
      · exact ShowsOnly.bind _ fun _ => showsOnly_pure rfl
      · exact ShowsOnly.bind _ fun _ => showsOnly_pure rfl

/-- An operation whose answer is shown or turned into a response without payloads. -/
theorem showsOnly_statement {β : Type} {q : Query} {read : q.Answer → β}
    {f : Except WebhookRepositoryError β → AppAction HttpResponse}
    (hok : ∀ past a, (f (.ok (read a))).Obeys state.machine.Answers (fun _ _ => True)
      (fun past response => state.ShowsRows past (some response)) (⟨.sql q, .ok a⟩ :: past))
    (herr : ∀ e, state.ShowsOnly (f (.error e))) :
    state.ShowsOnly ((state.db.statement q read).bind f) := by
  intro past
  rw [CallProgram.obeys_bind]
  exact Sqlite.obeys_statement (fun _ _ _ => trivial) (fun _ _ => trivial)
    (fun new a _ _ => hok (new ++ past) a) (fun after e new _ _ => herr _ _)

/-- **Every handler shows the rows it was answered with, and nothing else.** -/
theorem showsOnly_handle (r : Request) : state.ShowsOnly (state.handle r) := by
  cases r with
  | receive clientIp channel headers body =>
      refine showsOnly_orRespond (answersText_checkRequest clientIp channel headers body)
        fun _ => ShowsOnly.bind_result _ (fun _ => ?_) fun e => ?_
      · exact showsOnly_pure rfl
      · exact showsOnly_pure (payloads_ofError e)
  | poll channel headers =>
      refine showsOnly_orRespond (answersText_authorize headers channel) fun _ =>
        showsOnly_statement (fun past rows => showsRows_of_rows ?_)
          fun e => showsOnly_pure (payloads_ofError e)
      intro p hp
      obtain ⟨dto, hdto, rfl⟩ := List.mem_map.mp hp
      obtain ⟨webhook, hwebhook, rfl⟩ := List.mem_map.mp hdto
      exact ⟨webhook, hwebhook, rfl⟩
  | list channel headers =>
      refine showsOnly_orRespond (answersText_authorize headers channel) fun _ =>
        showsOnly_statement (fun past rows => showsRows_of_rows ?_)
          fun e => showsOnly_pure (payloads_ofError e)
      intro p hp
      obtain ⟨dto, hdto, rfl⟩ := List.mem_map.mp hp
      obtain ⟨webhook, hwebhook, hitem⟩ := List.mem_filterMap.mp hdto
      obtain ⟨id, -, rfl⟩ := Option.map_eq_some_iff.mp hitem
      exact ⟨webhook, hwebhook, rfl⟩
  | queue channel headers =>
      refine showsOnly_orRespond (answersText_authorize headers channel) fun _ =>
        showsOnly_orRespond (answersText_findForwardTarget channel) fun _ =>
          showsOnly_statement (fun past rows => ⟨trivial, fun status _ => ?_⟩)
            fun e => showsOnly_pure (payloads_ofError e)
      rintro _ ⟨⟩ p hp
      obtain ⟨dto, hdto, rfl⟩ := List.mem_map.mp hp
      obtain ⟨webhook, hwebhook, hitem⟩ := List.mem_filterMap.mp hdto
      obtain ⟨id, -, rfl⟩ := Option.map_eq_some_iff.mp hitem
      obtain ⟨row, hrow, hparse⟩ := List.mem_filterMap.mp hwebhook
      exact ⟨_, List.mem_cons_of_mem _ List.mem_cons_self, row, hrow, webhook, hparse, rfl⟩
  | delete channel id headers =>
      refine showsOnly_orRespond (answersText_authorize headers channel)
        fun _ => ShowsOnly.bind_result _ (fun _ => ?_) fun e => ?_
      · exact showsOnly_pure rfl
      · exact showsOnly_pure (payloads_ofError e)
  | pause channel headers =>
      refine showsOnly_orRespond (answersText_authorize headers channel)
        fun _ => ShowsOnly.bind _ fun registered => ?_
      cases registered <;> exact showsOnly_pure rfl
  | resume channel headers =>
      refine showsOnly_orRespond (answersText_authorize headers channel)
        fun _ => ShowsOnly.bind _ fun registered => ?_
      cases registered <;> exact showsOnly_pure rfl
  | clear channel headers =>
      refine showsOnly_orRespond (answersText_authorize headers channel)
        fun _ => ShowsOnly.bind_result _ (fun _ => ?_) fun e => ?_
      · exact ShowsOnly.bind _ fun _ => showsOnly_pure rfl
      · exact showsOnly_pure (payloads_ofError e)
  | retry channel id headers =>
      refine showsOnly_orRespond (answersText_authorize headers channel) fun _ =>
        showsOnly_orRespond (answersText_findForwardTarget channel) fun target => ?_
      simp only [loadWebhookToRetry, CallProgram.bind_eq, CallProgram.pure_eq,
        CallProgram.bind_assoc, CallProgram.bind_pure_left]
      exact ShowsOnly.bind _ fun loaded => showsOnly_orRespond (answersText_checkLoaded _ loaded)
        fun webhook => showsOnly_retryLoaded _ _ _ _ webhook

/-- Every task shows only rows it was answered with. -/
theorem start_showsRows (job : Job) :
    (state.start job).Obeys state.machine.Answers (fun _ _ => True) state.ShowsRows [] := by
  have hnone : ∀ past : List DoneCall, state.ShowsRows past none := fun _ _ h => by cases h
  cases job with
  | refresh k =>
      simp only [start]
      split
      · exact hnone []
      · exact CallProgram.obeys_bind_of_forall (fun _ _ => trivial) _ fun past _ => hnone past
  | cycle k =>
      simp only [start]
      split
      · exact hnone []
      · exact CallProgram.obeys_bind_of_forall (fun _ _ => trivial) _ fun past _ => hnone past
  | request r =>
      simp only [start]
      rw [CallProgram.obeys_bind]
      exact showsOnly_handle r []
  | reset id =>
      exact CallProgram.obeys_bind_of_forall (fun _ _ => trivial) _ fun past _ => hnone past

end Shows

/-! ## Payloads and bodies -/

section Runs

variable {state : AppState} {ok : ServiceState → ServiceEvent → Prop} {s : ServiceState}
  (h : state.machine.Reaches ok state.initial s)

include h

/-- The rows a call of the history was answered with stood in the table before it. -/
theorem mem_before_of_answeredRows {e : ServiceEntry} (he : e ∈ s.history) {row : Row}
    (hrow : row ∈ answeredRows e.done) : row ∈ e.before.table.rows := by
  rcases (performed_of_mem_history h he).cases with ⟨-, hquiet⟩ | ⟨q, choice, hdone, -⟩
  · unfold answeredRows at hrow
    split at hrow
    · rename_i hd
      exact absurd hd (hquiet _ _)
    · rename_i hd
      exact absurd hd (hquiet _ _)
    · rename_i hd
      exact absurd hd (hquiet _ _)
    · cases hrow
  · rw [hdone] at hrow
    cases q with
    | readAndDeleteByChannel channel limit =>
        exact List.mem_of_mem_filter
          (e.before.table.mem_of_mem_picked ((Shuffle.mem_order _).mp hrow))
    | listByChannel channel => exact List.mem_of_mem_filter ((mem_orderBy _ _).mp hrow)
    | listQueueByChannel channel => exact List.mem_of_mem_filter ((mem_orderBy _ _).mp hrow)
    | _ => cases hrow

end Runs

/-- **When the API hands out the original JSON.**  In every run, every payload in the response
of a poll, a list or a view of the queue is what reading the body of an accepted request gave,
and it denotes the same value as that body exactly when every number of the body that counts is
an integer of 64 bits or a number that reading and writing leaves as it is. -/
theorem payload_denotes_body_iff (state : AppState) {document : Bytes → Option Document}
    {readFloat : Numeral → F64} {printFloat : ℚ → Numeral}
    (hreads : ∀ body v, state.db.ext.fromSlice body = .ok v →
      ∃ doc, document body = some doc ∧ doc.Reads readFloat v)
    {s : ServiceState} (h : state.machine.Reaches (fun _ _ => True) state.initial s) {n : ℕ}
    {t : ServiceTask} (ht : s.tasks[n]? = some t) {resp : HttpResponse}
    (hrest : t.rest = .pure (some resp)) {p : Json} (hp : p ∈ resp.body.payloads) :
    ∃ ch clientIp headers webhook doc,
      (∃ e ∈ s.history, e.task = n ∧ ∃ row ∈ answeredRows e.done,
        parseWebhookRow state.db.ext row = some webhook) ∧
      state.Accepted ch clientIp webhook.channel headers webhook.payload ∧
      state.db.ext.fromSlice webhook.payload = .ok p ∧
      document webhook.payload = some doc ∧
      ((p.written printFloat).value = doc.value ↔
        doc.ForEffective (Numeral.Survives readFloat printFloat)) := by
  have hshows := h.returned_allowed rfl start_showsRows (List.mem_of_getElem? ht) hrest
  obtain ⟨d, hd, row, hrow, webhook, hparse, hpayload⟩ := hshows resp rfl p hp
  obtain ⟨e, he, htask, -, rfl⟩ := h.pastsRecorded rfl n t d ht hd
  have hbefore := mem_before_of_answeredRows h he hrow
  obtain ⟨ch, clientIp, headers, haccepted⟩ :=
    exists_accepted_of_parse h (stored_of_mem_before h he hbefore).1 hparse
  -- the body was read when it came, so it is read again now
  obtain ⟨v, hv⟩ : ∃ v, state.db.ext.fromSlice webhook.payload = .ok v := by
    have hbody := haccepted.body
    unfold validateBody at hbody
    split_ifs at hbody
    cases hread : state.db.ext.fromSlice webhook.payload with
    | ok v => exact ⟨v, rfl⟩
    | error e => simp [hread] at hbody
  have hsame : p = v := by
    rw [hpayload, payloadJson, hv]
  subst hsame
  obtain ⟨doc, hdoc, hdocReads⟩ := hreads _ _ hv
  exact ⟨ch, clientIp, headers, webhook, doc, ⟨e, he, htask, row, hrow, hparse⟩, haccepted, hv,
    hdoc, Document.value_written_eq_iff hdocReads⟩

/-- The number of payloads in the responses of the tasks. -/
def payloadCounts (s : ServiceState) : List ℕ :=
  s.tasks.filterMap fun t =>
    match t.rest with
    | .pure (some resp) => some resp.body.payloads.length
    | _ => none

/-- The body `{"n":18446744073709551617,"n":1.5,"k":-3}`: the first number has 65 bits and is
hidden by the second one. -/
def numbersBody : Bytes :=
  utf8Bytes "\x7b\"n\":18446744073709551617,\"n\":1.5,\"k\":-3\x7d"

/-- The integer `2^64 + 1`. -/
def wideNumeral : Numeral := .ofInt (2 ^ 64 + 1)

/-- What the body spells. -/
def numbersDocument : Document :=
  .object [("n", .number wideNumeral), ("n", .number ⟨false, 1, [5], none⟩),
    ("k", .number (.ofInt (-3)))]

/-- The body `18446744073709551617`. -/
def wideBody : Bytes := utf8Bytes "18446744073709551617"

/-- How these numerals are read; the integer of 65 bits as the floating-point number next to it. -/
def nearestF64 (n : Numeral) : F64 := if n = wideNumeral then .finite (2 ^ 64) else .finite n.toRat

/-- How the numbers are written: `1.8446744073709552e19` and `1.5`. -/
def shortestDecimal (q : ℚ) : Numeral :=
  if q = 2 ^ 64 then
    ⟨false, 1, [8, 4, 4, 6, 7, 4, 4, 0, 7, 3, 7, 0, 9, 5, 5, 2], some ⟨false, none, [1, 9]⟩⟩
  else if q = 3 / 2 then ⟨false, 1, [5], none⟩
  else .ofInt 0

/-- What the first body is read into. -/
def numbersValue : Json :=
  .object [("k", .number (.negInt (-3))), ("n", .number (.float (.finite (3 / 2))))]

/-- The small service with a codec that reads one body. -/
def readingState (known : Bytes) (v : Json) : AppState :=
  ⟨AppConfig.small, ⟨{ External.plain with
    fromSlice := fun body => if body = known then .ok v else .error "expected value" },
    LockRetryPolicy.default⟩⟩

/-- A body is received and then polled. -/
def payloadEvents (body : Bytes) : List ServiceEvent :=
  ServiceEvent.task (.request (.receive (.v4 0) "orders"
      [("content-type", HeaderValue.ofText "application/json".toList)] body)) 0
      (List.replicate 3 (Input.calm 1000 200)) ++
    ServiceEvent.task (.request (.poll "orders" .small)) 1 (List.replicate 2 (Input.calm 1001 200))

theorem reads_numbersDocument : numbersDocument.Reads nearestF64 numbersValue := by
  have hhalf : (⟨false, 1, [5], none⟩ : Numeral).read nearestF64 = .float (.finite (3 / 2)) := by
    decide +kernel
  have hthree : (Numeral.ofInt (-3)).read nearestF64 = .negInt (-3) := by decide +kernel
  refine ⟨by decide, fun key => ?_, Or.inl (by decide),
    Or.inr ⟨_, List.mem_cons_of_mem _ List.mem_cons_self, hhalf⟩,
    Or.inr ⟨_, List.mem_cons_self, hthree⟩, trivial⟩
  show key ∈ ["k", "n"] ↔ key ∈ ["n", "n", "k"]
  grind

/-- The numbers of the first body that count survive. -/
theorem forEffective_numbersDocument :
    numbersDocument.ForEffective (Numeral.Survives nearestF64 shortestDecimal) := by
  refine ⟨Or.inl (by decide), Or.inr (Or.inr ⟨3 / 2, ?_, ?_⟩), Or.inr (Or.inl ⟨-3, ?_⟩), trivial⟩
  · decide +kernel
  · decide +kernel
  · decide +kernel

/-- A body with a hidden number of 65 bits, a fraction and a negative integer is received and
polled: the payload denotes the body. -/
theorem payload_denotes_body_iff_small :
    ∃ s : ServiceState, payloadCounts s = [0, 1] ∧
      ∀ (n : ℕ) (t : ServiceTask) (resp : HttpResponse), s.tasks[n]? = some t →
        t.rest = .pure (some resp) → ∀ p ∈ resp.body.payloads,
          (p.written shortestDecimal).value = numbersDocument.value := by
  have hrun : ∃ s, (readingState numbersBody numbersValue).machine.runEvents
      (readingState numbersBody numbersValue).initial (payloadEvents numbersBody) = some s ∧
        payloadCounts s = [0, 1] := by
    decide +kernel
  obtain ⟨s, hs, hcounts⟩ := hrun
  have hreaches : (readingState numbersBody numbersValue).machine.Reaches (fun _ _ => True)
      (readingState numbersBody numbersValue).initial s :=
    TaskMachine.reaches_of_runEvents hs fun _ _ _ => trivial
  have hreads : ∀ body v, (readingState numbersBody numbersValue).db.ext.fromSlice body = .ok v →
      ∃ doc, (if body = numbersBody then some numbersDocument else none) = some doc ∧
        doc.Reads nearestF64 v := by
    intro body v hv
    by_cases hbody : body = numbersBody
    · simp only [readingState, if_pos hbody, Except.ok.injEq] at hv
      exact ⟨numbersDocument, if_pos hbody, hv ▸ reads_numbersDocument⟩
    · simp [readingState, hbody] at hv
  refine ⟨s, hcounts, fun n t resp ht hrest p hp => ?_⟩
  obtain ⟨-, -, -, webhook, doc, -, -, -, hdoc, hiff⟩ :=
    @payload_denotes_body_iff (readingState numbersBody numbersValue) _ nearestF64
      shortestDecimal hreads s hreaches n t ht resp hrest p hp
  obtain rfl : numbersDocument = doc := by
    split_ifs at hdoc
    exact Option.some.inj hdoc
  exact hiff.mpr forEffective_numbersDocument

/-! ## A number that is changed -/

/-- The floating-point numbers among the payloads of the responses. -/
def floatPayloads (s : ServiceState) : List F64 :=
  s.tasks.flatMap fun t =>
    match t.rest with
    | .pure (some resp) => resp.body.payloads.filterMap fun
        | .number (.float x) => some x
        | _ => none
    | _ => []

/-- **A poll hands out another number than was sent**: the body is accepted, and the payload
that is polled denotes 18446744073709552000. -/
theorem poll_changes_wide_number :
    (Document.number wideNumeral).Reads nearestF64 (.number (.float (.finite (2 ^ 64)))) ∧
      (∃ s, (readingState wideBody (.number (.float (.finite (2 ^ 64))))).machine.runEvents
          (readingState wideBody (.number (.float (.finite (2 ^ 64))))).initial
          (payloadEvents wideBody) = some s ∧
        floatPayloads s = [.finite (2 ^ 64)] ∧ s.shared.table.rows = []) ∧
      ((Json.number (.float (.finite (2 ^ 64)))).written shortestDecimal).value ≠
        (Document.number wideNumeral).value := by
  refine ⟨?_, by decide +kernel, ?_⟩
  · have hread : wideNumeral.read nearestF64 = .float (.finite (2 ^ 64)) := by
      decide +kernel
    exact hread
  · have hne : (shortestDecimal (2 ^ 64)).toRat ≠ wideNumeral.toRat := by
      decide +kernel
    intro hvalue
    exact hne (DocumentValue.number.inj hvalue)

end AppState
