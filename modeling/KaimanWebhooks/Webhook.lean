/-
# Webhooks

The domain model: a webhook with its headers and payload, the status of a channel's
forwarder, and the error a storage operation ends with.  JSON values and maps from
strings to strings, which the service stores and answers with, are part of it.
-/
import KaimanWebhooks.Http
import KaimanWebhooks.FloatModel

/-! ## JSON values -/

/-- A number as the JSON library keeps it: an unsigned or a negative integer of 64 bits,
or a floating-point number. -/
inductive JsonNumber : Type where
  | posInt (n : UInt64)
  | negInt (n : Int64)
  | float (x : F64)
  deriving DecidableEq

inductive Json : Type where
  | null
  | bool (b : Bool)
  | number (n : JsonNumber)
  | string (s : String)
  | array (items : List Json)
  | object (members : List (String × Json))

/-! ## String maps -/

/-- A map from strings to strings, by its entries in the order an iteration meets them. -/
structure StringMap where
  entries : List (String × String)
  nodup : (entries.map Prod.fst).Nodup
  deriving DecidableEq

namespace StringMap

def empty : StringMap := ⟨[], List.nodup_nil⟩

/-- Replace the value under a key. -/
def setValue (key value : String) : List (String × String) → List (String × String)
  | [] => []
  | (k, v) :: rest => if k = key then (k, value) :: rest else (k, v) :: setValue key value rest

theorem map_fst_setValue (key value : String) (entries : List (String × String)) :
    (setValue key value entries).map Prod.fst = entries.map Prod.fst := by
  induction entries with
  | nil => rfl
  | cons entry entries ih =>
      obtain ⟨k, v⟩ := entry
      rw [setValue]
      split
      · rfl
      · rw [List.map_cons, ih, List.map_cons]

/-- `HashMap::insert`: a key that is there gets the new value. -/
def insert (m : StringMap) (key value : String) : StringMap :=
  if h : key ∈ m.entries.map Prod.fst then
    ⟨setValue key value m.entries, by rw [map_fst_setValue]; exact m.nodup⟩
  else
    ⟨m.entries ++ [(key, value)], by
      rw [List.map_append, List.nodup_append]
      refine ⟨m.nodup, List.nodup_singleton key, ?_⟩
      rintro a ha b hb rfl
      have hkey : a = key := by simpa using hb
      exact h (hkey ▸ ha)⟩

/-- Collecting entries: the last value under a key stays. -/
def collect (entries : List (String × String)) : StringMap :=
  entries.foldl (fun m entry => m.insert entry.1 entry.2) empty

/-- Two maps with the same entries, whatever the order of iteration. -/
def SameEntries (m n : StringMap) : Prop := m.entries.Perm n.entries

end StringMap

/-! ## Webhooks -/

/-- The name of a channel. -/
abbrev WebhookChannel : Type := String

/-- A webhook.  `nextAttemptAt` is the unix time the forwarder may try it again; `none`
means now. -/
structure Webhook where
  id : Option ℤ
  channel : WebhookChannel
  headers : StringMap
  payload : Bytes
  receivedAt : ℤ
  forwardAttempts : ℤ
  lastAttemptAt : Option ℤ
  lastAttemptError : Option String
  nextAttemptAt : Option ℤ
  deriving DecidableEq

/-- A webhook that was never stored and never forwarded. -/
def Webhook.new (channel : WebhookChannel) (headers : StringMap) (payload : Bytes)
    (receivedAt : ℤ) : Webhook where
  id := none
  channel := channel
  headers := headers
  payload := payload
  receivedAt := receivedAt
  forwardAttempts := 0
  lastAttemptAt := none
  lastAttemptError := none
  nextAttemptAt := none

/-- How a storage operation fails: the storage was too contended, or something else went
wrong.  The text is the error underneath. -/
inductive WebhookRepositoryError : Type where
  | busy (error : String)
  | other (error : String)
  deriving DecidableEq

def WebhookRepositoryError.isBusy : WebhookRepositoryError → Bool
  | .busy _ => true
  | .other _ => false

/-! ## Forwarder status -/

/-- What the service tells about the forwarder of a channel. -/
structure ChannelForwardStatus where
  paused : Bool
  queueSize : ℤ
  lastSuccessAt : Option ℤ
  lastErrorAt : Option ℤ
  lastErrorMessage : Option String
  nextAttemptAt : Option ℤ
  deriving DecidableEq

def ChannelForwardStatus.new : ChannelForwardStatus where
  paused := false
  queueSize := 0
  lastSuccessAt := none
  lastErrorAt := none
  lastErrorMessage := none
  nextAttemptAt := none
