import NostrWot.Data.OrderedMap
import NostrWot.Data.Value
import NostrWot.Permissions.Authentication

namespace NostrWot.Bunker

open NostrWot.Data

/-! # The data of a NIP-46 responder -/

/-- What a rejection carries; a `BunkerError` is the one meant for the client. -/
structure Fault where
  message : String
  wireVisible : Bool
  deriving DecidableEq

def bunkerError (message : String) : Fault := ⟨message, true⟩

def error (message : String) : Fault := ⟨message, false⟩

structure BunkerOptions where
  relays : List String
  requireSecret : Bool
  secretTtlMs : Number
  maxSecrets : Nat
  maxClients : Nat
  maxRelaysPerClient : Nat
  maxClockSkewSec : Nat
  seenCapacity : Nat
  strangerCapacity : Nat
  generation : Option Nat
  observed : Bool

def DEFAULTS (relays : List String) : BunkerOptions where
  relays
  requireSecret := true
  secretTtlMs := 900000
  maxSecrets := 256
  maxClients := 64
  maxRelaysPerClient := 8
  maxClockSkewSec := 300
  seenCapacity := 256
  strangerCapacity := 256
  generation := none
  observed := false

/-- The owner tag for relays the host configured, as opposed to a client's own. -/
def SERVER_OWNER : String := "server"

/-- The kind of every NIP-46 message. -/
def NostrConnect : Int := 24133

structure NostrEvent where
  id : String
  pubkey : String
  kind : Int
  tags : List (List String)
  content : String
  created_at : Rat

structure BunkerRequest where
  id : String
  clientPubkey : String
  method : String
  params : List String
  deriving DecidableEq

structure ResponsePayload where
  id : String
  result : Option String
  error : Option String
  deriving DecidableEq

/-! ## Deduplication windows -/

/-- Insertion-ordered set with a hard cap: the oldest entry goes first. -/
structure BoundedSet where
  keys : List String
  capacity : Nat
  deriving DecidableEq

def BoundedSet.new (capacity : Nat) : BoundedSet := ⟨[], capacity⟩

def BoundedSet.addIfNew (set : BoundedSet) (key : String) : Bool × BoundedSet :=
  if key ∈ set.keys then (true, set)
  else
    let keys := set.keys ++ [key]
    (false, { set with keys := if keys.length > set.capacity then keys.tail else keys })

/-- A window and the keys that were new to it. -/
def BoundedSet.told (heard : BoundedSet × List String) (key : String) : BoundedSet × List String :=
  ((heard.1.addIfNew key).2, if (heard.1.addIfNew key).1 then heard.2 else heard.2 ++ [key])

/-- A window knows the last keys that were new to it, as many as it has room for. -/
theorem BoundedSet.remembers_latest (capacity : Nat) (keys : List String) :
    let heard := keys.foldl BoundedSet.told (.new capacity, [])
    let latest := heard.2.drop (heard.2.length - capacity)
    (∀ key, (heard.1.addIfNew key).1 = true ↔ key ∈ latest) ∧ latest.Nodup := by
  let Latest (heard : BoundedSet × List String) : Prop := heard.1.capacity = capacity ∧
    heard.1.keys = heard.2.drop (heard.2.length - capacity) ∧ heard.1.keys.Nodup
  have step : ∀ heard key, Latest heard → Latest (told heard key) := by
    rintro ⟨set, all⟩ key ⟨room, window, distinct⟩
    by_cases known : key ∈ set.keys
    · simpa [Latest, told, addIfNew, known] using ⟨room, window, distinct⟩
    · have grown : (set.keys ++ [key]).Nodup :=
        List.nodup_append.mpr ⟨distinct, List.nodup_singleton _, by grind⟩
      dsimp only at room window
      refine ⟨?_, ?_, ?_⟩
      · simp [told, addIfNew, known, room]
      · simp only [told, addIfNew, known, if_false, Bool.false_eq_true, room, List.length_append,
          List.length_singleton]
        rw [window, List.length_drop, ← List.drop_append_of_le_length (Nat.sub_le _ _)]
        split
        · rw [List.tail_drop, Nat.sub_add_comm (by omega)]
        · rw [Nat.sub_eq_zero_of_le (by omega), Nat.sub_eq_zero_of_le (by omega)]
      · simp only [told, addIfNew, known, if_false]
        split
        · exact grown.tail
        · exact grown
  have run : ∀ heard, Latest heard → Latest (keys.foldl told heard) := by
    induction keys with
    | nil => exact fun _ start => start
    | cons key rest induction => exact fun heard start => induction _ (step heard key start)
  obtain ⟨-, window, distinct⟩ := run (.new capacity, []) ⟨rfl, by simp [BoundedSet.new], List.nodup_nil⟩
  refine ⟨fun key => ?_, window ▸ distinct⟩
  rw [← window, addIfNew]
  split <;> simpa

/-! ## Pairings -/

/-- Who minted a secret: the host, or a client's `nostrconnect://` URI. -/
inductive SecretOrigin where
  | bunker
  | nostrconnect
  deriving DecidableEq

def SecretOrigin.name : SecretOrigin → String
  | .bunker => "bunker"
  | .nostrconnect => "nostrconnect"

structure SecretState where
  relays : List String
  /-- The client that presented this secret first. -/
  clientPubkey : Option String
  /-- True once the handler approved that client's `connect`. -/
  confirmed : Bool
  /-- Approvals in flight for the bound client. -/
  pending : Int
  origin : SecretOrigin
  /-- Only enforced while unconfirmed. -/
  expiresAt : Option Number
  deriving DecidableEq

structure ClientState where
  connectedAt : Number
  secret : Option String
  relays : List String
  convKey : String
  seen : BoundedSet
  deriving DecidableEq

structure RelaySubscription where
  id : Nat
  closer : Option Nat
  connecting : Bool
  timer : Bool
  failures : Nat
  /-- `SERVER_OWNER` and client pubkeys. -/
  owners : List String
  deriving DecidableEq

structure NostrConnectUri where
  clientPubkey : String
  relays : List String
  secret : String
  perms : List String
  name : Option String
  url : Option String
  image : Option String
  deriving DecidableEq

/-! ## What the server is built on -/

def HEX64 (text : String) : Bool :=
  text.toList.length = 64 && text.toList.all Permissions.isHexDigit

/-- 32 bytes as lowercase hex. -/
def isPubkey (text : String) : Bool := Permissions.isHex64 text.toList

structure Host where
  options : BunkerOptions
  connectionPubkey : String
  /-- `normalizeURL`; `none` where it throws. -/
  normalizeURL : String → Option String
  /-- A normalized URL is its own normal form. -/
  normalizeURL_idem : ∀ url normal, normalizeURL url = some normal → normalizeURL normal = some normal
  /-- `URLSearchParams`: the pairs of a query. -/
  searchParams : String → List (String × String)
  /-- `getConversationKey` with a peer; `none` for a key that is not on the curve. -/
  conversationKey : String → Option String
  verifyEvent : NostrEvent → Bool
  /-- A verified event names its author in lowercase hex. -/
  verified_pubkey : ∀ event, verifyEvent event = true → isPubkey event.pubkey = true
  /-- The key of a verified event is on the curve. -/
  verified_curve : ∀ event, verifyEvent event = true → (conversationKey event.pubkey).isSome
  /-- Decrypting a payload and parsing it as JSON. -/
  decryptPayload : (content key : String) → Option Value
  /-- Whether a response can be encrypted; what is too long cannot. -/
  encrypts : ResponsePayload → Bool
  /-- `JSON.stringify`. -/
  stringify : Value → String
  /-- The hex of the HMAC of a serialized state. -/
  stateDigest : Value → String
  stateDigest_length : ∀ state, utf16Length (stateDigest state) = 64
  /-- `mapError`; `none` where it throws. -/
  mapError : Fault → BunkerRequest → Option String
  /-- Whether the pool hands out its relay connections. -/
  hasEnsureRelay : Bool
  /-- Whether `pool.subscribe` throws for this relay. -/
  subscribeThrows : String → Bool

/-- A host to run examples on: URLs are normalized, keys stand for themselves,
and what a message says is looked up. -/
def Host.plain (options : BunkerOptions) (messages : String → Option Value) : Host where
  options
  connectionPubkey := String.ofList (List.replicate 64 'b')
  normalizeURL := some
  normalizeURL_idem := fun _ _ _ => rfl
  searchParams := fun query => (query.toList.splitOn '&').map fun pair =>
    (String.ofList (pair.takeWhile (· ≠ '=')), String.ofList ((pair.dropWhile (· ≠ '=')).drop 1))
  conversationKey := some
  verifyEvent := fun event => isPubkey event.pubkey
  verified_pubkey := fun _ verified => verified
  verified_curve := fun _ _ => rfl
  decryptPayload := fun content _ => messages content
  encrypts := fun _ => true
  stringify := fun _ => "null"
  stateDigest := fun _ => String.ofList (List.replicate 64 '0')
  stateDigest_length := fun _ => by decide
  mapError := fun fault _ => if fault.wireVisible then some fault.message else none
  hasEnsureRelay := true
  subscribeThrows := fun _ => false

end NostrWot.Bunker
