import NostrWot.Data.Base64
import NostrWot.Pq.Envelope
import NostrWot.Signing.Untrusted

namespace NostrWot.Signing.Untrusted

open NostrWot.Data NostrWot.Permissions

/-! # Reading untrusted requests

A request or a batch is checked while it is copied, each method's params by the
method's own limits, and the copy is frozen.
-/

def MAX_BATCH_BYTES : Nat := MAX_EVENT_BYTES

def MAX_CRYPTO_PLAINTEXT_BYTES : Nat := 65535

def MAX_CRYPTO_CIPHERTEXT_LENGTH : Nat := 131072

def RECIPIENT_KEM_KEY_LENGTH : Nat := 2092

def SIGNER_METHODS : List SignerMethod :=
  [.getPublicKey, .signEvent, .getRelays, .nip04Encrypt, .nip04Decrypt, .nip44Encrypt, .nip44Decrypt,
    .signPqAttestation]

inductive EncryptScheme where
  | classic
  | pq (recipientKemKey : Units)

inductive Params (ρ : Type) where
  | getPublicKey
  | getRelays
  | signEvent (event : CopiedEvent ρ)
  | nip04Encrypt (pubkey plaintext : Units)
  | nip44Encrypt (pubkey plaintext : Units) (scheme : EncryptScheme)
  | nip04Decrypt (pubkey ciphertext : Units)
  | nip44Decrypt (pubkey ciphertext : Units) (scheme : DecryptScheme)
  | signPqAttestation

/-- The params of a request as they travel. -/
inductive Wire (ρ : Type) where
  | empty
  | event (event : CopiedEvent ρ)
  | plaintext (pubkey plaintext : Units) (recipientKemKey : Option Units)
  | ciphertext (pubkey ciphertext : Units)

structure Origin where
  kind : OriginKind
  identifier : Units
  displayName : Option Units := none
  icon : Option Units := none

structure Request (ρ : Type) where
  id : Units
  origin : Origin
  method : SignerMethod
  params : Wire ρ
  receivedAt : Rat

structure BatchItem (ρ : Type) where
  id : Units
  method : SignerMethod
  params : Wire ρ

structure BatchRequest (ρ : Type) where
  id : Units
  origin : Origin
  items : List (BatchItem ρ)
  receivedAt : Rat

/-- An item, what it was charged and what it left of the budget. -/
structure Measured (ρ : Type) where
  id : Units
  params : Params ρ
  bytes : Nat
  left : Int

section Params

variable {ρ : Type}

def Params.method : Params ρ → SignerMethod
  | .getPublicKey => .getPublicKey
  | .getRelays => .getRelays
  | .signEvent _ => .signEvent
  | .nip04Encrypt .. => .nip04Encrypt
  | .nip44Encrypt .. => .nip44Encrypt
  | .nip04Decrypt .. => .nip04Decrypt
  | .nip44Decrypt .. => .nip44Decrypt
  | .signPqAttestation => .signPqAttestation

/-- The wire params the frozen request carries for a validated set. -/
def wireParams : Params ρ → Wire ρ
  | .getPublicKey | .getRelays | .signPqAttestation => .empty
  | .signEvent event => .event event
  | .nip04Encrypt pubkey plaintext => .plaintext pubkey plaintext none
  | .nip44Encrypt pubkey plaintext .classic => .plaintext pubkey plaintext none
  | .nip44Encrypt pubkey plaintext (.pq recipientKemKey) =>
    .plaintext pubkey plaintext (some recipientKemKey)
  | .nip04Decrypt pubkey ciphertext | .nip44Decrypt pubkey ciphertext _ =>
    .ciphertext pubkey ciphertext

end Params

/-! ## Envelopes -/

def BASE64_ALPHABET : List Char :=
  "ABCDEFGHIJKLMNOPQRSTUVWXYZabcdefghijklmnopqrstuvwxyz0123456789+/".toList

def headerBytes (payload : List Char) : Option (Nat × Nat) :=
  match payload with
  | first :: second :: third :: fourth :: _ =>
    match [first, second, third, fourth].mapM fun char => BASE64_ALPHABET.idxOf? char with
    | some digits =>
      let accumulator := digits.foldl (fun accumulator digit => accumulator * 64 + digit) 0
      some (accumulator / 2 ^ 16 % 256, accumulator / 2 ^ 8 % 256)
    | none => none
  | _ => none

inductive EnvelopeClass where
  | pq
  | pqUnreadable
  | classic
  deriving DecidableEq

def classifyEnvelope (payload : Units) : EnvelopeClass :=
  let text := Units.scalars payload
  match headerBytes text with
  | none => .classic
  | some header =>
    if header.1 ≠ Pq.ENVELOPE_VERSION.toNat then .classic
    else if header.2 ≠ Pq.ALG_MLKEM1024_XCHACHA.toNat then .pqUnreadable
    else
      match Base64.atob text with
      | none => .pqUnreadable
      | some bytes =>
        if Pq.HEADER_BYTES + Pq.TAG_BYTES ≤ bytes.length then .pq else .pqUnreadable

def decryptScheme (ciphertext : Units) : DecryptScheme :=
  match classifyEnvelope ciphertext with
  | .classic => .classic
  | .pq => .pq .hybrid
  | .pqUnreadable => .pq .unreadable

/-! ## Params -/

section Reading

variable {σ ρ ι α : Type} (caller : Caller σ ρ ι)

def batchTooLarge : SignerError :=
  invalid ("batch is too large: at most " ++ toString MAX_BATCH_BYTES ++ " bytes as JSON across " ++
    "every item")

def isBase64Unit (unit : UInt16) : Bool :=
  (65 ≤ unit && unit ≤ 90) || (97 ≤ unit && unit ≤ 122) || (48 ≤ unit && unit ≤ 57) ||
    unit = 43 || unit = 47

/-- `/^[A-Za-z0-9+/]+=*$/`. -/
def isBase64 (text : Units) : Bool :=
  let rest := text.dropWhile isBase64Unit
  (text.head?.any isBase64Unit) && rest.all (· = 61)

/-- The smaller of a method's own limit and what a batch has left. -/
def limitOf (cap : Nat) (budget : Option Int) : Int :=
  match budget with
  | none => cap
  | some budget => min cap budget

def tooLargeOf (cap : Nat) (budget : Option Int) (own : SignerError) : SignerError :=
  if limitOf cap budget < cap then batchTooLarge else own

def isUndefined : Foreign ρ → Bool
  | .undefined => true
  | _ => false

def readKemKey (opts : ρ) : Reads σ EncryptScheme := do
  match ← caller.get opts (.name "recipientKemKey") with
  | .text key =>
    if key.length ≠ RECIPIENT_KEM_KEY_LENGTH then
      fail ("opts.recipientKemKey must be " ++ toString RECIPIENT_KEM_KEY_LENGTH ++
        " base64 characters")
    else if !isBase64 key then fail "opts.recipientKemKey must be base64"
    else return .pq key
  | _ => fail "opts.recipientKemKey must be a string"

def validateEncryptScheme (raw : ρ) : Reads σ EncryptScheme := do
  let value ← caller.get raw (.name "opts")
  if isUndefined value then return .classic
  else
    match ← isRecord caller value with
    | none => fail "opts must be an object"
    | some opts =>
      match ← caller.get opts (.name "scheme") with
      | .text scheme =>
        if scheme ≠ Units.ofString "pq" then fail "opts.scheme must be pq"
        else readKemKey caller opts
      | _ => fail "opts.scheme must be pq"

def readPlaintext (raw : ρ) (budget : Option Int) : Reads σ (Units × Units × Nat) := do
  let pubkey ← requirePubkey (← caller.get raw (.name "pubkey")) "pubkey"
  let plaintext ← requireString (← caller.get raw (.name "plaintext")) "plaintext"
  let tooLarge := tooLargeOf MAX_CRYPTO_PLAINTEXT_BYTES budget
    (invalid ("plaintext may be at most " ++ toString MAX_CRYPTO_PLAINTEXT_BYTES ++ " bytes"))
  if limitOf MAX_CRYPTO_PLAINTEXT_BYTES budget < plaintext.length then refuse tooLarge
  else if limitOf MAX_CRYPTO_PLAINTEXT_BYTES budget < utf8ByteLength plaintext then refuse tooLarge
  else return (pubkey, plaintext, utf8ByteLength plaintext)

def readCiphertext (raw : ρ) (budget : Option Int) : Reads σ (Units × Units) := do
  let pubkey ← requirePubkey (← caller.get raw (.name "pubkey")) "pubkey"
  let ciphertext ← requireNonEmptyString (← caller.get raw (.name "ciphertext")) "ciphertext"
  if limitOf MAX_CRYPTO_CIPHERTEXT_LENGTH budget < ciphertext.length then
    refuse (tooLargeOf MAX_CRYPTO_CIPHERTEXT_LENGTH budget (invalid ("ciphertext may be at most " ++
      toString MAX_CRYPTO_CIPHERTEXT_LENGTH ++ " characters")))
  else return (pubkey, ciphertext)

def validateParams (fuel : Nat) (method : SignerMethod) (raw : ρ) (budget : Option Int) :
    Reads σ (Params ρ × Nat) :=
  match method with
  | .getPublicKey => return (.getPublicKey, 0)
  | .getRelays => return (.getRelays, 0)
  | .signPqAttestation => do
      if 0 < (← caller.keys raw) then fail "signPqAttestation takes no params"
      else return (.signPqAttestation, 0)
  | .signEvent => do
      let (event, bytes) ← validateTemplate caller fuel (← caller.get raw (.name "event"))
        (limitOf MAX_EVENT_BYTES budget) (tooLargeOf MAX_EVENT_BYTES budget eventTooLarge)
      return (.signEvent event, bytes)
  | .nip04Encrypt => do
      let (pubkey, plaintext, bytes) ← readPlaintext caller raw budget
      if isUndefined (← caller.get raw (.name "opts")) then
        return (.nip04Encrypt pubkey plaintext, bytes)
      else fail "opts are only supported for nip44Encrypt"
  | .nip44Encrypt => do
      let (pubkey, plaintext, bytes) ← readPlaintext caller raw budget
      match ← validateEncryptScheme caller raw with
      | .classic => return (.nip44Encrypt pubkey plaintext .classic, bytes)
      | .pq key =>
        return (.nip44Encrypt pubkey plaintext (.pq key), bytes + RECIPIENT_KEM_KEY_LENGTH)
  | .nip04Decrypt => do
      let (pubkey, ciphertext) ← readCiphertext caller raw budget
      return (.nip04Decrypt pubkey ciphertext, ciphertext.length)
  | .nip44Decrypt => do
      let (pubkey, ciphertext) ← readCiphertext caller raw budget
      return (.nip44Decrypt pubkey ciphertext (decryptScheme ciphertext), ciphertext.length)

/-! ## The envelope -/

def stringOf (text : Units) : Option String :=
  let read := String.ofList (Units.scalars text)
  if Units.ofString read = text then some read else none

/-- `canonicalIdentifier`: no origin, hostname or key has a lone surrogate. -/
def canonicalUnits (kind : OriginKind) (identifier : Units) : Reads σ Units :=
  match stringOf identifier with
  | some text =>
    match canonicalIdentifier kind text with
    | .ok canonical => return Units.ofString canonical
    | .error error => refuse error
  | none =>
    match kind with
    | .web => fail ("origin.identifier for a web origin must be an exact http(s) origin or a " ++
        "bare hostname")
    | .nip46 => fail "origin.identifier for a nip46 origin must be 64 lowercase hex characters"
    | _ => return identifier

def validateOrigin (value : Foreign ρ) : Reads σ Origin := do
  match ← isRecord caller value with
  | none => fail "origin must be an object"
  | some origin =>
    let named := match ← caller.get origin (.name "kind") with
      | .text text => ORIGIN_KINDS.find? fun kind => Units.ofString kind.name = text
      | _ => none
    match named with
    | none =>
      fail ("origin.kind must be one of " ++ ", ".intercalate (ORIGIN_KINDS.map OriginKind.name))
    | some kind =>
      let identifier ← requireBoundedString (← caller.get origin (.name "identifier"))
        "origin.identifier" MAX_ORIGIN_IDENTIFIER_LENGTH
      let filled ← requireNonEmptyString (.text identifier : Foreign ρ) "origin.identifier"
      let identifier ← canonicalUnits kind filled
      let displayName ← readDefined caller origin "displayName" fun value =>
        requireBoundedString value "origin.displayName" MAX_ORIGIN_DISPLAY_NAME_LENGTH
      let icon ← readDefined caller origin "icon" fun value =>
        requireBoundedString value "origin.icon" MAX_ORIGIN_ICON_LENGTH
      return { kind, identifier, displayName, icon }

def readId (reference : ρ) (what : String) : Reads σ Units := do
  let id ← requireBoundedString (← caller.get reference (.name "id")) what MAX_REQUEST_ID_LENGTH
  requireNonEmptyString (.text id : Foreign ρ) what

def readMethod (reference : ρ) (methods : List SignerMethod) (what : String) :
    Reads σ SignerMethod := do
  let named := match ← caller.get reference (.name "method") with
    | .text text => methods.find? fun method => Units.ofString method.name = text
    | _ => none
  match named with
  | some method => return method
  | none =>
    fail (what ++ " must be one of " ++ ", ".intercalate (methods.map SignerMethod.name))

def readReceivedAt (reference : ρ) : Reads σ Rat := do
  match ← caller.get reference (.name "receivedAt") with
  | .number (.finite time) => return time
  | _ => fail "receivedAt must be a finite number"

def readParams (reference : ρ) (what : String) : Reads σ ρ := do
  match ← isRecord caller (← caller.get reference (.name "params")) with
  | some params => return params
  | none => fail (what ++ " must be an object")

/-! ## Freezing -/

def freezeValue (value : Foreign ρ) : Reads σ Unit :=
  match value with
  | .object reference => caller.freeze reference
  | _ => return ()

def freezeEvent (event : CopiedEvent ρ) : Reads σ Unit :=
  match event.tags with
  | .own tags => (tags.flatMap (·.getD [])).forM (freezeValue caller)
  | .answered value => freezeValue caller value

def freezeParams (params : Params ρ) : Reads σ Unit :=
  match params with
  | .signEvent event => freezeEvent caller event
  | _ => return ()

/-! ## Requests -/

def validate (fuel : Nat) (input : Foreign ρ) : Reads σ (Request ρ × Params ρ) := do
  match ← isRecord caller input with
  | none => fail "request must be an object"
  | some request =>
    let id ← readId caller request "id"
    let origin ← validateOrigin caller (← caller.get request (.name "origin"))
    let method ← readMethod caller request SIGNER_METHODS "method"
    let receivedAt ← readReceivedAt caller request
    let rawParams ← readParams caller request "params"
    let (params, _) ← validateParams caller fuel method rawParams none
    freezeParams caller params
    return ({ id, origin, method, params := wireParams params, receivedAt }, params)

/-- What the caller's code throws is not echoed. -/
def guarded (what : String) (run : Reads σ α) : Reads σ α := fun state =>
  match run state with
  | .error .foreign => .error (.signer (invalid (what ++ " could not be read")))
  | outcome => outcome

def validateRequest (fuel : Nat) (input : Foreign ρ) : Reads σ (Request ρ × Params ρ) :=
  guarded "request" (validate caller fuel input)

/-- An item's own error says which item it is of. -/
def located (at_ : String) (run : Reads σ α) : Reads σ α := fun state =>
  match run state with
  | .error (.signer error) => .error (.signer (invalid (at_ ++ ": " ++ error.message)))
  | outcome => outcome

def walkItems (fuel : Nat) (rawItems : ρ) :
    (rounds index : Nat) → (seen : List Units) → (remaining : Int) → Reads σ (List (Measured ρ))
  | 0, _, _, _ => throw .endless
  | rounds + 1, index, seen, remaining => do
      let length ← toNumber caller (← caller.get rawItems (.name "length"))
      if (Number.finite index).lt length then
        let at_ := "items[" ++ toString index ++ "]"
        match ← isRecord caller (← caller.get rawItems (.index index)) with
        | none => fail (at_ ++ " must be an object")
        | some raw =>
          let id ← readId caller raw (at_ ++ ".id")
          if id ∈ seen then fail (at_ ++ ".id must be unique within the batch")
          else
            let method ← readMethod caller raw KEY_METHODS (at_ ++ ".method")
            let rawParams ← readParams caller raw (at_ ++ ".params")
            let (params, bytes) ←
              located at_ (validateParams caller fuel method rawParams (some remaining))
            let others ← walkItems fuel rawItems rounds (index + 1) (id :: seen) (remaining - bytes)
            return { id, params, bytes, left := remaining - bytes } :: others
      else return []

def Measured.wire (item : Measured ρ) : BatchItem ρ :=
  ⟨item.id, item.params.method, wireParams item.params⟩

def validateBatch (fuel : Nat) (input : Foreign ρ) :
    Reads σ (BatchRequest ρ × List (Measured ρ)) := do
  match ← isRecord caller input with
  | none => fail "batch must be an object"
  | some batch =>
    let id ← readId caller batch "id"
    let origin ← validateOrigin caller (← caller.get batch (.name "origin"))
    let receivedAt ← readReceivedAt caller batch
    match ← caller.get batch (.name "items") with
    | .object rawItems =>
      if !(← caller.isArray rawItems) then fail "items must be an array"
      else if isZero (← caller.get rawItems (.name "length")) then
        fail "items must hold at least one item"
      else
        let length ← toNumber caller (← caller.get rawItems (.name "length"))
        if (Number.finite MAX_BATCH_ITEMS).lt length then
          fail ("items may hold at most " ++ toString MAX_BATCH_ITEMS ++ " items")
        else
          let items ← walkItems caller fuel rawItems fuel 0 [] MAX_BATCH_BYTES
          items.forM fun item => freezeParams caller item.params
          return ({ id, origin, items := items.map Measured.wire, receivedAt }, items)
    | _ => fail "items must be an array"

def validateBatchRequest (fuel : Nat) (input : Foreign ρ) :
    Reads σ (BatchRequest ρ × List (Measured ρ)) :=
  guarded "batch" (validateBatch caller fuel input)

end Reading

end NostrWot.Signing.Untrusted
