import NostrWot.Permissions.Authentication

namespace NostrWot.Signing

open NostrWot.Data NostrWot.Permissions

/-! # Signing requests

What passed the boundary, what is about to be executed, and what a prompt is shown.
-/

inductive AccountType where
  | generated
  | nsec
  | npub
  | nip46
  | external
  deriving DecidableEq, Repr

/-- The public fields of an account. -/
structure SafeAccount where
  id : String
  name : String := ""
  type : AccountType
  pubkey : String
  readOnly : Bool := false
  createdAt : Int := 0
  derivationIndex : Option Nat := none
  derivationPath : Option String := none
  deriving DecidableEq

inductive SignerErrorCode where
  | invalid_request
  | permission_denied
  | rejected
  | too_many_pending
  | timeout
  | account_switched
  | author_mismatch
  | vault_locked
  | no_account
  | unsupported
  | shutdown
  | operation_failed
  | internal
  deriving DecidableEq, Repr

structure SignerError where
  code : SignerErrorCode
  message : String
  deriving DecidableEq

inductive FailureSource where
  | vault
  | callback
  deriving DecidableEq

/-- What can be thrown: a `SignerError`, an `ExecuteFailure`, or whatever a port threw. -/
inductive Fault where
  | signer (error : SignerError)
  | execute (message : String) (source : FailureSource) (lockedAtThrow : Bool)
  | foreign (name message : String)
  deriving DecidableEq

def Fault.message : Fault → String
  | .signer error => error.message
  | .execute message _ _ => message
  | .foreign _ message => message

structure RequestOrigin where
  kind : OriginKind
  identifier : String
  displayName : Option String := none
  icon : Option String := none
  deriving DecidableEq

def permissionOrigin (origin : RequestOrigin) : String :=
  match origin.kind with
  | .web => origin.identifier
  | kind => kind.name ++ ":" ++ origin.identifier

inductive SignerMethod where
  | getPublicKey
  | signEvent
  | getRelays
  | nip04Encrypt
  | nip04Decrypt
  | nip44Encrypt
  | nip44Decrypt
  | signPqAttestation
  deriving DecidableEq, Repr

def SignerMethod.name : SignerMethod → String
  | .getPublicKey => "getPublicKey"
  | .signEvent => "signEvent"
  | .getRelays => "getRelays"
  | .nip04Encrypt => "nip04Encrypt"
  | .nip04Decrypt => "nip04Decrypt"
  | .nip44Encrypt => "nip44Encrypt"
  | .nip44Decrypt => "nip44Decrypt"
  | .signPqAttestation => "signPqAttestation"

def KEY_METHODS : List SignerMethod :=
  [.signEvent, .nip04Encrypt, .nip04Decrypt, .nip44Encrypt, .nip44Decrypt, .signPqAttestation]

structure EventTemplateInput where
  kind : Int
  content : String
  tags : List (List String)
  created_at : Option Int := none
  pubkey : Option String := none
  deriving DecidableEq

/-- The construction an encrypt asked for; the post-quantum one names the recipient's key. -/
inductive EncryptScheme where
  | classic
  | pq (recipientKemKey : String)
  deriving DecidableEq

inductive Envelope where
  | hybrid
  | unreadable
  deriving DecidableEq

inductive DecryptScheme where
  | classic
  | pq (envelope : Envelope)
  deriving DecidableEq

inductive ValidatedParams where
  | getPublicKey
  | getRelays
  | signEvent (event : EventTemplateInput)
  | nip04Encrypt (pubkey plaintext : String)
  | nip44Encrypt (pubkey plaintext : String) (scheme : EncryptScheme)
  | nip04Decrypt (pubkey ciphertext : String)
  | nip44Decrypt (pubkey ciphertext : String) (scheme : DecryptScheme)
  | signPqAttestation
  deriving DecidableEq

def ValidatedParams.method : ValidatedParams → SignerMethod
  | .getPublicKey => .getPublicKey
  | .getRelays => .getRelays
  | .signEvent _ => .signEvent
  | .nip04Encrypt .. => .nip04Encrypt
  | .nip44Encrypt .. => .nip44Encrypt
  | .nip04Decrypt .. => .nip04Decrypt
  | .nip44Decrypt .. => .nip44Decrypt
  | .signPqAttestation => .signPqAttestation

inductive PreparedParams where
  | arrived (params : ValidatedParams) (ordinary : params ≠ .signPqAttestation)
  | signPqAttestation (event : EventTemplateInput)
  deriving DecidableEq

/-- The params of a request as they travel. -/
inductive WireParams where
  | empty
  | event (event : EventTemplateInput)
  | plaintext (pubkey plaintext : String) (recipientKemKey : Option String)
  | ciphertext (pubkey ciphertext : String)
  deriving DecidableEq

def wireParams : ValidatedParams → WireParams
  | .getPublicKey | .getRelays | .signPqAttestation => .empty
  | .signEvent event => .event event
  | .nip04Encrypt pubkey plaintext => .plaintext pubkey plaintext none
  | .nip44Encrypt pubkey plaintext .classic => .plaintext pubkey plaintext none
  | .nip44Encrypt pubkey plaintext (.pq recipientKemKey) =>
    .plaintext pubkey plaintext (some recipientKemKey)
  | .nip04Decrypt pubkey ciphertext | .nip44Decrypt pubkey ciphertext _ =>
    .ciphertext pubkey ciphertext

structure SignerRequest where
  id : String
  origin : RequestOrigin
  method : SignerMethod
  params : WireParams
  receivedAt : Rat := 0
  deriving DecidableEq

/-- A request that passed the boundary, and the same data typed. -/
structure ValidatedRequest where
  request : SignerRequest
  params : ValidatedParams
  method_eq : request.method = params.method
  params_eq : request.params = wireParams params
  named : request.origin.identifier ≠ ""

structure SignerBatchItem where
  id : String
  method : SignerMethod
  params : WireParams
  deriving DecidableEq

structure SignerBatchRequest where
  id : String
  origin : RequestOrigin
  items : List SignerBatchItem
  receivedAt : Rat := 0
  deriving DecidableEq

structure ValidatedBatchItem where
  id : String
  params : ValidatedParams
  deriving DecidableEq

def ValidatedBatchItem.wire (item : ValidatedBatchItem) : SignerBatchItem :=
  ⟨item.id, item.params.method, wireParams item.params⟩

def MAX_BATCH_ITEMS : Nat := 64

structure ValidatedBatch where
  request : SignerBatchRequest
  items : List ValidatedBatchItem
  items_eq : request.items = items.map ValidatedBatchItem.wire
  named : request.origin.identifier ≠ ""
  nonempty : items ≠ []
  bounded : items.length ≤ MAX_BATCH_ITEMS
  distinct : (items.map ValidatedBatchItem.id).Nodup
  useKey : ∀ item ∈ items, item.params.method ∈ KEY_METHODS

def disclosedRequest (request : SignerRequest) : PreparedParams → SignerRequest
  | .arrived .. => request
  | .signPqAttestation event => { request with method := .signEvent, params := .event event }

def disclosedItem (item : SignerBatchItem) : PreparedParams → SignerBatchItem
  | .arrived .. => item
  | .signPqAttestation event => { item with method := .signEvent, params := .event event }

def disclosedBatch (batch : SignerBatchRequest) (prepared : List PreparedParams) :
    SignerBatchRequest :=
  { batch with items := batch.items.zipWith disclosedItem prepared }

def PQC_KIND : Int := 10203

/-- A permission rule: a method, and a kind for `signEvent`. -/
structure Asked where
  method : SignerMethod
  kind : Option Int
  deriving DecidableEq

def permissionRule : ValidatedParams → Asked
  | .signEvent event => ⟨.signEvent, some event.kind⟩
  | .signPqAttestation => ⟨.signEvent, some PQC_KIND⟩
  | params => ⟨params.method, none⟩

def needsPqKeys : ValidatedParams → Bool
  | .nip44Encrypt _ _ (.pq _) | .nip44Decrypt _ _ (.pq _) | .signPqAttestation => true
  | _ => false

def remotePqRefusal (params : ValidatedParams) : Option String :=
  if !needsPqKeys params then none
  else
    match params with
    | .nip44Encrypt .. => some "Remote signers do not support post-quantum encryption"
    | .nip44Decrypt .. => some "Remote signers cannot read post-quantum messages"
    | _ => some "Remote signers do not support post-quantum keys"

/-- The host's answer to a prompt. -/
structure ApprovalDecision where
  allow : Bool
  authenticationScope : Option AuthenticationScope := none
  remember : Bool := false
  rememberKind : Option Bool := none
  reason : Option String := none
  deriving DecidableEq

structure ApprovalContext where
  authentication : AuthenticationRequest
  requester : String
  scopes : List AuthenticationScope
  deriving DecidableEq

inductive AuthenticationConsent where
  | prompted (scope : AuthenticationScope)
  | grant
  | ownPath
  deriving DecidableEq

/-- A signed event, and the only fields of a remote answer that are handed back. -/
structure SignedEvent where
  id : String
  pubkey : String
  created_at : Int
  kind : Int
  tags : List (List String)
  content : String
  sig : String
  deriving DecidableEq

/-- An object a remote port answered; `none` where a field is missing or has
another type than a signed event's. -/
structure RemoteObject where
  id : Option String := none
  pubkey : Option String := none
  created_at : Option Int := none
  kind : Option Int := none
  tags : Option (List (List String)) := none
  content : Option String := none
  sig : Option String := none
  deriving DecidableEq

structure RelayMode where
  read : Bool
  write : Bool
  deriving DecidableEq

/-- The result of a method. -/
inductive Value where
  | text (text : String)
  | event (event : SignedEvent)
  | relays (relays : Record RelayMode)
  | object (fields : RemoteObject)
  deriving DecidableEq

def failed (code : SignerErrorCode) (message : String) : Fault := .signer ⟨code, message⟩

/-- A stated time comes back unchanged; an unstated one is any natural number. -/
def timeFits (template : EventTemplateInput) (created_at : Option Int) : Bool :=
  match template.created_at with
  | some stated => created_at = some stated
  | none => created_at.any (0 ≤ ·)

/-- `verifyEvent` is the signature library's. -/
def verifyRemoteSignedEvent (verifyEvent : SignedEvent → Bool) (result : Value)
    (template : EventTemplateInput) (expectedPubkey : String) : Except Fault Value :=
  match result with
  | .object fields =>
    if fields.pubkey ≠ some expectedPubkey then
      .error (failed .author_mismatch "Event author does not match the active account")
    else if fields.kind ≠ some template.kind ∨ fields.content ≠ some template.content ∨
        fields.tags ≠ some template.tags ∨ ¬ timeFits template fields.created_at then
      .error (failed .operation_failed "Remote signer changed the approved event")
    else
      match fields.id, fields.sig with
      | some id, some sig =>
        let verified : SignedEvent :=
          { id, pubkey := expectedPubkey, created_at := fields.created_at.getD 0,
            kind := template.kind, tags := template.tags, content := template.content, sig }
        if verifyEvent verified then .ok (.event verified)
        else .error (failed .operation_failed "Remote signer returned an invalid signature")
      | _, _ => .error (failed .operation_failed "Remote signer did not return a signed event")
  | _ => .error (failed .operation_failed "Remote signer did not return an event")

end NostrWot.Signing
