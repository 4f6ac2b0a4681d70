import NostrWot.Async.System
import NostrWot.Signing.Queue

namespace NostrWot.Signing

open NostrWot.Data NostrWot.Permissions NostrWot.Async

/-! # The pipeline

`SignerCore.handle` and `handleBatch` as asynchronous programs.  Whatever the
ports do, they do it between two awaits.
-/

def GET_PUBLIC_KEY_COOLDOWN_MS : Int := 60000

structure Cooldown where
  expiresAt : Int
  accountId : String
  deriving DecidableEq

structure Revocation where
  serial : Nat
  reason : String
  deriving DecidableEq

structure AuthenticationRun where
  requester : Requester
  key : String
  auth : AuthenticationRequest
  self : Bool
  consent : Option AuthenticationConsent := none
  stored : Option GrantDecision := none
  deriving DecidableEq

inductive RunPhase where
  | pipeline
  | execute
  deriving DecidableEq

/-- What a call knows about its request by the time it reports the outcome. -/
structure RunContext where
  account : Option SafeAccount := none
  phase : RunPhase := .pipeline
  prepared : Option (List PreparedParams) := none
  authentication : Option AuthenticationRun := none

/-- What the vault answers without an await. -/
structure VaultView where
  locked : Bool := true
  mnemonics : List String := []
  importedPqKeys : List String := []

/-- What has happened to a core, for reasoning about it; the code never reads it. -/
inductive Happening where
  | presented (origin : String) (call : Nat)
  | approved (origin : String) (call : Nat)
  | revoked (target reason : String)
  | answering (account : Option SafeAccount)
  deriving DecidableEq

structure SignerCore where
  cooldowns : OrderedMap String Cooldown := ∅
  revocations : OrderedMap String Revocation := ∅
  revocationSerial : Nat := 0
  disposed : Bool := false
  queue : ApprovalQueue := {}
  contexts : Nat → RunContext := fun _ => {}
  vault : VaultView := {}
  now : Int := 0
  history : List Happening := []

/-- The material of a post-quantum scope. -/
structure PqKeys where
  kemPublic : String
  kemSecret : String
  dsaPublic : String
  dsaSecret : String
  deriving DecidableEq

inductive PqSource where
  | derived
  | imported
  deriving DecidableEq

structure PqKeyScope where
  source : PqSource
  keys : PqKeys
  deriving DecidableEq

/-- The work a queue entry waits for. -/
inductive Work where
  | present (shown : SignerRequest) (account : SafeAccount) (context : Option ApprovalContext)
  | presentBatch (shown : SignerBatchRequest) (account : SafeAccount)
  | requestUnlock (request : SignerRequest) (account : SafeAccount)
  | requestUnlockBatch (batch : SignerBatchRequest) (account : SafeAccount)
  | execute (account : SafeAccount) (request : SignerRequest) (params : ValidatedParams)
  deriving DecidableEq

abbrev Work.Reply : Work → Type
  | .present .. | .presentBatch .. => ApprovalDecision
  | .requestUnlock .. | .requestUnlockBatch .. => Unit
  | .execute .. => Value

inductive Computation where
  | signEvent (kind : Int) (content : String) (tags : List (List String)) (created_at : Int)
  | nip04Encrypt (pubkey plaintext : String)
  | nip04Decrypt (pubkey ciphertext : String)
  | nip44Encrypt (pubkey plaintext : String)
  | nip44Decrypt (pubkey ciphertext : String)
  | nip44EncryptPq (pubkey plaintext recipientKemKey : String) (kem : PqKeys)
  | nip44DecryptPq (pubkey ciphertext : String) (kem : PqKeys)
  deriving DecidableEq

structure AuthenticationActivity where
  protocol : AuthenticationProtocol
  destination : String
  method : Option String
  requester : String
  consent : Option AuthenticationConsent
  deriving DecidableEq

/-- What an activity entry says about the params. -/
inductive ActivityDetail where
  | none
  | event (kind : Int) (event : Option EventTemplateInput)
  | crypto (theirPubkey : String) (ciphertext : Option String) (scheme : Option String)
  deriving DecidableEq

structure ActivityEntry where
  requestId : String
  timestamp : Int
  origin : RequestOrigin
  method : SignerMethod
  accountId : Option String
  pubkey : Option String
  decision : GrantDecision
  batchId : Option String := none
  authentication : Option AuthenticationActivity := none
  reason : Option String := none
  code : Option SignerErrorCode := none
  detail : ActivityDetail := .none
  deriving DecidableEq

/-- The vault's inScope accessors. -/
inductive Accessor where
  | withPrivkey
  | withMnemonic
  | withImportedPqKeys
  | withDerivedSecrets
  deriving DecidableEq

inductive SignerCall where
  | getActiveAccount
  | check (origin : String) (rule : Asked) (accountId : String)
  | save (origin : String) (rule : Asked) (decision : GrantDecision) (accountId : String)
  | decisionFor (accountId requester : String) (auth : AuthenticationRequest)
  | saveGrant (accountId requester : String) (auth : AuthenticationRequest)
      (scope : AuthenticationScope) (decision : GrantDecision)
  | originFor (request : SignerRequest) (account : SafeAccount)
  | requesterFor (request : SignerRequest) (account : SafeAccount)
  | assertAllowed (request : SignerRequest) (account : SafeAccount) (auth : AuthenticationRequest)
  | tracked (call : Nat) (origin : String) (work : Work)
  | getRelays (account : SafeAccount)
  /-- The vault hands its copy of the key to the callback. -/
  | withPrivkey (accountId : String)
  | publicKey (key : String)
  | compute (key : String) (computation : Computation)
  | withImportedPqKeys (accountId : String)
  | withMnemonic (accountId : String)
  | withDerivedSecrets (keys : PqKeys)
  /-- The callback is over: the vault zeroes its copy and gives the result back, or voids it. -/
  | leave (accessor : Accessor)
  | record (entry : ActivityEntry)
  | yieldToHost
  deriving DecidableEq

abbrev SignerCall.Reply : SignerCall → Type
  | .getActiveAccount => Option SafeAccount
  | .check .. => PermissionDecision
  | .decisionFor .. => Option GrantDecision
  | .originFor .. => String
  | .requesterFor .. => AuthenticationRequester
  | .tracked _ _ work => work.Reply
  | .getRelays _ => Record RelayMode
  | .withPrivkey _ | .publicKey _ | .withMnemonic _ => String
  | .compute .. => Value
  | .withImportedPqKeys _ => PqKeys
  | _ => Unit

abbrev signerInterface : Interface where
  Memory := SignerCore
  Request := SignerCall
  Reply := SignerCall.Reply
  Fault := Fault

abbrev Task (α : Type) : Type := Program signerInterface α

def ask (call : SignerCall) : Task call.Reply := Program.call (I := signerInterface) call

def inspect {α : Type} (view : SignerCore → α) : Task α := Program.read (I := signerInterface) view

def update (change : SignerCore → SignerCore) : Task Unit :=
  Program.modify (I := signerInterface) change

def raise {α : Type} (fault : Fault) : Task α := Program.throw (I := signerInterface) fault

def refuse {α : Type} (code : SignerErrorCode) (message : String) : Task α :=
  raise (failed code message)

/-- How the host answers who is asking. -/
inductive RequesterResolver where
  | originFor
  | requesterFor
  | attested
  deriving DecidableEq

structure AuthenticationPolicy extends AuthenticationParserOptions where
  resolver : RequesterResolver := .attested
  assertsAllowed : Bool := false
  grants : Bool := false
  rememberFor : List OriginKind := NON_WEB_REQUESTER_KINDS
  selfRequesters : List AuthenticationRequester := []

/-- Which optional ports the host supplies, its authentication policy, and the
libraries the pipeline calls. -/
structure SignerCoreDeps where
  presentsBatch : Bool := true
  unlock : Bool := true
  unlocksBatch : Bool := true
  remote : Bool := true
  relays : Bool := true
  authentication : AuthenticationPolicy := {}
  verifyEvent : SignedEvent → Bool
  buildAttestationTags : (pubkey : String) → PqKeyScope → List (List String)
  derivePqKeys : (mnemonic : String) → (derivationPath : Option String) →
    (derivationIndex : Nat) → PqKeys

def onlyIf (condition : Prop) [Decidable condition] (task : Task Unit) : Task Unit :=
  if condition then task else pure ()

variable (deps : SignerCoreDeps) (call : Nat)

def setContext (change : RunContext → RunContext) : Task Unit :=
  update fun core =>
    { core with contexts := Function.update core.contexts call (change (core.contexts call)) }

def isLocked : Task Bool := inspect fun core => core.vault.locked

def track (input : TrackInput) (work : Work) : Task work.Reply :=
  .access
    (fun core =>
      match core.queue.refusal input with
      | some _ => core
      | none =>
        { core with
          queue := core.queue.enter input call core.now
          history := if input.kind = .approval then
              core.history ++ [.presented input.origin call]
            else core.history })
    fun core =>
      match core.queue.refusal input with
      | some error => raise (.signer error)
      | none => ask (.tracked call input.origin work)

def assertStillActive (shown : SafeAccount) : Task Unit := do
  match ← ask .getActiveAccount with
  | some current =>
    if current.id = shown.id ∧ current.pubkey = shown.pubkey then return
    else refuse .account_switched "Account switched"
  | none => refuse .account_switched "Account switched"

def sameSite (left right : String) : Bool :=
  left = right || (siteScopes left).any fun scope => (siteScopes right).contains scope

/-- The first revocation of the site since `revokedBefore`. -/
def SignerCore.revokedSince (core : SignerCore) (originKey : String) (revokedBefore : Nat) :
    Option SignerError :=
  if core.revocationSerial = revokedBefore then none
  else
    (core.revocations.entries.find? fun entry =>
      revokedBefore < entry.2.serial && sameSite entry.1 originKey).map fun entry =>
        ⟨.rejected, entry.2.reason⟩

def stillWanted (shown : SafeAccount) (originKey : String) (revokedBefore : Nat) :
    Task (Option SignerError) := do
  match ← ask .getActiveAccount with
  | some current =>
    if current.id = shown.id ∧ current.pubkey = shown.pubkey then
      inspect fun core => core.revokedSince originKey revokedBefore
    else return some ⟨.account_switched, "Account switched"⟩
  | none => return some ⟨.account_switched, "Account switched"⟩

/-! ## Post-quantum scopes -/

def PQ_SEED_WORD_COUNT : Nat := 24

/-- Words between runs of whitespace. -/
def countWords (value : String) : Nat :=
  ((value.toList.splitOnP isTrimmed).filter fun word => !word.isEmpty).length

/-- One of the vault's accessors around `fn`: whatever `fn` did, the vault has
the last word. -/
def inScope {α : Type} (accessor : Accessor) (fn : Task α) : Task α := do
  let outcome ← (do return Except.ok (← fn) : Task (Except Fault α)).tryCatch
    fun fault => return .error fault
  ask (.leave accessor)
  match outcome with
  | .ok value => return value
  | .error fault => raise fault

def withPqKeys {α : Type} (account : SafeAccount) (fn : PqKeyScope → Task α) : Task α := do
  if account.readOnly then
    refuse .unsupported "This account is watch-only, so it cannot use post-quantum keys"
  else if ← isLocked then raise (.foreign "Error" "Vault is locked")
  else if ← inspect fun core => core.vault.importedPqKeys.contains account.id then
    let imported ← ask (.withImportedPqKeys account.id)
    inScope .withImportedPqKeys (fn ⟨.imported, imported⟩)
  else if !(← inspect fun core => core.vault.mnemonics.contains account.id) then
    refuse .unsupported "This account has no seed phrase, so it cannot use post-quantum keys"
  else
    let phrase ← ask (.withMnemonic account.id)
    inScope .withMnemonic do
      if countWords phrase ≠ PQ_SEED_WORD_COUNT then
        refuse .unsupported "Post-quantum keys require a 24-word seed phrase"
      else
        let keys := deps.derivePqKeys phrase account.derivationPath (account.derivationIndex.getD 0)
        ask (.withDerivedSecrets keys)
        inScope .withDerivedSecrets (fn ⟨.derived, keys⟩)

/-- A failure inside a key scope, unless it is the pipeline's own. -/
def wrapCallback {α : Type} (body : Task α) : Task α :=
  body.tryCatch fun fault =>
    match fault with
    | .signer error => raise (.signer error)
    | fault => do raise (.execute fault.message .callback (← isLocked))

def buildAttestation (account : SafeAccount) : Task EventTemplateInput :=
  wrapCallback (withPqKeys deps account fun scope => do
    let now ← inspect SignerCore.now
    return { kind := PQC_KIND, content := "",
             tags := deps.buildAttestationTags account.pubkey scope,
             created_at := some (now / 1000) })

/-! ## Execution -/

def classicComputation (now : Int) : PreparedParams → Except Fault Computation
  | .signPqAttestation event | .arrived (.signEvent event) _ =>
    .ok (.signEvent event.kind event.content event.tags (event.created_at.getD (now / 1000)))
  | .arrived (.nip04Encrypt pubkey plaintext) _ => .ok (.nip04Encrypt pubkey plaintext)
  | .arrived (.nip04Decrypt pubkey ciphertext) _ => .ok (.nip04Decrypt pubkey ciphertext)
  | .arrived (.nip44Encrypt pubkey plaintext .classic) _ => .ok (.nip44Encrypt pubkey plaintext)
  | .arrived (.nip44Encrypt _ _ (.pq _)) _ =>
    .error (failed .unsupported
      "nip44Encrypt with a post-quantum scheme needs the post-quantum keys")
  | .arrived (.nip44Decrypt pubkey ciphertext .classic) _ => .ok (.nip44Decrypt pubkey ciphertext)
  | .arrived (.nip44Decrypt _ _ (.pq _)) _ =>
    .error (failed .unsupported
      "nip44Decrypt of a post-quantum payload needs the post-quantum keys")
  | .arrived params _ =>
    .error (failed .unsupported (params.method.name ++ " does not use the key"))

def pqComputation (kem : PqKeys) : PreparedParams → Except Fault Computation
  | .arrived (.nip44Encrypt pubkey plaintext (.pq recipientKemKey)) _ =>
    .ok (.nip44EncryptPq pubkey plaintext recipientKemKey kem)
  | .arrived (.nip44Encrypt _ _ .classic) _ =>
    .error (failed .unsupported "classic nip44Encrypt does not use the post-quantum keys")
  | .arrived (.nip44Decrypt pubkey ciphertext (.pq .hybrid)) _ =>
    .ok (.nip44DecryptPq pubkey ciphertext kem)
  | .arrived (.nip44Decrypt _ _ (.pq .unreadable)) _ =>
    .error (failed .operation_failed
      "This post-quantum payload is not a readable hybrid envelope")
  | .arrived (.nip44Decrypt _ _ .classic) _ =>
    .error (failed .unsupported "classic nip44Decrypt does not use the post-quantum keys")
  | .arrived params _ =>
    .error (failed .unsupported (params.method.name ++ " does not use the post-quantum keys"))
  | .signPqAttestation _ =>
    .error (failed .unsupported "signPqAttestation does not use the post-quantum keys")

def liftExcept {α : Type} : Except Fault α → Task α
  | .ok value => pure value
  | .error fault => raise fault

def PreparedParams.needsPqKeys : PreparedParams → Bool
  | .arrived params _ => Signing.needsPqKeys params
  | .signPqAttestation _ => false

def execute (account : SafeAccount) (key : String) (prepared : PreparedParams) : Task Value :=
  if prepared.needsPqKeys then
    withPqKeys deps account fun scope => do
      ask (.compute key (← liftExcept (pqComputation scope.keys prepared)))
  else do
    let now ← inspect SignerCore.now
    ask (.compute key (← liftExcept (classicComputation now prepared)))

def signLocally (account : SafeAccount) (prepared : PreparedParams) : Task Value :=
  (do
    let key ← ask (.withPrivkey account.id)
    inScope .withPrivkey do
      if (← ask (.publicKey key)) ≠ account.pubkey then
        refuse .author_mismatch "Event author does not match the active account"
      else wrapCallback (execute deps account key prepared)).tryCatch fun fault =>
    match fault with
    | .signer error => raise (.signer error)
    | .execute message source locked => raise (.execute message source locked)
    | .foreign _ message => raise (.execute message .vault true)

def executeFor (account : SafeAccount) (remote : Bool) (originKey : String)
    (request : SignerRequest) (params : ValidatedParams) (prepared : PreparedParams) : Task Value :=
  match params.method with
  | .getPublicKey => return .text account.pubkey
  | .getRelays => do
      if deps.relays then return .relays (← ask (.getRelays account)) else return .relays ∅
  | _ => do
      if remote then
        let answer ← track call ⟨request.id, .remote, originKey, account.id⟩
          (.execute account request params)
        match params with
        | .signEvent event =>
          liftExcept (verifyRemoteSignedEvent deps.verifyEvent answer event account.pubkey)
        | _ => return answer
      else signLocally deps account prepared

def openVault (request : SignerRequest) (originKey : String) (account : SafeAccount) : Task Unit := do
  if !(← isLocked) then return
  else if !deps.unlock then refuse .vault_locked "Vault is locked"
  else
    track call ⟨request.id, .unlock, originKey, account.id⟩ (.requestUnlock request account)
    if ← isLocked then refuse .vault_locked "Vault is locked"

def openVaultForBatch (batch : SignerBatchRequest) (originKey : String) (account : SafeAccount) :
    Task Unit := do
  if !(← isLocked) then return
  else if !deps.unlock ∨ !deps.unlocksBatch then refuse .vault_locked "Vault is locked"
  else
    track call ⟨batch.id, .unlock, originKey, account.id⟩ (.requestUnlockBatch batch account)
    if ← isLocked then refuse .vault_locked "Vault is locked"

/-! ## Authentication -/

def isAuthenticationEvent : ValidatedParams → Bool
  | .signEvent event => AUTHENTICATION_SIGN_KINDS.contains event.kind
  | _ => false

def selfRequester (originKey : String) : Option AuthenticationRequester :=
  deps.authentication.selfRequesters.find? fun requester =>
    (authenticationRequesterKey requester).toOption = some originKey

def validateAuthenticationEvent (event : EventTemplateInput) (requester : Requester) :
    Task AuthenticationRequest := do
  let now ← inspect SignerCore.now
  match parseAuthentication ⟨event.kind, event.content, event.created_at, event.tags⟩ requester
      (now / 1000) deps.authentication.toAuthenticationParserOptions with
  | .ok (some auth) => return auth
  | _ => refuse .invalid_request "Invalid authentication request"

def attestedRequester (request : SignerRequest) (account : SafeAccount) : Task Requester :=
  match deps.authentication.resolver with
  | .requesterFor => do return .typed (← ask (.requesterFor request account))
  | .originFor => do return .origin (← ask (.originFor request account))
  | .attested =>
    return .origin (if request.origin.kind = .web then request.origin.identifier else "")

def requesterKey : Requester → Task String
  | .origin text => pure text
  | .typed requester =>
    match authenticationRequesterKey requester with
    | .ok key => pure key
    | .error _ => refuse .invalid_request "Invalid authentication request"

def resolveRequester (request : SignerRequest) (account : SafeAccount) (self : Bool) :
    Task (Requester × String) := do
  let originKey := permissionOrigin request.origin
  if self then
    match selfRequester deps originKey with
    | some declared => return (.typed declared, originKey)
    | none => refuse .permission_denied "Not one of the host's own requesters"
  else if (selfRequester deps originKey).isSome then
    refuse .permission_denied "The host's own authentication path is not reachable by request"
  else
    let requester ← attestedRequester deps request account
    let key ← requesterKey requester
    if (selfRequester deps key).isSome then
      refuse .permission_denied "The host's own authentication path is not reachable by request"
    else return (requester, key)

def parseAuthenticationOf (request : SignerRequest) (params : ValidatedParams)
    (account : SafeAccount) (self : Bool) : Task (Option AuthenticationRun) :=
  match params with
  | .signEvent event =>
    if !AUTHENTICATION_SIGN_KINDS.contains event.kind then return none
    else do
      let (requester, key) ← resolveRequester deps request account self
      let auth ← validateAuthenticationEvent deps event requester
      if self ∧ auth.protocol ≠ .nip42 then
        refuse .permission_denied "The host authenticates itself to relays only"
      else
        onlyIf deps.authentication.assertsAllowed (ask (.assertAllowed request account auth))
        return some { requester, key, auth, self }
  | _ => return none

def recheckGrant (account : SafeAccount) (prior : AuthenticationRun) : Task Unit := do
  let stored ← ask (.decisionFor account.id prior.key prior.auth)
  if stored = some .deny then refuse .permission_denied "Authentication permission denied"
  else if prior.consent = some .grant ∧ stored ≠ some .allow then
    refuse .permission_denied "Authentication permission revoked"
  else return

/-- The event of a run parsed once more, at the time it is now. -/
def recheckEvent (params : ValidatedParams) (prior : AuthenticationRun) : Task Unit :=
  match params with
  | .signEvent event => do
      let _ ← validateAuthenticationEvent deps event prior.requester
      return
  | _ => pure ()

def revalidateAuthentication (request : SignerRequest) (params : ValidatedParams)
    (account : SafeAccount) (prior : Option AuthenticationRun) (revokedBefore : Nat) : Task Unit := do
  match prior with
  | none => return
  | some prior =>
    if ← inspect SignerCore.disposed then refuse .shutdown "Signer is disposed"
    else
      let current ← parseAuthenticationOf deps request params account prior.self
      if current.all fun run =>
          run.key ≠ prior.key || authenticationKey run.auth ≠ authenticationKey prior.auth then
        refuse .rejected "Authentication context changed"
      else if (← ask (.check (permissionOrigin request.origin) (permissionRule params) account.id)) =
          .deny then
        refuse .permission_denied "Permission denied"
      else
        match ← stillWanted account (permissionOrigin request.origin) revokedBefore with
        | some revoked => raise (.signer revoked)
        | none =>
          if ← inspect SignerCore.disposed then refuse .shutdown "Signer is disposed"
          else if ← isLocked then refuse .vault_locked "Vault is locked"
          else
            onlyIf deps.authentication.grants (recheckGrant account prior)
            recheckEvent deps params prior

def Requester.kind : Requester → OriginKind
  | .origin _ => .web
  | .typed requester => requester.kind

def mayRemember (run : AuthenticationRun) : Bool :=
  deps.authentication.grants && deps.authentication.rememberFor.contains (Requester.kind run.requester)

def acceptedScopes (run : AuthenticationRun) : List AuthenticationScope :=
  if mayRemember deps run then
    .once :: [AuthenticationScope.site, .connectedSites].filter (validAuthenticationScope run.auth ·)
  else [.once]

def AUTHENTICATION_DENIED_ERROR : String := "AuthenticationDeniedError"

def saveAuthenticationGrant (run : AuthenticationRun) (scope : AuthenticationScope)
    (account : SafeAccount) (decision : GrantDecision) : Task Unit :=
  if !deps.authentication.grants then refuse .internal "Internal signer error"
  else
    (ask (.saveGrant account.id run.key run.auth scope decision)).tryCatch fun fault =>
      match fault with
      | .signer error => raise (.signer error)
      | .foreign name _ =>
        if name = AUTHENTICATION_DENIED_ERROR then
          refuse .permission_denied "Authentication permission denied"
        else refuse .internal "Could not record the authentication permission"
      | .execute .. => refuse .internal "Could not record the authentication permission"

def rememberAuthenticationDeny (run : AuthenticationRun) (account : SafeAccount) : Task Unit :=
  (saveAuthenticationGrant deps run .site account .deny).tryCatch fun fault =>
    match fault with
    | .signer error =>
      if error.code = .account_switched then raise (.signer error)
      else refuse .rejected "Authentication rejected; the rejection could not be remembered"
    | _ => refuse .rejected "Authentication rejected; the rejection could not be remembered"

def wouldBeUnboundedCredential (rule : Asked) (decision : GrantDecision) : Bool :=
  decision = .allow && rule.method = .signEvent && rule.kind.any AUTHENTICATION_SIGN_KINDS.contains

def rememberedRule (rule : Asked) (outcome : ApprovalDecision) : Asked :=
  { rule with kind := if outcome.rememberKind ≠ some false then rule.kind else none }

def remember (originKey : String) (rule : Asked) (outcome : ApprovalDecision)
    (decision : GrantDecision) (account : SafeAccount) : Task Unit :=
  if wouldBeUnboundedCredential rule decision then pure ()
  else ask (.save originKey (rememberedRule rule outcome) decision account.id)

/-- `#rememberAll`, with the rules saved so far. -/
def rememberEach (originKey : String) (outcome : ApprovalDecision) (decision : GrantDecision)
    (account : SafeAccount) (saved : List Asked) : List Asked → Task Unit
  | [] => pure ()
  | rule :: rest => do
      if wouldBeUnboundedCredential rule decision ∨ rememberedRule rule outcome ∈ saved then
        rememberEach originKey outcome decision account saved rest
      else
        ask (.save originKey (rememberedRule rule outcome) decision account.id)
        rememberEach originKey outcome decision account (rememberedRule rule outcome :: saved) rest

/-! ## One request -/

def needsPrompt (method : SignerMethod) (remote : Bool) (originKey : String) (account : SafeAccount) :
    Task Bool :=
  if method = .getRelays then return false
  else if remote ∧ method ≠ .getPublicKey then return false
  else if method = .getPublicKey then do
    match ← inspect fun core => (core.cooldowns.get originKey, core.now) with
    | (some cooldown, now) =>
      if cooldown.accountId = account.id ∧ now < cooldown.expiresAt then return false
      else
        update fun core => { core with cooldowns := core.cooldowns.delete originKey }
        return true
    | (none, _) => return true
  else return true

def ApprovalDecision.refusal (outcome : ApprovalDecision) : String :=
  match outcome.reason with
  | some reason => if reason = "" then "Request rejected by user" else reason
  | none => "Request rejected by user"

/-- Whether this account can answer the request at all. -/
def routingRefusal (params : ValidatedParams) (account : SafeAccount) : Option SignerError :=
  let remote := decide (account.type = .nip46)
  let needsKey := KEY_METHODS.contains params.method
  if needsKey && !remote && account.readOnly then some ⟨.unsupported, "This account has no signing key"⟩
  else
    match if remote then remotePqRefusal params else none with
    | some refusal => some ⟨.unsupported, refusal⟩
    | none =>
      if needsKey && remote && !deps.remote then
        some ⟨.unsupported, "Remote signing is not available on this host"⟩
      else
        match params with
        | .signEvent event =>
          if event.pubkey.any (· ≠ account.pubkey) then
            some ⟨.author_mismatch, "Event author does not match the active account"⟩
          else none
        | _ => none

def storedConsent (account : SafeAccount) (run : AuthenticationRun) : Task AuthenticationRun := do
  let stored ← (if deps.authentication.grants then
      ask (.decisionFor account.id run.key run.auth)
    else return none : Task (Option GrantDecision))
  if stored = some .deny then refuse .permission_denied "Authentication permission denied"
  else if run.self then return { run with stored, consent := some .ownPath }
  else if stored = some .allow ∧ mayRemember deps run then
    return { run with stored, consent := some .grant }
  else return { run with stored }

def consultGrants (account : SafeAccount) :
    Option AuthenticationRun → Task (Option AuthenticationRun)
  | some run => do
      let run ← storedConsent deps account run
      setContext call fun context => { context with authentication := some run }
      return some run
  | none => return none

def prepare (request : SignerRequest) (originKey : String) (account : SafeAccount)
    (params : ValidatedParams) : Task PreparedParams :=
  if special : params = .signPqAttestation then do
    openVault deps call request originKey account
    assertStillActive account
    let event ← buildAttestation deps account
    setContext call fun context => { context with prepared := some [.signPqAttestation event] }
    return .signPqAttestation event
  else return .arrived params special

def rememberRefusal (originKey : String) (rule : Asked) (outcome : ApprovalDecision)
    (account : SafeAccount) (authentication : Option AuthenticationRun) : Task Unit :=
  match authentication with
  | some run =>
    if run.auth.protocol = .legacyLogin then pure ()
    else if deps.authentication.grants then rememberAuthenticationDeny deps run account
    else remember originKey rule outcome .deny account
  | none => remember originKey rule outcome .deny account

/-- What the user's consent is worth for an authentication event. -/
def promptedConsent (scopes : List AuthenticationScope) (outcome : ApprovalDecision)
    (run : AuthenticationRun) : Task AuthenticationRun :=
  match outcome.authenticationScope with
  | some scope =>
    if scope = .once ∨ scope ∈ scopes then return { run with consent := some (.prompted scope) }
    else refuse .rejected (if 1 < scopes.length then
      "Explicit authentication approval at an offered scope required"
      else "Explicit one-time authentication approval required")
  | none => refuse .rejected (if 1 < scopes.length then
      "Explicit authentication approval at an offered scope required"
      else "Explicit one-time authentication approval required")

def promptUser (request : SignerRequest) (originKey : String) (rule : Asked)
    (account : SafeAccount) (params : ValidatedParams) (prepared : PreparedParams)
    (authentication : Option AuthenticationRun) : Task (Option AuthenticationRun) := do
  let context := authentication.map fun run =>
    (⟨run.auth, run.key, acceptedScopes deps run⟩ : ApprovalContext)
  let outcome ← track call ⟨request.id, .approval, originKey, account.id⟩
    (.present (disclosedRequest request prepared) account context)
  if !outcome.allow then
    onlyIf outcome.remember (rememberRefusal deps originKey rule outcome account authentication)
    refuse .rejected outcome.refusal
  else
    let authentication ← (match authentication with
      | some run => do
          let run ← promptedConsent (acceptedScopes deps run) outcome run
          setContext call fun context => { context with authentication := some run }
          return some run
      | none => return none : Task (Option AuthenticationRun))
    assertStillActive account
    onlyIf outcome.remember (remember originKey rule outcome .allow account)
    onlyIf (params.method = .getPublicKey) (update fun core =>
      { core with cooldowns :=
          core.cooldowns.set originKey ⟨core.now + GET_PUBLIC_KEY_COOLDOWN_MS, account.id⟩ })
    return authentication

/-- Whether a prompt comes before this request. -/
def asks (params : ValidatedParams) (decision : PermissionDecision) (originKey : String)
    (account : SafeAccount) (authentication : Option AuthenticationRun) : Task Bool :=
  match authentication with
  | some run => return run.consent.isNone
  | none =>
    if decision = .ask then
      needsPrompt params.method (decide (account.type = .nip46)) originKey account
    else return false

/-- A consent to be remembered is written right before the key is used. -/
def saveConsent (account : SafeAccount) (authentication : Option AuthenticationRun) : Task Unit :=
  match authentication with
  | some run =>
    match run.consent with
    | some (.prompted scope) =>
      onlyIf (scope ≠ .once) (saveAuthenticationGrant deps run scope account .allow)
    | _ => pure ()
  | none => pure ()

/-- The steps from the unlock to the end. -/
def finish (request : SignerRequest) (originKey : String) (account : SafeAccount)
    (params : ValidatedParams) (prepared : PreparedParams)
    (authentication : Option AuthenticationRun) (revokedBefore : Nat) : Task Value := do
  onlyIf (KEY_METHODS.contains params.method ∧ params ≠ .signPqAttestation)
    (openVault deps call request originKey account)
  assertStillActive account
  revalidateAuthentication deps request params account authentication revokedBefore
  saveConsent deps account authentication
  setContext call fun context => { context with phase := .execute }
  let result ← executeFor deps call account (decide (account.type = .nip46)) originKey request params
    prepared
  assertStillActive account
  revalidateAuthentication deps request params account authentication revokedBefore
  return result

def run (validated : ValidatedRequest) (self : Bool) : Task Value := do
  let request := validated.request
  let params := validated.params
  let revokedBefore ← inspect SignerCore.revocationSerial
  let originKey := permissionOrigin request.origin
  match ← ask .getActiveAccount with
  | none => refuse .no_account "No active account"
  | some account =>
    setContext call fun context => { context with account := some account }
    let decision ← ask (.check originKey (permissionRule params) account.id)
    if decision = .deny then refuse .permission_denied "Permission denied"
    else
      match routingRefusal deps params account with
      | some error => raise (.signer error)
      | none =>
        let parsed ← parseAuthenticationOf deps request params account self
        setContext call fun context => { context with authentication := parsed }
        let authentication ← consultGrants deps call account parsed
        let prepared ← prepare deps call request originKey account params
        if ← asks params decision originKey account authentication then
          let authentication ← promptUser deps call request originKey (permissionRule params)
            account params prepared authentication
          finish deps call request originKey account params prepared authentication revokedBefore
        else
          finish deps call request originKey account params prepared authentication revokedBefore

/-! ## The record -/

def toSignerError (fault : Fault) (phase : RunPhase) : Task SignerError :=
  match fault with
  | .signer error => return error
  | .execute _ source lockedAtThrow =>
    if source = .vault ∨ lockedAtThrow then return ⟨.vault_locked, "Vault is locked"⟩
    else return ⟨.operation_failed, "Operation failed"⟩
  | .foreign .. =>
    if phase = .execute then do
      if ← isLocked then return ⟨.vault_locked, "Vault is locked"⟩
      else return ⟨.operation_failed, "Operation failed"⟩
    else return ⟨.internal, "Internal signer error"⟩

def authenticationActivity (run : AuthenticationRun) : AuthenticationActivity :=
  ⟨run.auth.protocol, run.auth.destination, run.auth.method, run.key, run.consent⟩

def schemeName : PreparedParams → Option String
  | .arrived (.nip44Encrypt _ _ .classic) _ | .arrived (.nip44Decrypt _ _ .classic) _ =>
    some "classic"
  | .arrived (.nip44Encrypt _ _ (.pq _)) _ | .arrived (.nip44Decrypt _ _ (.pq _)) _ => some "pq"
  | _ => none

def activityDetail : PreparedParams → ActivityDetail
  | .signPqAttestation event => .event PQC_KIND (some event)
  | .arrived (.signEvent event) _ => .event event.kind (some event)
  | .arrived (.nip04Encrypt pubkey _) _ => .crypto pubkey none none
  | .arrived (.nip04Decrypt pubkey ciphertext) _ => .crypto pubkey (some ciphertext) none
  | .arrived (.nip44Encrypt pubkey plaintext scheme) ordinary =>
    .crypto pubkey none (schemeName (.arrived (.nip44Encrypt pubkey plaintext scheme) ordinary))
  | .arrived (.nip44Decrypt pubkey ciphertext scheme) ordinary =>
    .crypto pubkey (some ciphertext)
      (schemeName (.arrived (.nip44Decrypt pubkey ciphertext scheme) ordinary))
  | _ => .none

/-- What the log can say of a request: an attestation that was never built has no event. -/
def detailOf (params : ValidatedParams) (prepared : Option PreparedParams) : ActivityDetail :=
  match prepared with
  | some prepared => activityDetail prepared
  | none =>
    if special : params = .signPqAttestation then .event PQC_KIND none
    else activityDetail (.arrived params special)

structure RecordedOutcome where
  decision : GrantDecision
  reason : Option String := none
  code : Option SignerErrorCode := none

/-- `#record` of a request, or of the item number `index` of a batch. -/
def record (id : String) (origin : RequestOrigin) (params : ValidatedParams) (index : Nat)
    (batchId : Option String) (outcome : RecordedOutcome) : Task Unit := do
  let (context, now) ← inspect fun core => (core.contexts call, core.now)
  let entry : ActivityEntry :=
    { requestId := id, timestamp := now, origin, method := params.method,
      accountId := context.account.map SafeAccount.id,
      pubkey := context.account.map SafeAccount.pubkey, decision := outcome.decision, batchId,
      authentication := if batchId.isNone then context.authentication.map authenticationActivity
        else none,
      reason := outcome.reason, code := outcome.code,
      detail := detailOf params (context.prepared.bind fun prepared => prepared[index]?) }
  (ask (.record entry)).tryCatch fun _ => pure ()

def handleValidated (validated : ValidatedRequest) (self : Bool) : Task Value :=
  let written (outcome : RecordedOutcome) : Task Unit :=
    record call validated.request.id validated.request.origin validated.params 0 none outcome
  (do
    let result ← run deps call validated self
    written { decision := .allow }
    return result).tryCatch fun fault => do
      let refusal ← toSignerError fault (← inspect fun core => (core.contexts call).phase)
      written { decision := .deny, reason := some fault.message, code := some refusal.code }
      raise (.signer refusal)

/-- A request as the boundary left it: refused there, or validated. -/
abbrev Boundary (α : Type) : Type := Except SignerError α

def handle (input : Boundary ValidatedRequest) : Task Value := do
  if ← inspect SignerCore.disposed then refuse .shutdown "Signer shut down"
  else
    match input with
    | .error error => raise (.signer error)
    | .ok validated => handleValidated deps call validated false

def handleSelf (input : Boundary ValidatedRequest) : Task Value := do
  if ← inspect SignerCore.disposed then refuse .shutdown "Signer shut down"
  else if deps.authentication.selfRequesters.isEmpty then
    refuse .unsupported "This host has no self authentication path"
  else
    match input with
    | .error error => raise (.signer error)
    | .ok validated =>
      if isAuthenticationEvent validated.params then handleValidated deps call validated true
      else refuse .invalid_request "handleSelf takes an authentication event only"

/-! ## A batch -/

structure ItemRun where
  id : String
  outcome : Except (Fault × SignerError) Value

def consultRules (originKey accountId : String) (consulted asked : List Asked) :
    List ValidatedBatchItem → Task (List Asked)
  | [] => pure asked
  | item :: rest => do
      let rule := permissionRule item.params
      if rule ∈ consulted then consultRules originKey accountId consulted asked rest
      else
        match ← ask (.check originKey rule accountId) with
        | .deny => refuse .permission_denied "Permission denied"
        | .ask => consultRules originKey accountId (rule :: consulted) (asked ++ [rule]) rest
        | .allow => consultRules originKey accountId (rule :: consulted) asked rest

def batchRefusal (items : List ValidatedBatchItem) (account : SafeAccount) : Option SignerError :=
  if items.any fun item => isAuthenticationEvent item.params then
    some ⟨.unsupported, "Authentication requests must be approved individually"⟩
  else if account.type = .nip46 then
    some ⟨.unsupported, "Batches are not available for a remote account"⟩
  else if account.readOnly then some ⟨.unsupported, "This account has no signing key"⟩
  else if items.any fun item =>
      match item.params with
      | .signEvent event => event.pubkey.any (· ≠ account.pubkey)
      | _ => false then
    some ⟨.author_mismatch, "Event author does not match the active account"⟩
  else none

def prepareBatch (account : SafeAccount) (prepared : List PreparedParams) :
    List ValidatedBatchItem → Task (List PreparedParams)
  | [] => pure prepared
  | item :: rest => do
      let next ← (if special : item.params = .signPqAttestation then do
          onlyIf (prepared ≠ []) (ask .yieldToHost)
          return .signPqAttestation (← buildAttestation deps account)
        else return .arrived item.params special : Task PreparedParams)
      setContext call fun context => { context with prepared := some (prepared ++ [next]) }
      prepareBatch account (prepared ++ [next]) rest

def promptBatch (request : SignerBatchRequest) (originKey : String) (account : SafeAccount)
    (asked : List Asked) (prepared : List PreparedParams) : Task Unit :=
  if asked.isEmpty then pure ()
  else if !deps.presentsBatch then refuse .unsupported "This host cannot show a batch"
  else do
    let outcome ← track call ⟨request.id, .approval, originKey, account.id⟩
      (.presentBatch (disclosedBatch request prepared) account)
    if !outcome.allow then
      onlyIf outcome.remember (rememberEach originKey outcome .deny account [] asked)
      refuse .rejected outcome.refusal
    else
      assertStillActive account
      onlyIf outcome.remember (rememberEach originKey outcome .allow account [] asked)

/-- One item in its own key scope. -/
def runItem (account : SafeAccount) (id : String) (prepared : PreparedParams) : Task ItemRun :=
  (do return { id, outcome := .ok (← signLocally deps account prepared) } : Task ItemRun).tryCatch
    fun fault => do return { id, outcome := .error (fault, ← toSignerError fault .execute) }

/-- The item loop: `runs` so far, and what stopped the batch, if anything did. -/
def runItems (account : SafeAccount) (originKey : String) (revokedBefore : Nat) :
    (runs : List ItemRun) → (stopped : Option SignerError) →
      List (ValidatedBatchItem × PreparedParams) → Task (List ItemRun)
  | runs, _, [] => pure runs
  | runs, some refusal, (item, _) :: rest =>
    runItems account originKey revokedBefore
      (runs ++ [⟨item.id, .error (.signer refusal, refusal)⟩]) (some refusal) rest
  | runs, none, (item, prepared) :: rest => do
      let stopped ← (if runs = [] then return none
        else stillWanted account originKey revokedBefore : Task (Option SignerError))
      match stopped with
      | some refusal =>
        runItems account originKey revokedBefore
          (runs ++ [⟨item.id, .error (.signer refusal, refusal)⟩]) (some refusal) rest
      | none =>
        onlyIf (runs ≠ []) (ask .yieldToHost)
        let run ← runItem deps account item.id prepared
        runItems account originKey revokedBefore (runs ++ [run]) none rest

def runBatch (validated : ValidatedBatch) : Task (List ItemRun) := do
  let request := validated.request
  let items := validated.items
  let originKey := permissionOrigin request.origin
  match ← ask .getActiveAccount with
  | none => refuse .no_account "No active account"
  | some account =>
    setContext call fun context => { context with account := some account }
    let asked ← consultRules originKey account.id [] [] items
    match batchRefusal items account with
    | some error => raise (.signer error)
    | none =>
      onlyIf (items.any fun item => item.params = .signPqAttestation) do
        openVaultForBatch deps call request originKey account
        assertStillActive account
      setContext call fun context => { context with prepared := some [] }
      let prepared ← prepareBatch deps call account [] items
      promptBatch deps call request originKey account asked prepared
      openVaultForBatch deps call request originKey account
      assertStillActive account
      setContext call fun context => { context with phase := .execute }
      let revokedBefore ← inspect SignerCore.revocationSerial
      runItems deps account originKey revokedBefore [] none (items.zip prepared)

inductive BatchItemOutcome where
  | ok (id : String) (result : Value)
  | refused (id : String) (code : SignerErrorCode) (message : String)
  deriving DecidableEq

/-- Every item's outcome written to the log and answered. -/
def reportItems (request : SignerBatchRequest) (outcomes : List BatchItemOutcome) :
    (index : Nat) → List (ValidatedBatchItem × ItemRun) → Task (List BatchItemOutcome)
  | _, [] => pure outcomes
  | index, (item, run) :: rest => do
      match run.outcome with
      | .ok result =>
        record call item.id request.origin item.params index (some request.id)
          { decision := .allow }
        reportItems request (outcomes ++ [.ok run.id result]) (index + 1) rest
      | .error (fault, refusal) =>
        record call item.id request.origin item.params index (some request.id)
          { decision := .deny, reason := some fault.message, code := some refusal.code }
        reportItems request (outcomes ++ [.refused run.id refusal.code refusal.message])
          (index + 1) rest

def reportRefusal (request : SignerBatchRequest) (fault : Fault) (refusal : SignerError) :
    (index : Nat) → List ValidatedBatchItem → Task Unit
  | _, [] => pure ()
  | index, item :: rest => do
      record call item.id request.origin item.params index (some request.id)
        { decision := .deny, reason := some fault.message, code := some refusal.code }
      reportRefusal request fault refusal (index + 1) rest

structure BatchResult where
  id : String
  items : List BatchItemOutcome
  deriving DecidableEq

def handleBatch (input : Boundary ValidatedBatch) : Task BatchResult := do
  if ← inspect SignerCore.disposed then refuse .shutdown "Signer shut down"
  else
    match input with
    | .error error => raise (.signer error)
    | .ok validated =>
      (do
        let runs ← runBatch deps call validated
        let outcomes ← reportItems call validated.request [] 0 (validated.items.zip runs)
        return { id := validated.request.id, items := outcomes } : Task BatchResult).tryCatch
        fun fault => do
          let refusal ← toSignerError fault (← inspect fun core => (core.contexts call).phase)
          reportRefusal call validated.request fault refusal 0 validated.items
          raise (.signer refusal)

end NostrWot.Signing
