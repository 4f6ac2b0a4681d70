import NostrWot.Async.System
import NostrWot.Permissions.Rules
import Mathlib.Logic.Function.Basic

namespace NostrWot.Permissions

open NostrWot.Data NostrWot.Async

/-! # The permission store

The methods of `Permissions` as asynchronous programs over one instance's
caches and locks.  Every read and write of the injected store is a request of
its own, with its own delay.
-/

inductive GrantDecision where
  | allow
  | deny
  deriving DecidableEq, Repr

inductive AuthenticationProtocol where
  | nip42
  | nip98
  | legacyLogin
  deriving DecidableEq, Repr

structure AuthenticationGrant where
  id : String
  decision : Option GrantDecision := none
  accountId : String
  origin : String
  protocol : AuthenticationProtocol
  destination : String
  version : Option Nat := none
  resource : Option String := none
  method : Option String := none
  deriving DecidableEq

structure PendingMigration where
  tree : PermissionMap
  global : Bool
  deriving DecidableEq

inductive StoreKey where
  | PERMISSIONS_STORAGE_KEY
  | GLOBAL_DEFAULTS_KEY
  | INHERITANCE_KEY
  | GLOBAL_RULES_VERSION_KEY
  | MIGRATION_PENDING_KEY
  | AUTHENTICATION_GRANTS_KEY
  | DEFAULT_BACKEND_AUTH_KEY
  deriving DecidableEq

open StoreKey

abbrev StoreKey.Value : StoreKey → Type
  | .PERMISSIONS_STORAGE_KEY => PermissionMap
  | .GLOBAL_DEFAULTS_KEY => Bool
  | .INHERITANCE_KEY => Bool
  | .GLOBAL_RULES_VERSION_KEY => Nat
  | .MIGRATION_PENDING_KEY => PendingMigration
  | .AUTHENTICATION_GRANTS_KEY => List AuthenticationGrant
  | .DEFAULT_BACKEND_AUTH_KEY => Record Bool

abbrev KeyValueStore : Type := (key : StoreKey) → Option key.Value

inductive LockName where
  | rules
  | grants
  deriving DecidableEq

inductive StoreRequest where
  | get (key : StoreKey)
  | set (key : StoreKey) (value : key.Value)
  | remove (key : StoreKey)
  /-- The promise of the lock holder before `self`. -/
  | turn (lock : LockName) (self : Nat)

abbrev StoreRequest.Reply : StoreRequest → Type
  | .get key => Option key.Value
  | _ => Unit

/-- What one `Permissions` instance keeps in memory.  A lock is the queue of
the calls that hold it or wait for it. -/
structure Instance where
  cachedPerms : Option PermissionMap := none
  cachedUseGlobalDefaults : Option Bool := none
  queue : LockName → List Nat := fun _ => []

abbrev storeInterface : Interface where
  Memory := Instance
  Request := StoreRequest
  Reply := StoreRequest.Reply
  Fault := String

abbrev Task (α : Type) : Type := Program storeInterface α

def request (request : StoreRequest) : Task request.Reply := Program.call (I := storeInterface) request

def get (key : StoreKey) : Task (Option key.Value) := request (.get key)

def set (key : StoreKey) (value : key.Value) : Task Unit := request (.set key value)

def remove (key : StoreKey) : Task Unit := request (.remove key)

def peek {α : Type} (view : Instance → α) : Task α := Program.read (I := storeInterface) view

def remember (change : Instance → Instance) : Task Unit := Program.modify (I := storeInterface) change

def raise {α : Type} (message : String) : Task α := Program.throw (I := storeInterface) message

namespace Instance

def invalidateCache (memory : Instance) : Instance :=
  { memory with cachedPerms := none, cachedUseGlobalDefaults := none }

def enqueue (lock : LockName) (self : Nat) (memory : Instance) : Instance :=
  { memory with queue := Function.update memory.queue lock (memory.queue lock ++ [self]) }

def release (lock : LockName) (self : Nat) (memory : Instance) : Instance :=
  { memory with queue := Function.update memory.queue lock ((memory.queue lock).erase self) }

end Instance

/-- `AsyncLock.run`. -/
def withLock {α : Type} (lock : LockName) (self : Nat) (fn : Task α) : Task α := do
  remember (·.enqueue lock self)
  request (.turn lock self)
  fn.finallyDo (·.release lock self)

def requireLabel (value what : String) : Task Unit :=
  if value = "" then
    raise (what ++ " must not be empty: an empty label is a caller bug, not a wildcard")
  else pure ()

/-! ## Reading -/

def inherits : Task Bool := do
  return (← get INHERITANCE_KEY) = some true

def getUseGlobalDefaults : Task Bool := do
  match ← peek Instance.cachedUseGlobalDefaults with
  | some cached => return cached
  | none =>
    let stored ← get GLOBAL_DEFAULTS_KEY
    let enabled := decide (stored ≠ some false)
    remember fun memory => { memory with cachedUseGlobalDefaults := some enabled }
    return enabled

/-- The bucket the current mode reads and writes, if there is one. -/
def activeBucket (accountId : String) : Task (Option String) := do
  if ← inherits then return if accountId = "" then none else some accountId
  else if ← getUseGlobalDefaults then return some DEFAULT_BUCKET
  else return if accountId = "" then none else some accountId

def load : Task PermissionMap := do
  if (← get MIGRATION_PENDING_KEY).isSome then
    raise "Permission migration incomplete; retry migration before authorizing"
  else
    match ← peek Instance.cachedPerms with
    | some cached => return cached
    | none =>
      let stored ← get PERMISSIONS_STORAGE_KEY
      remember fun memory => { memory with cachedPerms := some (stored.getD ∅) }
      return stored.getD ∅

def getForOrigin (origin accountId : String) : Task PermissionBucket := do
  match ← activeBucket accountId with
  | none => return ∅
  | some bucket =>
    let perms ← load
    if ← inherits then return effectiveOriginPermissions perms origin accountId
    else return originPermissionBucket perms origin bucket

def check (origin method : String) (kind : KindArgument) (accountId : String) :
    Task PermissionDecision := do
  let bucket ← getForOrigin origin accountId
  return (resolveDetailed bucket method kind).decision

/-! ## Writing -/

def writeBucket (accountId : String) : Task String := do
  match ← activeBucket accountId with
  | some bucket => return bucket
  | none =>
    raise ("per-account permissions mode needs an accountId: refusing to write to the " ++
      "shared _default bucket")

def assertRuleScope (origin bucket : String) : Task Unit := do
  if (← get GLOBAL_RULES_VERSION_KEY) ≠ some 1 then return
  else if (origin = GLOBAL_RULES_SCOPE) ≠ (bucket = DEFAULT_BUCKET) then
    raise "Global rules require global scope; site rules require an account"

/-- A private copy of the tree for a mutator to edit. -/
def draft : Task PermissionMap := load

def commit (perms : PermissionMap) : Task Unit :=
  (set PERMISSIONS_STORAGE_KEY perms).finallyDo Instance.invalidateCache

def setUseGlobalDefaults (enabled : Bool) : Task Unit :=
  (set GLOBAL_DEFAULTS_KEY enabled).finallyDo Instance.invalidateCache

def DM_PERMISSION_KEYS : List String := DM_SIGN_KINDS.map signEventKey

def RELAY_AUTH_KEY : String := signEventKey NIP42_KIND

/-- The read-modify-write of `saveDirect` and `saveRetiredKey`. -/
def writeRule (self : Nat) (origin key : String) (decision : PermissionDecision)
    (accountId : String) : Task Unit :=
  let label := storageLabel origin
  withLock .rules self do
    let bucket ← writeBucket accountId
    assertRuleScope label bucket
    let perms ← draft
    commit (setRule perms label bucket key decision)

def saveDirect (self : Nat) (origin key : String) (decision : PermissionDecision)
    (accountId : String) : Task Unit := do
  requireLabel origin "origin"
  requireLabel key "permission key"
  if key ∈ DM_PERMISSION_KEYS then
    raise (key ++ " is never consulted: DM sign kinds resolve to \"sendMessages\". " ++
      "Write that key instead.")
  else if key = RELAY_AUTH_KEY ∧ decision = .allow then
    raise (RELAY_AUTH_KEY ++ " cannot be allowed: it names no relay, so an allow there " ++
      "is a credential for every relay. Record a destination grant on `authentication` instead.")
  else writeRule self origin key decision accountId

def save (self : Nat) (origin method : String) (kind : KindArgument)
    (decision : PermissionDecision) (accountId : String) : Task Unit :=
  match permissionKey method kind with
  | .ok key => saveDirect self origin key decision accountId
  | .error message => raise message

def saveRetiredKey (self : Nat) (origin key : String) (decision : PermissionDecision)
    (accountId : String) : Task Unit := do
  requireLabel origin "origin"
  if key ∉ DM_PERMISSION_KEYS then raise (key ++ " is not a retired permission key")
  else writeRule self origin key decision accountId

/-! ## Authentication grants -/

structure AuthenticationGrantFilter where
  id : Option String := none
  accountId : Option String := none
  origin : Option String := none

def listGrants : Task (List AuthenticationGrant) := do
  return (← get AUTHENTICATION_GRANTS_KEY).getD []

def AuthenticationGrantFilter.Matches (filter : AuthenticationGrantFilter)
    (grant : AuthenticationGrant) : Prop :=
  (∀ id ∈ filter.id, grant.id = id) ∧ (∀ accountId ∈ filter.accountId, grant.accountId = accountId) ∧
    ∀ origin ∈ filter.origin, storageLabel origin ∈ siteScopes grant.origin

instance (filter : AuthenticationGrantFilter) (grant : AuthenticationGrant) :
    Decidable (filter.Matches grant) :=
  inferInstanceAs (Decidable (_ ∧ _ ∧ _))

def requireFilter (value : Option String) (what : String) : Task Unit :=
  match value with
  | some value => requireLabel value what
  | none => pure ()

/-- The part of `revoke` about the default backend: only a filter without an id
and an origin reaches it. -/
def revokeDefaultBackend (filter : AuthenticationGrantFilter) : Task Unit :=
  if filter.id.isNone ∧ filter.origin.isNone then do
    let defaults := (← get DEFAULT_BACKEND_AUTH_KEY).getD ∅
    set DEFAULT_BACKEND_AUTH_KEY
      (match filter.accountId with
      | some accountId => defaults.erase accountId
      | none => ∅)
  else pure ()

def revoke (self : Nat) (filter : AuthenticationGrantFilter) : Task Unit := do
  requireFilter filter.id "grant id"
  requireFilter filter.accountId "account id"
  requireFilter filter.origin "origin"
  withLock .grants self do
    let grants ← listGrants
    revokeDefaultBackend filter
    set AUTHENTICATION_GRANTS_KEY (grants.filter fun grant => ¬ filter.Matches grant)

/-! ## Clearing -/

def grantAccount (accountId : String) : Option String :=
  if accountId = "" then none else some accountId

/-- `clear(undefined, accountId)`. -/
def clearEverything (self : Nat) (accountId : String) : Task Unit := do
  revoke self { accountId := grantAccount accountId }
  withLock .rules self ((remove PERMISSIONS_STORAGE_KEY).finallyDo Instance.invalidateCache)

def clearOrigin (self : Nat) (origin accountId : String) : Task Unit := do
  requireLabel origin "origin"
  let _ ← writeBucket accountId
  revoke self { origin := some origin, accountId := grantAccount accountId }
  withLock .rules self do
    let bucket ← writeBucket accountId
    let perms ← draft
    commit (clearScopes perms origin bucket)

def clear (self : Nat) (origin : Option String) (accountId : String) : Task Unit :=
  match origin with
  | none => clearEverything self accountId
  | some origin => clearOrigin self origin accountId

def clearAllForOrigin (self : Nat) (origin : String) : Task Unit := do
  requireLabel origin "origin"
  revoke self { origin := some origin }
  withLock .rules self do
    let perms ← draft
    commit (deleteScopes perms origin)

def clearForAccount (self : Nat) (accountId : String) : Task Unit := do
  requireLabel accountId "account id"
  if accountId = DEFAULT_BUCKET then return
  else
    revoke self { accountId := some accountId }
    withLock .rules self do
      let perms ← draft
      if holdsAccount perms accountId then commit (deleteAccount perms accountId)

/-! ## Accounts -/

/-- `copyPermissions`; `none` is the `null` that names the default bucket. -/
def copyPermissions (self : Nat) (fromAccountId : Option String) (toAccountId : String) :
    Task Unit := do
  if fromAccountId = some "" then
    raise ("copyPermissions needs a source account id or null: refusing to read the " ++
      "shared _default bucket for an empty id")
  else
    requireLabel toAccountId "target account id"
    withLock .rules self do
      let source := fromAccountId.getD DEFAULT_BUCKET
      let consolidated := decide ((← get GLOBAL_RULES_VERSION_KEY) = some 1)
      if consolidated ∧ toAccountId = DEFAULT_BUCKET then raise "An account id is required"
      else
        let perms ← draft
        if holdsCopySource consolidated perms source then
          commit (copyBucket consolidated perms source toAccountId)

/-- The copies that keep every existing account as it is across the mode switch. -/
def copyDefaults (self : Nat) (newAccountId : String) : List String → Task Unit
  | [] => pure ()
  | id :: rest => do
      if id ≠ "" ∧ id ≠ newAccountId then copyPermissions self (some DEFAULT_BUCKET) id
      copyDefaults self newAccountId rest

def setupNewAccountPermissions (self : Nat) (newAccountId : String)
    (existingAccountIds : List String) (copyFromAccountId : Option String) : Task Unit := do
  requireLabel newAccountId "new account id"
  let source := copyFromAccountId.filter (· ≠ "")
  if ← inherits then
    if newAccountId = DEFAULT_BUCKET then raise "An account id is required"
    else withLock .rules self do
      let tree ← draft
      let consolidated := decide ((← get GLOBAL_RULES_VERSION_KEY) = some 1)
      commit (setupInherited consolidated tree newAccountId source)
  else
    if ← getUseGlobalDefaults then
      copyDefaults self newAccountId existingAccountIds
      setUseGlobalDefaults false
    match source with
    | some source => copyPermissions self (some source) newAccountId
    | none => clearForAccount self newAccountId

/-! ## Migrations -/

def markConsolidated (global : Bool) : Task Unit :=
  if global then set GLOBAL_RULES_VERSION_KEY (1 : Nat) else pure ()

/-- Runs what the journal says to its end. -/
def finishMigration : Task Unit := do
  match ← get MIGRATION_PENDING_KEY with
  | none => return
  | some pending =>
    (do
      set PERMISSIONS_STORAGE_KEY pending.tree
      set GLOBAL_DEFAULTS_KEY false
      set INHERITANCE_KEY true
      markConsolidated pending.global
      remove MIGRATION_PENDING_KEY).finallyDo Instance.invalidateCache

def liftExcept {α : Type} : Except String α → Task α
  | .ok value => pure value
  | .error message => raise message

def migrateToInheritance (self : Nat) (context : PermissionMigrationContext) : Task Unit :=
  withLock .rules self do
    finishMigration
    if ← inherits then return
    else
      let original ← draft
      let ids ← liftExcept (migrationAccounts original context)
      let shared ← getUseGlobalDefaults
      set MIGRATION_PENDING_KEY ⟨inheritanceTree shared original ids, false⟩
      finishMigration

/-- The second half of `migrateToGlobalRules`. -/
def consolidateRules (collation : Collation) (self : Nat)
    (context : PermissionMigrationContext) : Task Unit :=
  withLock .rules self do
    finishMigration
    if (← get GLOBAL_RULES_VERSION_KEY) = some 1 then return
    else
      let original ← draft
      let ids ← liftExcept (migrationAccounts original context)
      set MIGRATION_PENDING_KEY ⟨globalRulesTree collation original context ids, true⟩
      finishMigration

def migrateToGlobalRules (collation : Collation) (self : Nat)
    (context : PermissionMigrationContext) : Task Unit := do
  migrateToInheritance self context
  consolidateRules collation self context

/-! ## Settings -/

def resetAccountRules (self : Nat) : Task Unit := do
  if !(← inherits) then raise "Migrate permission inheritance first"
  else withLock .rules self do
    let tree ← draft
    commit (keepDefaults tree)

def inheritRule (self : Nat) (origin key accountId : String) : Task Unit := do
  requireLabel origin "origin"
  requireLabel key "permission key"
  requireLabel accountId "account id"
  if accountId = DEFAULT_BUCKET then raise "An account override is required"
  else withLock .rules self do
    let tree ← draft
    commit (dropOverride tree origin key accountId)

def clearRuleBucket (self : Nat) (origin accountId : String) : Task Unit := do
  requireLabel origin "origin"
  requireLabel accountId "account id"
  withLock .rules self do
    let tree ← draft
    commit (dropBucket tree origin accountId)

end NostrWot.Permissions
