import NostrWot.Permissions.Store

namespace NostrWot.Permissions

open NostrWot.Data NostrWot.Async StoreKey

/-! # One instance over one store

Single operations of the store are atomic.  They may be rejected, whether or
not they landed, and their replies may be late.
-/

/-- The store, the trees it has held so far, and which of them the last
resolved write of the tree stored. -/
structure Storage where
  store : KeyValueStore
  landed : List PermissionMap
  acknowledged : Nat

namespace Storage

def tree (storage : Storage) : PermissionMap := (storage.store PERMISSIONS_STORAGE_KEY).getD ∅

def opened (store : KeyValueStore) : Storage :=
  ⟨store, [(store PERMISSIONS_STORAGE_KEY).getD ∅], 0⟩

def put (storage : Storage) (key : StoreKey) (value : Option key.Value) : Storage :=
  let store := Function.update storage.store key value
  { storage with
    store
    landed := if key = PERMISSIONS_STORAGE_KEY then
        storage.landed ++ [(store PERMISSIONS_STORAGE_KEY).getD ∅]
      else storage.landed }

def writesTree : StoreRequest → Bool
  | .set key _ => key = PERMISSIONS_STORAGE_KEY
  | .remove key => key = PERMISSIONS_STORAGE_KEY
  | _ => false

end Storage

inductive Reaction where
  | perform
  /-- The operation rejects with `fault`; it may have landed all the same. -/
  | fail (fault : String) (landed : Bool)
  deriving DecidableEq

def serveRequest : (request : StoreRequest) → Reaction → Instance → Storage →
    Option (Except String request.Reply × Instance × Storage)
  | .get key, .perform, memory, storage => some (.ok (storage.store key), memory, storage)
  | .get _, .fail fault _, memory, storage => some (.error fault, memory, storage)
  | .set key value, .perform, memory, storage => some (.ok (), memory, storage.put key (some value))
  | .set key value, .fail fault landed, memory, storage =>
    some (.error fault, memory, if landed then storage.put key (some value) else storage)
  | .remove key, .perform, memory, storage => some (.ok (), memory, storage.put key none)
  | .remove key, .fail fault landed, memory, storage =>
    some (.error fault, memory, if landed then storage.put key none else storage)
  | .turn lock self, .perform, memory, storage =>
    if (memory.queue lock).head? = some self then some (.ok (), memory, storage) else none
  | .turn _ _, .fail _ _, _, _ => none

variable {reaction : Reaction}

theorem serveRequest_get {key : StoreKey} {memory memory' : Instance} {storage storage' : Storage}
    {value : Option key.Value} (served : serveRequest (.get key) reaction memory storage =
      some (.ok value, memory', storage')) :
    memory' = memory ∧ storage' = storage ∧ value = storage.store key := by
  cases reaction with
  | perform => simpa [serveRequest, eq_comm, and_assoc, and_comm, and_left_comm] using served
  | fail => simp [serveRequest] at served

theorem serveRequest_turn {lock : LockName} {self : Nat} {memory memory' : Instance}
    {storage storage' : Storage} {answer : Except String Unit}
    (served : serveRequest (.turn lock self) reaction memory storage =
      some (answer, memory', storage')) :
    memory' = memory ∧ storage' = storage := by
  cases reaction with
  | perform =>
    simp only [serveRequest] at served
    split at served
    · cases served
      exact ⟨rfl, rfl⟩
    · contradiction
  | fail => contradiction

inductive Landed (before : Storage) : StoreRequest → Storage → Prop
  | nothing (request : StoreRequest) : Landed before request before
  | set (key : StoreKey) (value : key.Value) :
      Landed before (.set key value) (before.put key (some value))
  | remove (key : StoreKey) : Landed before (.remove key) (before.put key none)

theorem serveRequest_landed {request : StoreRequest} {memory memory' : Instance}
    {storage storage' : Storage} {answer : Except String request.Reply}
    (served : serveRequest request reaction memory storage = some (answer, memory', storage')) :
    memory' = memory ∧ Landed storage request storage' := by
  cases request with
  | get key => cases reaction <;> cases served <;> exact ⟨rfl, .nothing _⟩
  | turn lock self =>
    obtain ⟨rfl, rfl⟩ := serveRequest_turn served
    exact ⟨rfl, .nothing _⟩
  | set key value =>
    cases reaction with
    | perform =>
      cases served
      exact ⟨rfl, .set key value⟩
    | fail fault landed =>
      cases landed <;> cases served
      · exact ⟨rfl, .nothing _⟩
      · exact ⟨rfl, .set key value⟩
  | remove key =>
    cases reaction with
    | perform =>
      cases served
      exact ⟨rfl, .remove key⟩
    | fail fault landed =>
      cases landed <;> cases served
      · exact ⟨rfl, .nothing _⟩
      · exact ⟨rfl, .remove key⟩

inductive Operation where
  | check (origin method : String) (kind : KindArgument) (accountId : String)
  | getForOrigin (origin accountId : String)
  | saveDirect (origin key : String) (decision : PermissionDecision) (accountId : String)
  | save (origin method : String) (kind : KindArgument) (decision : PermissionDecision)
      (accountId : String)
  | saveRetiredKey (origin key : String) (decision : PermissionDecision) (accountId : String)
  | clear (origin : Option String) (accountId : String)
  | clearAllForOrigin (origin : String)
  | clearForAccount (accountId : String)
  | copyPermissions (fromAccountId : Option String) (toAccountId : String)
  | setupNewAccountPermissions (newAccountId : String) (existingAccountIds : List String)
      (copyFromAccountId : Option String)
  | setUseGlobalDefaults (enabled : Bool)
  | migrateToInheritance (context : PermissionMigrationContext)
  /-- The host it runs in collates the labels. -/
  | migrateToGlobalRules (collation : Collation) (context : PermissionMigrationContext)
  | resetAccountRules
  | inheritRule (origin key accountId : String)
  | clearRuleBucket (origin accountId : String)
  | revokeAuthentication (filter : AuthenticationGrantFilter)

inductive Result where
  | decision (decision : PermissionDecision)
  | bucket (bucket : PermissionBucket)
  | done
  deriving DecidableEq

def completed (task : Task Unit) : Task Result := do
  task
  return .done

def perform (self : Nat) : Operation → Task Result
  | .check origin method kind accountId => do return .decision (← check origin method kind accountId)
  | .getForOrigin origin accountId => do return .bucket (← getForOrigin origin accountId)
  | .saveDirect origin key decision accountId =>
    completed (saveDirect self origin key decision accountId)
  | .save origin method kind decision accountId =>
    completed (save self origin method kind decision accountId)
  | .saveRetiredKey origin key decision accountId =>
    completed (saveRetiredKey self origin key decision accountId)
  | .clear origin accountId => completed (clear self origin accountId)
  | .clearAllForOrigin origin => completed (clearAllForOrigin self origin)
  | .clearForAccount accountId => completed (clearForAccount self accountId)
  | .copyPermissions source target => completed (copyPermissions self source target)
  | .setupNewAccountPermissions newAccountId existing source =>
    completed (setupNewAccountPermissions self newAccountId existing source)
  | .setUseGlobalDefaults enabled => completed (setUseGlobalDefaults enabled)
  | .migrateToInheritance context => completed (migrateToInheritance self context)
  | .migrateToGlobalRules collation context => completed (migrateToGlobalRules collation self context)
  | .resetAccountRules => completed (resetAccountRules self)
  | .inheritRule origin key accountId => completed (inheritRule self origin key accountId)
  | .clearRuleBucket origin accountId => completed (clearRuleBucket self origin accountId)
  | .revokeAuthentication filter => completed (revoke self filter)

inductive StoreEvent where
  /-- `invalidateCache`, from the host or from the store's own report of a change. -/
  | invalidateCache
  /-- The host restarts and opens a fresh instance over the same store.  A call of
  the old one may never be heard of again. -/
  | reopen

def StoreEvent.occur : StoreEvent → Instance → Instance
  | .invalidateCache, memory => memory.invalidateCache
  | .reopen, _ => {}

/-- One `Permissions` instance over its store. -/
abbrev permissionSystem : System storeInterface where
  World := Storage
  Choice := Reaction
  Event := StoreEvent
  Operation := Operation
  Result := Result
  method := perform
  serve := serveRequest
  acknowledge := fun request answer taken storage =>
    if Storage.writesTree request && answer.isOk then
      { storage with acknowledged := max storage.acknowledged (taken.landed.length - 1) }
    else storage
  occur := fun event memory storage => some (event.occur memory, storage)

/-! ## Small runs -/

/-- The next `count` requests of a call, each answered and handed back at once. -/
def answers (self : Nat) : (count : Nat) → List (Move permissionSystem)
  | 0 => []
  | count + 1 => .serve self .perform :: .deliver self :: answers self count

def opened (store : KeyValueStore) : Config permissionSystem := ⟨⟨{}, .opened store⟩, []⟩

/-- The call settled with this decision. -/
def answeredWith (config : Config permissionSystem) (self : Nat) (decision : PermissionDecision) :
    Bool :=
  match config.outcome self with
  | some (.ok (.decision answer)) => answer = decision
  | _ => false

theorem outcome_of_answeredWith {config : Config permissionSystem} {self : Nat}
    {decision : PermissionDecision} (answered : answeredWith config self decision = true) :
    config.outcome self = some (.ok (.decision decision)) := by
  unfold answeredWith at answered
  split at answered
  · next answer found => rw [found, of_decide_eq_true answered]
  · contradiction

def allowedSite : KeyValueStore
  | .PERMISSIONS_STORAGE_KEY => some (AList.singleton "https://a.example"
      (AList.singleton DEFAULT_BUCKET (AList.singleton "getPublicKey" .allow)))
  | _ => none

def readKey : Operation := .check "https://a.example" "getPublicKey" .absent "account"

end NostrWot.Permissions
