import NostrWot.Permissions.Accounts

namespace NostrWot.Permissions

open NostrWot.Data NostrWot.Async StoreKey KeyValueStore

/-! # The runs of `setupNewAccountPermissions`

One call by itself, from a store in any of the four modes.
-/

section Alone

variable {state : State permissionSystem} {queue : LockName → List Nat} {store : KeyValueStore}
  {mode : Mode} {consolidated : Bool} {perms : PermissionMap}

/-- A store without a journal, as the permission reads see it. -/
structure Stored (mode : Mode) (consolidated : Bool) (perms : PermissionMap)
    (store : KeyValueStore) : Prop where
  mode : KeyValueStore.mode store = mode
  version : decide (store GLOBAL_RULES_VERSION_KEY = some (1 : Nat)) = consolidated
  tree : KeyValueStore.tree store = perms
  settled : store MIGRATION_PENDING_KEY = none

def RestsWith (queue : LockName → List Nat) (mode : Mode) (consolidated : Bool)
    (perms : PermissionMap) (state : State permissionSystem) : Prop :=
  ∃ store, Rests queue store state ∧ Stored mode consolidated perms store

/-- The task ends in `post` when it runs by itself. -/
abbrev Runs {α : Type} (post : Except String α → State permissionSystem → Prop) (task : Task α)
    (state : State permissionSystem) : Prop :=
  Performs (fun _ => True) post task state

variable {post : Except String Unit → State permissionSystem → Prop}

theorem runs_requireLabel {value what : String} (named : value ≠ "") (next : post (.ok ()) state) :
    Runs post (requireLabel value what) state := by
  unfold requireLabel
  rw [if_neg named]
  exact next

theorem runs_commit {written : PermissionMap} (rests : Rests queue store state)
    (stored : Stored mode consolidated perms store)
    (next : ∀ after last, Rests queue after last → Stored mode consolidated written after →
      post (.ok ()) last) :
    Runs post (commit written) state := by
  refine .finallyDo (performs_set trivial fun last memory landed => ?_)
  refine next (Function.update store PERMISSIONS_STORAGE_KEY (some written)) _
    ⟨?_, ?_, Cached.invalidated _ _⟩ ⟨stored.mode, stored.version, rfl, stored.settled⟩
  · exact (congrArg Instance.queue memory).trans rests.locks
  · exact landed.trans (by rw [rests.holds])

theorem runs_setUseGlobalDefaults {enabled : Bool}
    (rests : RestsWith queue mode consolidated perms state) (next : ∀ last,
      RestsWith queue { mode with useGlobalDefaults := enabled } consolidated perms last →
      post (.ok ()) last) :
    Runs post (setUseGlobalDefaults enabled) state := by
  obtain ⟨store, rests, stored⟩ := rests
  refine .finallyDo (performs_set trivial fun last memory landed => ?_)
  refine next _ ⟨Function.update store GLOBAL_DEFAULTS_KEY (some enabled),
    ⟨?_, ?_, Cached.invalidated _ _⟩, ⟨?_, stored.version, stored.tree, stored.settled⟩⟩
  · exact (congrArg Instance.queue memory).trans rests.locks
  · exact landed.trans (by rw [rests.holds])
  · rw [← stored.mode]
    cases enabled <;> rfl

variable {self : Nat}

theorem runs_copyPermissions {source : Option String} {target : String}
    (rests : RestsWith queue mode consolidated perms state) (free : queue .rules = [])
    (sourced : source ≠ some "") (targeted : target ≠ "")
    (reserved : consolidated = true → target ≠ DEFAULT_BUCKET)
    (next : ∀ last, RestsWith queue mode consolidated
      (copyBucket consolidated perms (source.getD DEFAULT_BUCKET) target) last →
      post (.ok ()) last) :
    Runs post (copyPermissions self source target) state := by
  obtain ⟨store, rests, stored⟩ := rests
  unfold copyPermissions
  rw [if_neg sourced]
  refine .bind (runs_requireLabel targeted ?_)
  refine performs_withLock rests free (fun _ _ => trivial) fun state rests => ?_
  refine .bind (performs_read rests (fun _ _ => trivial) ?_)
  simp only
  rw [stored.version, if_neg (fun refused => reserved refused.1 refused.2)]
  refine .bind (performs_load rests (fun _ _ => trivial) stored.settled fun state rests => ?_)
  simp only
  rw [stored.tree]
  cases holds : holdsCopySource consolidated perms (source.getD DEFAULT_BUCKET) with
  | true =>
    refine runs_commit rests stored fun after last rests stored => ?_
    exact ⟨after, rests, fun last rests => next last ⟨after, rests, stored⟩⟩
  | false =>
    rw [copyBucket_of_not_holds holds] at next
    exact ⟨store, rests, fun last rests => next last ⟨store, rests, stored⟩⟩

theorem runs_revoke {accountId : String} (rests : RestsWith queue mode consolidated perms state)
    (free : queue .grants = []) (named : accountId ≠ "")
    (next : ∀ last, RestsWith queue mode consolidated perms last → post (.ok ()) last) :
    Runs post (revoke self { accountId := some accountId }) state := by
  obtain ⟨store, rests, stored⟩ := rests
  refine .bind (.bind ?_)
  refine runs_requireLabel named ?_
  refine performs_withLock rests free (fun _ _ => trivial) fun state rests => ?_
  refine .bind (.bind (performs_read rests (fun _ _ => trivial) ?_))
  have reaches : revokeDefaultBackend { accountId := some accountId } = (do
      let defaults := (← get DEFAULT_BACKEND_AUTH_KEY).getD ∅
      set DEFAULT_BACKEND_AUTH_KEY (defaults.erase accountId)) := if_pos ⟨rfl, rfl⟩
  simp only
  rw [reaches]
  refine .bind (.bind (performs_read rests (fun _ _ => trivial) ?_))
  refine performs_set trivial fun middle memory landed => ?_
  refine performs_set trivial fun last memory' landed' => ?_
  have kept : Stored mode consolidated perms last.world.store := by
    rw [landed', landed, rests.holds]
    exact ⟨stored.mode, stored.version, stored.tree, stored.settled⟩
  have held : Rests (Function.update queue .grants [self]) last.world.store last := by
    refine ⟨?_, rfl, ?_⟩
    · rw [memory', memory, rests.locks]
    · rw [memory', memory, landed', landed, rests.holds]
      exact ⟨rests.cached.perms, rests.cached.flag⟩
  exact ⟨_, held, fun last rests => next last ⟨_, rests, kept⟩⟩

theorem runs_clearForAccount {accountId : String}
    (rests : RestsWith queue mode consolidated perms state) (free : ∀ lock, queue lock = [])
    (named : accountId ≠ "") (next : ∀ last, RestsWith queue mode consolidated
      (if accountId = DEFAULT_BUCKET then perms else deleteAccount perms accountId) last →
      post (.ok ()) last) :
    Runs post (clearForAccount self accountId) state := by
  refine .bind (runs_requireLabel named ?_)
  by_cases reserved : accountId = DEFAULT_BUCKET
  · rw [if_pos reserved] at next ⊢
    exact next state rests
  · rw [if_neg reserved] at next ⊢
    refine .bind (runs_revoke rests (free .grants) named fun state rests => ?_)
    obtain ⟨store, rests, stored⟩ := rests
    refine performs_withLock rests (free .rules) (fun _ _ => trivial) fun state rests => ?_
    refine .bind (performs_load rests (fun _ _ => trivial) stored.settled fun state rests => ?_)
    simp only
    rw [stored.tree]
    cases holds : holdsAccount perms accountId with
    | true =>
      refine runs_commit rests stored fun after last rests stored => ?_
      exact ⟨after, rests, fun last rests => next last ⟨after, rests, stored⟩⟩
    | false =>
      rw [deleteAccount_of_not_holds holds] at next
      exact ⟨store, rests, fun last rests => next last ⟨store, rests, stored⟩⟩

theorem runs_copyDefaults {newAccountId : String} (existingAccountIds : List String)
    (rests : RestsWith queue mode false perms state) (free : queue .rules = [])
    (next : ∀ last, RestsWith queue mode false
      (copyDefaultsTree newAccountId existingAccountIds perms) last → post (.ok ()) last) :
    Runs post (copyDefaults self newAccountId existingAccountIds) state := by
  induction existingAccountIds generalizing perms state with
  | nil => exact next state rests
  | cons id rest ih =>
    unfold copyDefaults
    by_cases copied : id ≠ "" ∧ id ≠ newAccountId
    · simp only [copyDefaultsTree, List.foldl_cons, if_pos copied] at next ⊢
      refine .bind (runs_copyPermissions rests free (by decide) copied.1 (by simp) ?_)
      intro last rests
      exact ih rests next
    · simp only [copyDefaultsTree, List.foldl_cons, if_neg copied] at next ⊢
      exact ih rests next

def accountTree (mode : Mode) (consolidated : Bool) (perms : PermissionMap)
    (newAccountId : String) (existingAccountIds : List String) (source : Option String) :
    PermissionMap :=
  if mode.inherits then setupInherited consolidated perms newAccountId source
  else
    let kept := if mode.useGlobalDefaults then
        copyDefaultsTree newAccountId existingAccountIds perms
      else perms
    match source with
    | some source => copyBucket false kept source newAccountId
    | none => if newAccountId = DEFAULT_BUCKET then kept else deleteAccount kept newAccountId

theorem runs_setupNewAccountPermissions {newAccountId : String} {existingAccountIds : List String}
    {copyFromAccountId : Option String} (rests : RestsWith queue mode consolidated perms state)
    (free : ∀ lock, queue lock = []) (named : newAccountId ≠ "")
    (reserved : mode.inherits = true → newAccountId ≠ DEFAULT_BUCKET)
    (inheriting : consolidated = true → mode.inherits = true) (next : ∀ last, RestsWith queue
      { mode with useGlobalDefaults := mode.useGlobalDefaults && mode.inherits } consolidated
      (accountTree mode consolidated perms newAccountId existingAccountIds
        (copyFromAccountId.filter (· ≠ ""))) last → post (.ok ()) last) :
    Runs post (setupNewAccountPermissions self newAccountId existingAccountIds copyFromAccountId)
      state := by
  refine .bind (runs_requireLabel named ?_)
  obtain ⟨store, rests, stored⟩ := rests
  refine .bind (performs_inherits rests (fun _ _ => trivial) ?_)
  simp only
  rw [stored.mode]
  unfold accountTree at next
  cases inherits : mode.inherits with
  | true =>
    simp only [inherits, Bool.and_true, if_true] at next ⊢
    rw [if_neg (reserved inherits)]
    refine performs_withLock rests (free .rules) (fun _ _ => trivial) fun state rests => ?_
    refine .bind (performs_load rests (fun _ _ => trivial) stored.settled fun state rests => ?_)
    refine .bind (performs_read rests (fun _ _ => trivial) ?_)
    simp only
    rw [stored.tree, stored.version]
    refine runs_commit rests stored fun after last rests stored => ?_
    refine ⟨after, rests, fun last rests => next last ⟨after, rests, ?_⟩⟩
    exact ⟨stored.mode.trans (by rw [← inherits]), stored.version, stored.tree, stored.settled⟩
  | false =>
    have legacy : consolidated = false := by
      cases consolidated with
      | false => rfl
      | true => rw [inheriting rfl] at inherits; contradiction
    subst legacy
    simp only [inherits, Bool.and_false, Bool.false_eq_true, if_false] at next ⊢
    refine .bind (performs_getUseGlobalDefaults rests (fun _ _ => trivial) fun state rests => ?_)
    simp only
    rw [stored.mode]
    -- whatever the mode was, what is left is the new account's own bucket
    have ending : ∀ (kept : PermissionMap) (state : State permissionSystem),
        kept = (if mode.useGlobalDefaults = true then
          copyDefaultsTree newAccountId existingAccountIds perms else perms) →
        RestsWith queue ⟨false, false⟩ false kept state →
        Runs post (match copyFromAccountId.filter (· ≠ "") with
          | some source => copyPermissions self (some source) newAccountId
          | none => clearForAccount self newAccountId) state := by
      intro kept state same rests
      rw [← same] at next
      cases sourced : copyFromAccountId.filter (· ≠ "") with
      | some source =>
        rw [sourced] at next
        have other : source ≠ "" := by simpa using (Option.filter_eq_some_iff.mp sourced).2
        exact runs_copyPermissions rests (free .rules) (by simpa using other) named (by simp) next
      | none =>
        rw [sourced] at next
        exact runs_clearForAccount rests free named next
    cases shared : mode.useGlobalDefaults with
    | true =>
      simp only [if_true]
      refine .bind (runs_copyDefaults existingAccountIds ⟨store, rests, stored⟩ (free .rules) ?_)
      intro state rests
      refine .bind (runs_setUseGlobalDefaults rests fun state rests => ?_)
      exact ending _ state (by rw [shared]; exact (if_pos rfl).symm) (inherits ▸ rests)
    | false =>
      simp only [Bool.false_eq_true, if_false]
      have flags : mode = ⟨false, false⟩ := by
        obtain ⟨flag, global⟩ := mode
        simp only at inherits shared
        rw [inherits, shared]
      refine ending _ state (by rw [shared, if_neg Bool.false_ne_true]) ⟨store, rests, ?_⟩
      exact ⟨stored.mode.trans flags, stored.version, stored.tree, stored.settled⟩

end Alone

/-! ## What the accounts read afterwards -/

section Reads

variable {mode : Mode} {consolidated : Bool} {perms : PermissionMap} {newAccountId : String}
  {existingAccountIds : List String} {source : Option String}

def layered (origin : String) (layer : String → PermissionBucket) : PermissionBucket :=
  (siteScopes origin).reverse.foldl (fun result scope => Record.spread result (layer scope)) ∅

theorem lookup_layered (origin : String) (layer : String → PermissionBucket) (key : String) :
    (layered origin layer).lookup key =
      (siteScopes origin).findSome? fun scope => (layer scope).lookup key := by
  unfold layered
  induction siteScopes origin with
  | nil => rfl
  | cons scope rest ih =>
    rw [List.reverse_cons, List.foldl_append, List.foldl_cons, List.foldl_nil,
      Record.lookup_spread, ih, List.findSome?_cons]
    cases (layer scope).lookup key <;> rfl

theorem findSome_congr {α β : Type} {left right : α → Option β} {list : List α}
    (same : ∀ value ∈ list, left value = right value) :
    list.findSome? left = list.findSome? right := by
  induction list with
  | nil => rfl
  | cons value rest ih =>
    rw [List.findSome?_cons, List.findSome?_cons, same value List.mem_cons_self,
      ih fun value member => same value (List.mem_cons_of_mem _ member)]

/-- The shared rules of an origin, with an account's dormant rules at the scopes
that have no shared ones. -/
def awakenedRules (perms : PermissionMap) (origin id : String) : PermissionBucket :=
  layered origin fun scope =>
    if bare perms scope DEFAULT_BUCKET then bucketAt perms scope id
    else bucketAt perms scope DEFAULT_BUCKET

/-- An account has rules at a scope of the origin that has no shared ones. -/
def HasDormant (perms : PermissionMap) (origin id : String) : Prop :=
  ∃ scope ∈ siteScopes origin, bare perms scope DEFAULT_BUCKET = true ∧ bare perms scope id = false

/-- The global rules and a site's defaults, with the rules of an account outside
the global scope. -/
def copiedRules (perms : PermissionMap) (origin id : String) : PermissionBucket :=
  Record.spread
    (Record.spread (originPermissionBucket perms GLOBAL_RULES_SCOPE DEFAULT_BUCKET)
      (originPermissionBucket perms origin DEFAULT_BUCKET))
    (layered origin fun scope => if scope = GLOBAL_RULES_SCOPE then ∅ else bucketAt perms scope id)

/-- What a tree must not hold for setting up an account to be exact.  In the
legacy global mode: dormant rules that would decide otherwise than the shared
ones.  With global rules: defaults of a site that decide otherwise than these,
or rules of the copied account under the global scope that matter. -/
def SetupExact (mode : Mode) (consolidated : Bool) (perms : PermissionMap)
    (newAccountId : String) (existingAccountIds : List String) (source : Option String) : Prop :=
  if mode.inherits then
    consolidated = true →
      match source with
      | none => ∀ origin, (∃ scope ∈ siteScopes origin, bare perms scope DEFAULT_BUCKET = false) →
          ∀ method kind,
            resolve (Record.spread (originPermissionBucket perms GLOBAL_RULES_SCOPE DEFAULT_BUCKET)
              (originPermissionBucket perms origin DEFAULT_BUCKET)) method kind =
            resolve (originPermissionBucket perms GLOBAL_RULES_SCOPE DEFAULT_BUCKET) method kind
      | some id => bare perms GLOBAL_RULES_SCOPE id = false → ∀ origin method kind,
          resolve (copiedRules perms origin id) method kind =
            resolve (effectiveOriginPermissions perms origin id) method kind
  else
    mode.useGlobalDefaults = true → ∀ id ∈ existingAccountIds, id ≠ "" → id ≠ newAccountId →
      ∀ origin, HasDormant perms origin id → ∀ method kind,
        resolve (awakenedRules perms origin id) method kind =
          resolve (originPermissionBucket perms origin DEFAULT_BUCKET) method kind

theorem resolve_of_asks {bucket : PermissionBucket}
    (asks : ∀ key decision, bucket.lookup key = some decision → decision = .ask)
    (method : String) (kind : KindArgument) : resolve bucket method kind = .ask := by
  cases answer : resolve bucket method kind with
  | ask => rfl
  | allow =>
    obtain ⟨key, -, found⟩ := resolve_allow answer
    exact absurd (asks key _ found) (by decide)
  | deny =>
    obtain ⟨key, -, found⟩ := (resolve_deny_iff _ _ _).mp answer
    exact absurd (asks key _ found) (by decide)

theorem resolve_of_lookup {left right : PermissionBucket}
    (same : ∀ key, left.lookup key = right.lookup key) (method : String) (kind : KindArgument) :
    resolve left method kind = resolve right method kind :=
  resolve_congr fun key _ => same key

/-- The buckets that a legacy store keeps for the accounts it had. -/
def keptTree (global : Bool) (newAccountId : String) (existingAccountIds : List String)
    (perms : PermissionMap) : PermissionMap :=
  if global then copyDefaultsTree newAccountId existingAccountIds perms else perms

theorem ruleAt_keptTree_new {global : Bool}
    (fresh : ∀ scope key, ruleAt perms scope newAccountId key = none) (scope key : String) :
    ruleAt (keptTree global newAccountId existingAccountIds perms) scope newAccountId key = none := by
  unfold keptTree
  split
  · rw [ruleAt_copyDefaultsTree, if_neg (fun copied => copied.2.1.2 rfl), fresh]
  · exact fresh scope key

theorem accountTree_legacy (legacy : mode.inherits = false) :
    accountTree mode consolidated perms newAccountId existingAccountIds source =
      match source with
      | some source =>
        copyBucket false (keptTree mode.useGlobalDefaults newAccountId existingAccountIds perms)
          source newAccountId
      | none =>
        if newAccountId = DEFAULT_BUCKET then
          keptTree mode.useGlobalDefaults newAccountId existingAccountIds perms
        else deleteAccount (keptTree mode.useGlobalDefaults newAccountId existingAccountIds perms)
          newAccountId := by
  unfold accountTree
  rw [legacy, if_neg Bool.false_ne_true]
  rfl

theorem ruleAt_accountTree_legacy (legacy : mode.inherits = false) {bucket : String}
    (other : bucket ≠ newAccountId) (scope key : String) :
    ruleAt (accountTree mode consolidated perms newAccountId existingAccountIds source)
        scope bucket key =
      ruleAt (keptTree mode.useGlobalDefaults newAccountId existingAccountIds perms)
        scope bucket key := by
  rw [accountTree_legacy legacy]
  cases source with
  | some id => rw [ruleAt_copyBucket, if_neg (fun copied => other copied.1)]
  | none =>
    simp only
    split
    · rfl
    · rw [ruleAt_deleteAccount, if_neg other]

theorem ruleAt_accountTree_legacy_new (legacy : mode.inherits = false)
    (fresh : ∀ scope key, ruleAt perms scope newAccountId key = none) (scope key : String) :
    ruleAt (accountTree mode consolidated perms newAccountId existingAccountIds source)
        scope newAccountId key =
      source.bind fun id => ruleAt (keptTree mode.useGlobalDefaults newAccountId existingAccountIds perms)
        scope id key := by
  have none : ruleAt (keptTree mode.useGlobalDefaults newAccountId existingAccountIds perms)
      scope newAccountId key = none := ruleAt_keptTree_new fresh scope key
  rw [accountTree_legacy legacy]
  cases source with
  | some id =>
    rw [ruleAt_copyBucket, Option.bind_some, none]
    split
    · rfl
    · next bareSource =>
      rw [ruleAt_of_bare]
      simpa using bareSource
  | none =>
    simp only
    split
    · exact none
    · rw [ruleAt_deleteAccount, if_pos rfl, Option.bind_none]

/-- What a check of an account decides over a tree. -/
def Mode.decision (mode : Mode) (perms : PermissionMap) (origin method : String)
    (kind : KindArgument) (id : String) : PermissionDecision :=
  resolve (mode.rules perms origin id) method kind

theorem Mode.rules_inherits (inherits : mode.inherits = true) {id : String} (named : id ≠ "")
    (origin : String) : mode.rules perms origin id = effectiveOriginPermissions perms origin id := by
  simp [Mode.rules, Mode.activeBucket, inherits, named]

theorem Mode.rules_shared (legacy : mode.inherits = false) (global : mode.useGlobalDefaults = true)
    (origin id : String) : mode.rules perms origin id = originPermissionBucket perms origin DEFAULT_BUCKET := by
  simp [Mode.rules, Mode.activeBucket, legacy, global]

theorem Mode.rules_perAccount (legacy : mode.inherits = false)
    (separate : mode.useGlobalDefaults = false) {id : String} (named : id ≠ "") (origin : String) :
    mode.rules perms origin id = originPermissionBucket perms origin id := by
  simp [Mode.rules, Mode.activeBucket, legacy, separate, named]

/-- The mode once an account has been set up. -/
def Mode.afterSetup (mode : Mode) : Mode :=
  { mode with useGlobalDefaults := mode.useGlobalDefaults && mode.inherits }

def Kept (mode : Mode) (perms : PermissionMap) (mode' : Mode) (perms' : PermissionMap)
    (newAccountId : String) (existingAccountIds : List String) : Prop :=
  ∀ id ∈ existingAccountIds, id ≠ "" → id ≠ newAccountId → ∀ origin method kind,
    mode'.decision perms' origin method kind id = mode.decision perms origin method kind id

/-- The new account decides as its source; set up fresh, it asks everywhere or has
the global rules alone. -/
def Given (mode : Mode) (consolidated : Bool) (perms perms' : PermissionMap)
    (newAccountId : String) (source : Option String) : Prop :=
  ∀ origin method kind, mode.decision perms' origin method kind newAccountId =
    match source with
    | some id => mode.decision perms' origin method kind id
    | none =>
      if consolidated then
        resolve (originPermissionBucket perms GLOBAL_RULES_SCOPE DEFAULT_BUCKET) method kind
      else .ask

theorem kept_inherits (inherits : mode.inherits = true) (reserved : newAccountId ≠ DEFAULT_BUCKET)
    (other : source ≠ some newAccountId) :
    Kept mode perms mode.afterSetup
      (accountTree mode consolidated perms newAccountId existingAccountIds source)
      newAccountId existingAccountIds := by
  intro id _ named different origin method kind
  have after : mode.afterSetup.inherits = true := inherits
  unfold Mode.decision accountTree
  rw [Mode.rules_inherits inherits named, Mode.rules_inherits after named, if_pos inherits]
  refine resolve_of_lookup (fun key => ?_) method kind
  have unchanged : ∀ {bucket}, bucket ≠ newAccountId → ∀ origin key,
      originRule (setupInherited consolidated perms newAccountId source) origin bucket key =
        originRule perms origin bucket key :=
    originRule_setupInherited_other other reserved
  simp only [lookup_effectiveOriginPermissions, unchanged different, unchanged (Ne.symm reserved)]

theorem given_inherited (inherits : mode.inherits = true) (named : newAccountId ≠ "")
    (reserved : newAccountId ≠ DEFAULT_BUCKET) (other : source ≠ some newAccountId)
    (nonempty : source ≠ some "")
    (fresh : ∀ scope key, ruleAt perms scope newAccountId key = none) :
    Given mode.afterSetup false perms
      (accountTree mode false perms newAccountId existingAccountIds source) newAccountId source := by
  intro origin method kind
  have after : mode.afterSetup.inherits = true := inherits
  have unchanged : ∀ {bucket}, bucket ≠ newAccountId → ∀ origin key,
      originRule (setupInherited false perms newAccountId source) origin bucket key =
        originRule perms origin bucket key :=
    originRule_setupInherited_other other reserved
  have own : ∀ origin key,
      originRule (setupInherited false perms newAccountId source) origin newAccountId key =
        givenRule false source perms origin key :=
    originRule_setupInherited_new other reserved fresh
  unfold Mode.decision accountTree
  rw [Mode.rules_inherits after named, if_pos inherits]
  cases source with
  | none =>
    refine resolve_of_asks (fun key decision found => ?_) method kind
    rw [lookup_effectiveOriginPermissions, own, own, unchanged (Ne.symm reserved),
      unchanged (Ne.symm reserved)] at found
    simp only [givenRule, Bool.false_eq_true, if_false, askFor] at found
    cases site : originRule perms origin DEFAULT_BUCKET key <;>
      cases global : originRule perms GLOBAL_RULES_SCOPE DEFAULT_BUCKET key <;>
      simp [site, global] at found <;> exact found.symm
  | some id =>
    have different : id ≠ newAccountId := fun same => other (congrArg some same)
    have present : id ≠ "" := fun same => nonempty (congrArg some same)
    simp only
    rw [Mode.rules_inherits after present]
    refine resolve_of_lookup (fun key => ?_) method kind
    simp only [lookup_effectiveOriginPermissions, own, unchanged different,
      unchanged (Ne.symm reserved), givenRule, Bool.false_eq_true, if_false]
    cases originRule perms origin id key <;> cases originRule perms origin DEFAULT_BUCKET key <;>
      cases originRule perms GLOBAL_RULES_SCOPE id key <;>
      cases originRule perms GLOBAL_RULES_SCOPE DEFAULT_BUCKET key <;> rfl

/-- With global rules the new account's own rules are its source's, outside the
global scope. -/
theorem originRule_setupInherited_global (reserved : newAccountId ≠ DEFAULT_BUCKET)
    (other : source ≠ some newAccountId)
    (fresh : ∀ scope key, ruleAt perms scope newAccountId key = none) (origin key : String) :
    originRule (setupInherited true perms newAccountId source) origin newAccountId key =
      source.bind fun id =>
        (layered origin fun scope =>
          if scope = GLOBAL_RULES_SCOPE then ∅ else bucketAt perms scope id).lookup key := by
  have own : ∀ scope, ruleAt (setupInherited true perms newAccountId source) scope newAccountId key =
      source.bind fun id =>
        (if scope = GLOBAL_RULES_SCOPE then ∅ else bucketAt perms scope id).lookup key := by
    intro scope
    rw [ruleAt_setupInherited other reserved, fresh]
    cases source with
    | none => simp [givenRule]
    | some id =>
      rw [Option.bind_some]
      by_cases global : scope = GLOBAL_RULES_SCOPE
      · simp [global]
      · by_cases stored : scope ∈ perms.keys
        · simp [global, stored, givenRule, ruleAt]
        · simp only [stored, false_and, and_false, if_false, global]
          exact (ruleAt_of_unstored stored id key).symm
  unfold originRule
  cases source with
  | none =>
    exact List.findSome?_eq_none_iff.mpr fun scope _ => own scope
  | some id =>
    rw [Option.bind_some, lookup_layered]
    exact findSome_congr fun scope _ => own scope

theorem originRule_of_bare {bucket origin : String}
    (empty : ∀ scope ∈ siteScopes origin, bare perms scope bucket = true) (key : String) :
    originRule perms origin bucket key = none := by
  unfold originRule
  rw [List.findSome?_eq_none_iff]
  exact fun scope member => ruleAt_of_bare (empty scope member) key

theorem siteScopes_global : siteScopes GLOBAL_RULES_SCOPE = [GLOBAL_RULES_SCOPE] := by
  decide

theorem given_globalRules_iff (inherits : mode.inherits = true) (named : newAccountId ≠ "")
    (reserved : newAccountId ≠ DEFAULT_BUCKET) (other : source ≠ some newAccountId)
    (nonempty : source ≠ some "")
    (fresh : ∀ scope key, ruleAt perms scope newAccountId key = none) :
    Given mode.afterSetup true perms
        (accountTree mode true perms newAccountId existingAccountIds source) newAccountId source ↔
      SetupExact mode true perms newAccountId existingAccountIds source := by
  have after : mode.afterSetup.inherits = true := inherits
  have unchanged : ∀ {bucket}, bucket ≠ newAccountId → ∀ origin key,
      originRule (setupInherited true perms newAccountId source) origin bucket key =
        originRule perms origin bucket key :=
    originRule_setupInherited_other other reserved
  have own := originRule_setupInherited_global reserved other fresh
  unfold Given SetupExact Mode.decision accountTree
  simp only [Mode.rules_inherits after named, inherits, if_true, true_implies]
  cases source with
  | none =>
    simp only
    have reads : ∀ origin method kind,
        resolve (effectiveOriginPermissions (setupInherited true perms newAccountId none) origin
          newAccountId) method kind =
        resolve (Record.spread (originPermissionBucket perms GLOBAL_RULES_SCOPE DEFAULT_BUCKET)
          (originPermissionBucket perms origin DEFAULT_BUCKET)) method kind := by
      intro origin method kind
      refine resolve_of_lookup (fun key => ?_) method kind
      simp only [lookup_effectiveOriginPermissions, own, unchanged (Ne.symm reserved),
        Option.bind_none, Option.none_or, Record.lookup_spread, lookup_originPermissionBucket]
    simp only [reads]
    refine ⟨fun given origin _ method kind => given origin method kind, ?_⟩
    intro exact origin method kind
    by_cases ruled : ∃ scope ∈ siteScopes origin, bare perms scope DEFAULT_BUCKET = false
    · exact exact origin ruled method kind
    · refine resolve_of_lookup (fun key => ?_) method kind
      have unruled : ∀ scope ∈ siteScopes origin, bare perms scope DEFAULT_BUCKET = true := by
        simpa using ruled
      rw [Record.lookup_spread, lookup_originPermissionBucket, originRule_of_bare unruled,
        Option.none_or]
  | some id =>
    have different : id ≠ newAccountId := fun same => other (congrArg some same)
    have present : id ≠ "" := fun same => nonempty (congrArg some same)
    simp only [Mode.rules_inherits after present]
    have outside : (layered GLOBAL_RULES_SCOPE fun scope =>
        if scope = GLOBAL_RULES_SCOPE then ∅ else bucketAt perms scope id) =
        Record.spread ∅ ∅ := by
      rw [layered, siteScopes_global]
      rfl
    have copied : ∀ origin method kind,
        resolve (effectiveOriginPermissions (setupInherited true perms newAccountId (some id)) origin
          newAccountId) method kind = resolve (copiedRules perms origin id) method kind := by
      intro origin method kind
      refine resolve_of_lookup (fun key => ?_) method kind
      simp only [lookup_effectiveOriginPermissions, own, unchanged (Ne.symm reserved),
        Option.bind_some, outside, copiedRules, Record.lookup_spread, lookup_originPermissionBucket,
        AList.lookup_empty, Option.none_or]
    have reads : ∀ origin method kind,
        resolve (effectiveOriginPermissions (setupInherited true perms newAccountId (some id)) origin
          id) method kind = resolve (effectiveOriginPermissions perms origin id) method kind := by
      intro origin method kind
      refine resolve_of_lookup (fun key => ?_) method kind
      simp only [lookup_effectiveOriginPermissions, unchanged different,
        unchanged (Ne.symm reserved)]
    simp only [copied, reads]
    refine ⟨fun given _ => given, ?_⟩
    intro exact origin method kind
    cases global : bare perms GLOBAL_RULES_SCOPE id with
    | false => exact exact global origin method kind
    | true =>
      refine resolve_of_lookup (fun key => ?_) method kind
      have unruled : ∀ key, originRule perms GLOBAL_RULES_SCOPE id key = none := by
        intro key
        refine originRule_of_bare (fun scope member => ?_) key
        rw [siteScopes_global, List.mem_singleton] at member
        rw [member, global]
      have site : (layered origin fun scope =>
          if scope = GLOBAL_RULES_SCOPE then ∅ else bucketAt perms scope id).lookup key =
          originRule perms origin id key := by
        rw [lookup_layered]
        refine findSome_congr fun scope _ => ?_
        split
        · next same => rw [same, ruleAt_of_bare global, AList.lookup_empty]
        · rfl
      rw [copiedRules, lookup_effectiveOriginPermissions, Record.lookup_spread,
        Record.lookup_spread, site, unruled, Option.none_or, lookup_originPermissionBucket,
        lookup_originPermissionBucket]

/-! ## The legacy modes -/

theorem given_legacy (legacy : mode.inherits = false) (named : newAccountId ≠ "")
    (other : source ≠ some newAccountId) (nonempty : source ≠ some "")
    (fresh : ∀ scope key, ruleAt perms scope newAccountId key = none) :
    Given mode.afterSetup false perms
      (accountTree mode consolidated perms newAccountId existingAccountIds source)
      newAccountId source := by
  intro origin method kind
  have after : mode.afterSetup.inherits = false := legacy
  have separate : mode.afterSetup.useGlobalDefaults = false := by
    simp [Mode.afterSetup, legacy]
  have own : ∀ scope key,
      ruleAt (accountTree mode consolidated perms newAccountId existingAccountIds source)
        scope newAccountId key = _ := ruleAt_accountTree_legacy_new legacy fresh
  unfold Mode.decision
  rw [Mode.rules_perAccount after separate named]
  cases source with
  | none =>
    refine resolve_of_asks (fun key decision found => ?_) method kind
    have unruled : originRule (accountTree mode consolidated perms newAccountId existingAccountIds
        none) origin newAccountId key = none := by
      unfold originRule
      rw [List.findSome?_eq_none_iff]
      exact fun scope _ => own scope key
    rw [lookup_originPermissionBucket, unruled] at found
    contradiction
  | some id =>
    have different : id ≠ newAccountId := fun same => other (congrArg some same)
    have present : id ≠ "" := fun same => nonempty (congrArg some same)
    simp only
    rw [Mode.rules_perAccount after separate present]
    refine resolve_of_lookup (fun key => ?_) method kind
    rw [lookup_originPermissionBucket, lookup_originPermissionBucket]
    refine findSome_congr fun scope _ => ?_
    rw [own, Option.bind_some, ruleAt_accountTree_legacy legacy different]

theorem kept_legacy_iff (legacy : mode.inherits = false) :
    Kept mode perms mode.afterSetup
        (accountTree mode consolidated perms newAccountId existingAccountIds source)
        newAccountId existingAccountIds ↔
      SetupExact mode consolidated perms newAccountId existingAccountIds source := by
  have after : mode.afterSetup.inherits = false := legacy
  have separate : mode.afterSetup.useGlobalDefaults = false := by
    simp [Mode.afterSetup, legacy]
  have own : ∀ {id}, id ≠ newAccountId → ∀ scope key,
      ruleAt (accountTree mode consolidated perms newAccountId existingAccountIds source)
        scope id key =
      ruleAt (keptTree mode.useGlobalDefaults newAccountId existingAccountIds perms) scope id key :=
    ruleAt_accountTree_legacy legacy
  unfold Kept SetupExact Mode.decision
  rw [legacy, if_neg Bool.false_ne_true]
  cases global : mode.useGlobalDefaults with
  | false =>
    simp only [Bool.false_eq_true, false_implies, iff_true]
    intro id _ named different origin method kind
    rw [Mode.rules_perAccount after separate named, Mode.rules_perAccount legacy global named]
    refine resolve_of_lookup (fun key => ?_) method kind
    rw [lookup_originPermissionBucket, lookup_originPermissionBucket]
    refine findSome_congr fun scope _ => ?_
    rw [own different, global]
    rfl
  | true =>
    simp only [true_implies]
    refine forall_congr' fun id => forall_congr' fun member => forall_congr' fun named =>
      forall_congr' fun different => forall_congr' fun origin => ?_
    have reads : ∀ method kind,
        resolve (mode.afterSetup.rules (accountTree mode consolidated perms newAccountId
          existingAccountIds source) origin id) method kind =
        resolve (awakenedRules perms origin id) method kind := by
      intro method kind
      rw [Mode.rules_perAccount after separate named]
      refine resolve_of_lookup (fun key => ?_) method kind
      rw [lookup_originPermissionBucket, awakenedRules, lookup_layered]
      refine findSome_congr fun scope _ => ?_
      rw [own different, global, keptTree, if_pos rfl, ruleAt_copyDefaultsTree]
      cases bare perms scope DEFAULT_BUCKET <;> simp [member, named, different, ruleAt]
    simp only [reads, Mode.rules_shared legacy global]
    refine ⟨fun kept _ => kept, ?_⟩
    intro exact
    by_cases dormant : HasDormant perms origin id
    · exact exact dormant
    · intro method kind
      refine resolve_of_lookup (fun key => ?_) method kind
      rw [awakenedRules, lookup_layered, lookup_originPermissionBucket]
      refine findSome_congr fun scope among => ?_
      cases shared : bare perms scope DEFAULT_BUCKET with
      | false => rfl
      | true =>
        rw [if_pos rfl, ruleAt_of_bare shared]
        refine ruleAt_of_bare ?_ key
        by_contra ruled
        exact dormant ⟨scope, among, shared, by simpa using ruled⟩

end Reads

/-! ## Checks around the setup -/

section Checks

variable {state : State permissionSystem} {queue : LockName → List Nat}
  {mode : Mode} {consolidated : Bool} {perms : PermissionMap}

def ChecksTo (state : State permissionSystem) (origin method : String) (kind : KindArgument)
    (accountId : String) (decision : PermissionDecision) : Prop :=
  ∃ last, (check origin method kind accountId).run Reaction.perform state = some (.ok decision, last)

theorem checksTo_iff (rests : RestsWith queue mode consolidated perms state)
    (origin method : String) (kind : KindArgument) (accountId : String)
    (decision : PermissionDecision) :
    ChecksTo state origin method kind accountId decision ↔
      decision = mode.decision perms origin method kind accountId := by
  obtain ⟨store, rests, stored⟩ := rests
  obtain ⟨last, ran, -⟩ := check_runs origin method kind accountId rests stored.settled
  have same : decisionAt store origin method kind accountId =
      mode.decision perms origin method kind accountId := by
    rw [decisionAt, Mode.decision, stored.mode, stored.tree]
  rw [same] at ran
  constructor
  · rintro ⟨other, answered⟩
    rw [ran] at answered
    cases answered
    rfl
  · rintro rfl
    exact ⟨last, ran⟩

def AnswersKept (before after : State permissionSystem) (newAccountId : String)
    (existingAccountIds : List String) : Prop :=
  ∀ id ∈ existingAccountIds, id ≠ "" → id ≠ newAccountId →
    ∀ origin method kind decision,
      ChecksTo before origin method kind id decision → ChecksTo after origin method kind id decision

/-- The new account is answered as its source; set up fresh, it is asked
everywhere, or answered by the global rules alone. -/
def AnswersGiven (consolidated : Bool) (perms : PermissionMap) (after : State permissionSystem)
    (newAccountId : String) (source : Option String) : Prop :=
  ∀ origin method kind decision, ChecksTo after origin method kind newAccountId decision →
    match source with
    | some id => ChecksTo after origin method kind id decision
    | none => decision =
        if consolidated then
          resolve (originPermissionBucket perms GLOBAL_RULES_SCOPE DEFAULT_BUCKET) method kind
        else .ask

variable {newAccountId : String}

theorem answersKept_iff {mode' : Mode} {perms' : PermissionMap} {last : State permissionSystem}
    {existingAccountIds : List String} (rests : RestsWith queue mode consolidated perms state)
    (rests' : RestsWith queue mode' consolidated perms' last) :
    AnswersKept state last newAccountId existingAccountIds ↔
      Kept mode perms mode' perms' newAccountId existingAccountIds := by
  unfold AnswersKept Kept
  simp only [checksTo_iff rests, checksTo_iff rests', forall_eq]
  exact forall_congr' fun id => forall_congr' fun _ => forall_congr' fun _ => forall_congr' fun _ =>
    forall_congr' fun origin => forall_congr' fun method => forall_congr' fun kind => eq_comm

theorem answersGiven_iff {mode' : Mode} {perms' : PermissionMap} {last : State permissionSystem}
    {source : Option String} (rests' : RestsWith queue mode' consolidated perms' last) :
    AnswersGiven consolidated perms last newAccountId source ↔
      Given mode' consolidated perms perms' newAccountId source := by
  unfold AnswersGiven Given
  cases source with
  | none => simp only [checksTo_iff rests', forall_eq]
  | some id => simp only [checksTo_iff rests', forall_eq]

theorem setupNewAccountPermissions_runs (self : Nat) (existingAccountIds : List String)
    (copyFromAccountId : Option String) (rests : RestsWith queue mode consolidated perms state)
    (free : ∀ lock, queue lock = []) (named : newAccountId ≠ "")
    (reserved : mode.inherits = true → newAccountId ≠ DEFAULT_BUCKET)
    (inheriting : consolidated = true → mode.inherits = true) :
    ∃ last, (setupNewAccountPermissions self newAccountId existingAccountIds copyFromAccountId).run
        Reaction.perform state = some (.ok (), last) ∧
      RestsWith queue mode.afterSetup consolidated
        (accountTree mode consolidated perms newAccountId existingAccountIds
          (copyFromAccountId.filter (· ≠ ""))) last := by
  have performs : Runs (fun outcome last => outcome = .ok () ∧
      RestsWith queue mode.afterSetup consolidated
        (accountTree mode consolidated perms newAccountId existingAccountIds
          (copyFromAccountId.filter (· ≠ ""))) last)
      (setupNewAccountPermissions self newAccountId existingAccountIds copyFromAccountId) state :=
    runs_setupNewAccountPermissions rests free named reserved inheriting fun _ rests => ⟨rfl, rests⟩
  obtain ⟨outcome, last, ran, same, rests'⟩ := performs.run
  exact ⟨last, same ▸ ran, rests'⟩

/-- Setting up an account keeps what every existing account is answered and gives
the new one what was asked for, exactly when the stored tree holds no rules that
come to matter by it.  `copyFromAccountId` is `none` or empty for a fresh start. -/
theorem setupNewAccountPermissions_keeps_iff (self : Nat) {newAccountId : String}
    {existingAccountIds : List String} {copyFromAccountId : Option String}
    (rests : RestsWith queue mode consolidated perms state) (free : ∀ lock, queue lock = [])
    (named : newAccountId ≠ "") (reserved : mode.inherits = true → newAccountId ≠ DEFAULT_BUCKET)
    (inheriting : consolidated = true → mode.inherits = true)
    (fresh : ∀ scope key, ruleAt perms scope newAccountId key = none)
    (other : copyFromAccountId ≠ some newAccountId) :
    ∃ last, (setupNewAccountPermissions self newAccountId existingAccountIds copyFromAccountId).run
        Reaction.perform state = some (.ok (), last) ∧
      (AnswersKept state last newAccountId existingAccountIds ∧
          AnswersGiven consolidated perms last newAccountId (copyFromAccountId.filter (· ≠ "")) ↔
        SetupExact mode consolidated perms newAccountId existingAccountIds
          (copyFromAccountId.filter (· ≠ ""))) := by
  obtain ⟨last, ran, rests'⟩ := setupNewAccountPermissions_runs self existingAccountIds
    copyFromAccountId rests free named reserved inheriting
  refine ⟨last, ran, ?_⟩
  have different : copyFromAccountId.filter (· ≠ "") ≠ some newAccountId := by
    intro found
    exact other (Option.filter_eq_some_iff.mp found).1
  have nonempty : copyFromAccountId.filter (· ≠ "") ≠ some "" := by
    intro found
    simpa using (Option.filter_eq_some_iff.mp found).2
  rw [answersKept_iff rests rests', answersGiven_iff rests']
  cases inherits : mode.inherits with
  | true =>
    have kept : Kept mode perms mode.afterSetup
        (accountTree mode consolidated perms newAccountId existingAccountIds
          (copyFromAccountId.filter (· ≠ ""))) newAccountId existingAccountIds :=
      kept_inherits inherits (reserved inherits) different
    cases consolidated with
    | true =>
      rw [given_globalRules_iff inherits named (reserved inherits) different nonempty fresh]
      exact ⟨fun both => both.2, fun exact => ⟨kept, exact⟩⟩
    | false =>
      refine ⟨fun _ => ?_, fun _ => ⟨kept, ?_⟩⟩
      · unfold SetupExact
        rw [if_pos inherits]
        exact fun never => absurd never (by decide)
      · exact given_inherited inherits named (reserved inherits) different nonempty fresh
  | false =>
    have legacy : consolidated = false := by
      cases consolidated with
      | false => rfl
      | true => rw [inheriting rfl] at inherits; contradiction
    subst legacy
    rw [kept_legacy_iff inherits]
    exact ⟨fun both => both.1, fun exact =>
      ⟨exact, given_legacy inherits named different nonempty fresh⟩⟩

end Checks

section Example

/-- One site may read the public key, by a rule of one bucket.  No flag is set:
every account shares the default bucket. -/
def ruledSite (bucket : String) : PermissionMap :=
  AList.singleton "https://a.example"
    (AList.singleton bucket (AList.singleton "getPublicKey" .allow))

def sharedStore (perms : PermissionMap) : KeyValueStore
  | .PERMISSIONS_STORAGE_KEY => some perms
  | _ => none

theorem restsWith_shared (perms : PermissionMap) :
    RestsWith (fun _ => []) ⟨false, true⟩ false perms (opened (sharedStore perms)).state :=
  ⟨sharedStore perms, rests_opened _, ⟨rfl, rfl, rfl, rfl⟩⟩

theorem ruleAt_ruledSite {bucket other : String} (different : other ≠ bucket)
    (scope key : String) : ruleAt (ruledSite bucket) scope other key = none := by
  rw [ruleAt_eq, ruledSite, ← AList.insert_empty, Record.lookup_insert]
  split
  · rw [Option.bind_some, ← AList.insert_empty, Record.lookup_insert, if_neg different]
    rfl
  · rfl

/-- A bucket that `alice` had from an earlier time answers once `bob` is set up. -/
theorem setupNewAccountPermissions_may_wake :
    ¬ ∀ (self : Nat) (queue : LockName → List Nat) (mode : Mode) (consolidated : Bool)
      (perms : PermissionMap) (state last : State permissionSystem) (newAccountId : String)
      (existingAccountIds : List String) (copyFromAccountId : Option String),
      RestsWith queue mode consolidated perms state → (∀ lock, queue lock = []) →
      newAccountId ≠ "" → (mode.inherits = true → newAccountId ≠ DEFAULT_BUCKET) →
      (consolidated = true → mode.inherits = true) →
      (∀ scope key, ruleAt perms scope newAccountId key = none) →
      copyFromAccountId ≠ some newAccountId →
      (setupNewAccountPermissions self newAccountId existingAccountIds copyFromAccountId).run
        Reaction.perform state = some (.ok (), last) →
      AnswersKept state last newAccountId existingAccountIds ∧
        AnswersGiven consolidated perms last newAccountId (copyFromAccountId.filter (· ≠ "")) := by
  intro claim
  have rests := restsWith_shared (ruledSite "alice")
  obtain ⟨last, ran, rests'⟩ := setupNewAccountPermissions_runs 0 ["alice"] none rests
    (fun _ => rfl) (by decide : "bob" ≠ "") (by decide) (by decide)
  have kept := (claim 0 _ _ _ _ _ _ "bob" ["alice"] none rests (fun _ => rfl) (by decide) (by decide)
    (by decide) (ruleAt_ruledSite (by decide)) (by decide) ran).1
  have asked : ChecksTo (opened (sharedStore (ruledSite "alice"))).state "https://a.example"
      "getPublicKey" .absent "alice" .ask :=
    (checksTo_iff rests _ _ _ _ _).mpr (by decide)
  have still := (checksTo_iff rests' _ _ _ _ _).mp
    (kept "alice" (by decide) (by decide) (by decide) _ _ _ _ asked)
  exact absurd still (by decide)

/-- Without dormant buckets `alice` keeps what the shared rules gave her. -/
theorem setupNewAccountPermissions_keeps_iff_shared :
    ∃ last, (setupNewAccountPermissions 0 "bob" ["alice"] none).run Reaction.perform
        (opened (sharedStore (ruledSite DEFAULT_BUCKET))).state = some (.ok (), last) ∧
      (AnswersKept (opened (sharedStore (ruledSite DEFAULT_BUCKET))).state last "bob" ["alice"] ∧
          AnswersGiven false (ruledSite DEFAULT_BUCKET) last "bob"
            (Option.filter (· ≠ "") (none : Option String)) ↔
        SetupExact ⟨false, true⟩ false (ruledSite DEFAULT_BUCKET) "bob" ["alice"]
          (Option.filter (· ≠ "") (none : Option String))) :=
  setupNewAccountPermissions_keeps_iff 0 (restsWith_shared _) (fun _ => rfl) (by decide) (by decide)
    (by decide) (ruleAt_ruledSite (by decide)) (by decide)

end Example

end NostrWot.Permissions
