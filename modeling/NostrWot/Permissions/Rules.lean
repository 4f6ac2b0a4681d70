import NostrWot.Permissions.Cascade
import NostrWot.Permissions.Origin
import Mathlib.Data.List.Dedup
import Mathlib.Data.List.Sort

namespace NostrWot.Permissions

open NostrWot.Data

/-! # The permission tree

What a tree says about a caller, and the edits that the methods of the store
make to it.  All of it is pure: the store reads a tree, edits a copy and writes
the copy back.
-/

def DEFAULT_BUCKET : String := "_default"

def GLOBAL_RULES_SCOPE : String := "_global"

def bucketAt (tree : PermissionMap) (scope bucket : String) : PermissionBucket :=
  ((tree.lookup scope).bind (·.lookup bucket)).getD ∅

def originPermissionBucket (stored : PermissionMap) (origin bucket : String) : PermissionBucket :=
  (siteScopes origin).reverse.foldl
    (fun result scope => Record.spread result (bucketAt stored scope bucket)) ∅

def effectiveOriginPermissions (perms : PermissionMap) (origin accountId : String) :
    PermissionBucket :=
  Record.spread (Record.spread (Record.spread
    (originPermissionBucket perms GLOBAL_RULES_SCOPE DEFAULT_BUCKET)
    (originPermissionBucket perms GLOBAL_RULES_SCOPE accountId))
    (originPermissionBucket perms origin DEFAULT_BUCKET))
    (originPermissionBucket perms origin accountId)

/-- How the two flags of a store make it read its tree. -/
structure Mode where
  inherits : Bool
  useGlobalDefaults : Bool
  deriving DecidableEq

def Mode.activeBucket (mode : Mode) (accountId : String) : Option String :=
  if !mode.inherits && mode.useGlobalDefaults then some DEFAULT_BUCKET
  else if accountId = "" then none else some accountId

def Mode.rules (mode : Mode) (tree : PermissionMap) (origin accountId : String) :
    PermissionBucket :=
  match mode.activeBucket accountId with
  | none => ∅
  | some bucket =>
    if mode.inherits then effectiveOriginPermissions tree origin accountId
    else originPermissionBucket tree origin bucket

/-! ## Edits -/

/-- `tree[label][bucket][key] = decision`, with the objects on the way created. -/
def setRule (tree : PermissionMap) (label bucket key : String) (decision : PermissionDecision) :
    PermissionMap :=
  Record.alter tree label fun buckets =>
    Record.alter buckets bucket fun rules => rules.insert key decision

def clearBucket (tree : PermissionMap) (scope bucket : String) : PermissionMap :=
  match tree.lookup scope with
  | none => tree
  | some buckets =>
    if Record.isEmpty (buckets.erase bucket) then tree.erase scope
    else tree.insert scope (buckets.erase bucket)

def clearScopes (tree : PermissionMap) (origin bucket : String) : PermissionMap :=
  (siteScopes origin).foldl (fun tree scope => clearBucket tree scope bucket) tree

/-- The edit of `clearAllForOrigin`. -/
def deleteScopes (tree : PermissionMap) (origin : String) : PermissionMap :=
  (siteScopes origin).foldl (fun tree scope => tree.erase scope) tree

/-- The edit of `clearForAccount`. -/
def deleteAccount (tree : PermissionMap) (accountId : String) : PermissionMap :=
  tree.filterMap fun _ buckets =>
    if (buckets.lookup accountId).isSome then
      if Record.isEmpty (buckets.erase accountId) then none else some (buckets.erase accountId)
    else some buckets

/-- Whether `clearForAccount` has anything to write back. -/
def holdsAccount (tree : PermissionMap) (accountId : String) : Bool :=
  tree.entries.any fun entry => (entry.2.lookup accountId).isSome

/-- A bucket that `copyPermissions` copies. -/
def copySource (consolidated : Bool) (source origin : String) (buckets : OriginPermissions) :
    Option PermissionBucket :=
  if consolidated && origin = GLOBAL_RULES_SCOPE then none
  else (buckets.lookup source).filter fun rules => !Record.isEmpty rules

/-- The edit of `copyPermissions`. -/
def copyBucket (consolidated : Bool) (tree : PermissionMap) (source target : String) :
    PermissionMap :=
  tree.map fun origin buckets =>
    match copySource consolidated source origin buckets with
    | some rules => buckets.insert target rules
    | none => buckets

/-- Whether `copyPermissions` has anything to write back. -/
def holdsCopySource (consolidated : Bool) (tree : PermissionMap) (source : String) : Bool :=
  tree.entries.any fun entry => (copySource consolidated source entry.1 entry.2).isSome

/-- Every rule of a bucket read as `ask`: `Object.keys(bucket).map(key => [key, 'ask'])`. -/
def askEvery (bucket : PermissionBucket) : PermissionBucket :=
  bucket.map fun _ _ => PermissionDecision.ask

/-- One origin's part of `setupNewAccountPermissions` once rules are inherited. -/
def setupOrigin (consolidated : Bool) (newAccountId : String) (copyFromAccountId : Option String)
    (tree : PermissionMap) (origin : String) : PermissionMap :=
  if consolidated && origin = GLOBAL_RULES_SCOPE then tree
  else
    let cleared := Record.alter tree origin fun buckets => buckets.erase newAccountId
    if consolidated then
      match copyFromAccountId.bind fun source => (cleared.lookup origin).bind (·.lookup source) with
      | some rules => Record.alter cleared origin fun buckets => buckets.insert newAccountId rules
      | none => cleared
    else
      let defaults := originPermissionBucket cleared origin DEFAULT_BUCKET
      Record.alter cleared origin fun buckets => buckets.insert newAccountId
        (match copyFromAccountId with
        | some source => Record.spread defaults (originPermissionBucket cleared origin source)
        | none => askEvery defaults)

def setupInherited (consolidated : Bool) (tree : PermissionMap) (newAccountId : String)
    (copyFromAccountId : Option String) : PermissionMap :=
  tree.keys.foldl (setupOrigin consolidated newAccountId copyFromAccountId) tree

/-- The edit of `resetAccountRules`. -/
def keepDefaults (tree : PermissionMap) : PermissionMap :=
  tree.filterMap fun _ buckets =>
    (buckets.lookup DEFAULT_BUCKET).map fun defaults => AList.singleton DEFAULT_BUCKET defaults

/-- `change(tree[scope])` for each scope of an origin that is there. -/
def editScopes (tree : PermissionMap) (origin : String)
    (change : OriginPermissions → OriginPermissions) : PermissionMap :=
  (siteScopes origin).foldl (fun tree scope =>
    match tree.lookup scope with
    | some buckets => tree.insert scope (change buckets)
    | none => tree) tree

/-- The edit of `inheritRule`. -/
def dropOverride (tree : PermissionMap) (origin key accountId : String) : PermissionMap :=
  editScopes tree origin fun buckets =>
    match buckets.lookup accountId with
    | some rules => buckets.insert accountId (rules.erase key)
    | none => buckets

/-- The edit of `clearRuleBucket`. -/
def dropBucket (tree : PermissionMap) (origin accountId : String) : PermissionMap :=
  editScopes tree origin fun buckets => buckets.erase accountId

/-! ## Migration to inherited rules -/

/-- The host's inventory for a migration. -/
structure PermissionMigrationContext where
  accountIds : List String
  origins : List String := []
  deriving DecidableEq

def migrationAccounts (tree : PermissionMap) (context : PermissionMigrationContext) :
    Except String (List String) :=
  let ids := (context.accountIds ++
    (tree.entries.flatMap fun entry => entry.2.keys).filter (· ≠ DEFAULT_BUCKET)).dedup
  if ids.any fun id => id = "" || id = DEFAULT_BUCKET then .error "Invalid migration account"
  else .ok ids

theorem migrationAccounts_valid {original : PermissionMap}
    {context : PermissionMigrationContext} {ids : List String} {id : String}
    (accounts : migrationAccounts original context = .ok ids) (known : id ∈ ids) :
    id ≠ "" ∧ id ≠ DEFAULT_BUCKET := by
  unfold migrationAccounts at accounts
  simp only at accounts
  split at accounts
  · contradiction
  · next valid =>
    cases accounts
    rw [Bool.not_eq_true, List.any_eq_false] at valid
    simpa using valid id known

/-- One account's bucket of an origin, with the dormant defaults spelled out as `ask`. -/
def inheritedBucket (original : PermissionMap) (origin id : String) : PermissionBucket :=
  Record.spread (askEvery (originPermissionBucket original origin DEFAULT_BUCKET))
    (originPermissionBucket original origin id)

/-- The tree `migrateToInheritance` writes. -/
def inheritanceTree (shared : Bool) (original : PermissionMap) (ids : List String) :
    PermissionMap :=
  original.map fun origin buckets =>
    if shared then
      match buckets.lookup DEFAULT_BUCKET with
      | some defaults => AList.singleton DEFAULT_BUCKET defaults
      | none => ∅
    else ids.foldl (fun buckets id => buckets.insert id (inheritedBucket original origin id)) buckets

/-! ## Migration to global rules -/

def RESTRICTIVENESS : PermissionDecision → Nat
  | .allow => 1
  | .ask => 2
  | .deny => 3

def moreRestrictive (kept incoming : PermissionDecision) : PermissionDecision :=
  if RESTRICTIVENESS kept < RESTRICTIVENESS incoming then incoming else kept

def foldDefault (existing globals : PermissionBucket) (key : String)
    (value : PermissionDecision) : PermissionBucket :=
  if (existing.lookup key).isSome then globals
  else
    match globals.lookup key with
    | some kept => globals.insert key (moreRestrictive kept value)
    | none => globals.insert key value

def consolidatedDefaults (original : PermissionMap) : PermissionBucket :=
  let existing := bucketAt original GLOBAL_RULES_SCOPE DEFAULT_BUCKET
  original.entries.foldl (fun globals entry =>
    if entry.1 = GLOBAL_RULES_SCOPE then globals
    else ((entry.2.lookup DEFAULT_BUCKET).getD ∅).entries.foldl
      (fun globals rule => foldDefault existing globals rule.1 rule.2) globals) existing

def consolidatedTree (original : PermissionMap) : PermissionMap :=
  (original.map fun origin buckets =>
      if origin = GLOBAL_RULES_SCOPE then buckets else buckets.erase DEFAULT_BUCKET).insert
    GLOBAL_RULES_SCOPE (AList.singleton DEFAULT_BUCKET (consolidatedDefaults original))

/-- The keys under which two buckets do not say the same, absence read as `ask`. -/
def changedKeys (previous next : PermissionBucket) : List String :=
  (previous.keys ++ next.keys).dedup.filter fun key =>
    (previous.lookup key).getD .ask ≠ (next.lookup key).getD .ask

def restoreDecisions (original tree : PermissionMap) (origin id : String) : PermissionMap :=
  let previous := effectiveOriginPermissions original origin id
  match changedKeys previous (effectiveOriginPermissions tree origin id) with
  | [] => tree
  | changed => Record.alter tree origin fun buckets => Record.alter buckets id fun rules =>
    changed.foldl (fun rules key => rules.insert key ((previous.lookup key).getD .ask)) rules

/-- `String.prototype.localeCompare`, which the host's collation decides. -/
structure Collation where
  localeCompare : String → String → Int
  total : ∀ left right, localeCompare left right ≤ 0 ∨ localeCompare right left ≤ 0
  trans : ∀ first second third, localeCompare first second ≤ 0 →
    localeCompare second third ≤ 0 → localeCompare first third ≤ 0

theorem codePoints_le_iff (left right : String) :
    (if left ≤ right then if right ≤ left then 0 else -1 else 1 : Int) ≤ 0 ↔ left ≤ right := by
  split
  · split <;> simp_all
  · simp_all

def Collation.codePoints : Collation where
  localeCompare := fun left right => if left ≤ right then if right ≤ left then 0 else -1 else 1
  total := by
    intro left right
    rw [codePoints_le_iff, codePoints_le_iff]
    exact String.le_total left right
  trans := by
    intro first second third
    rw [codePoints_le_iff, codePoints_le_iff, codePoints_le_iff]
    exact String.le_trans

/-- The comparison origins are sorted by: hostnames before exact origins. -/
def Collation.before (collation : Collation) (left right : String) : Bool :=
  let lengths : Int := (siteScopes left).length - (siteScopes right).length
  if lengths ≠ 0 then lengths ≤ 0 else collation.localeCompare left right ≤ 0

/-- The origins `migrateToGlobalRules` visits, in its order. -/
def migrationOrigins (collation : Collation) (original : PermissionMap)
    (context : PermissionMigrationContext) : List String :=
  (original.keys.filter (· ≠ GLOBAL_RULES_SCOPE) ++ context.origins).dedup.mergeSort
    collation.before

/-- The tree `migrateToGlobalRules` writes. -/
def globalRulesTree (collation : Collation) (original : PermissionMap)
    (context : PermissionMigrationContext) (ids : List String) : PermissionMap :=
  (migrationOrigins collation original context).foldl (fun tree origin =>
    ids.foldl (fun tree id => restoreDecisions original tree origin id) tree)
    (consolidatedTree original)

/-! ## What the reads answer -/

def ruleAt (tree : PermissionMap) (scope bucket key : String) : Option PermissionDecision :=
  (bucketAt tree scope bucket).lookup key

def originRule (tree : PermissionMap) (origin bucket key : String) : Option PermissionDecision :=
  (siteScopes origin).findSome? fun scope => ruleAt tree scope bucket key

variable (tree : PermissionMap)

theorem ruleAt_eq (scope bucket key : String) :
    ruleAt tree scope bucket key =
      ((tree.lookup scope).bind (·.lookup bucket)).bind (·.lookup key) := by
  unfold ruleAt bucketAt
  cases (tree.lookup scope).bind (·.lookup bucket) with
  | none => exact AList.lookup_empty key
  | some rules => rfl

theorem originRule_congr {left right : PermissionMap} {origin bucket key : String}
    (same : ∀ scope ∈ siteScopes origin, ruleAt left scope bucket key = ruleAt right scope bucket key) :
    originRule left origin bucket key = originRule right origin bucket key := by
  unfold originRule
  generalize siteScopes origin = scopes at same
  induction scopes with
  | nil => rfl
  | cons scope rest ih =>
    rw [List.findSome?_cons, List.findSome?_cons, same scope List.mem_cons_self,
      ih fun scope member => same scope (List.mem_cons_of_mem _ member)]

theorem lookup_spread_foldl (bucket key : String) (scopes : List String)
    (result : PermissionBucket) :
    (scopes.reverse.foldl
      (fun result scope => Record.spread result (bucketAt tree scope bucket)) result).lookup key =
      (scopes.findSome? fun scope => ruleAt tree scope bucket key).or (result.lookup key) := by
  induction scopes with
  | nil => rfl
  | cons scope rest ih =>
    rw [List.reverse_cons, List.foldl_append, List.foldl_cons, List.foldl_nil,
      Record.lookup_spread, ih, List.findSome?_cons, ← ruleAt]
    cases ruleAt tree scope bucket key <;> rfl

@[simp] theorem lookup_originPermissionBucket (tree : PermissionMap) (origin bucket key : String) :
    (originPermissionBucket tree origin bucket).lookup key = originRule tree origin bucket key := by
  rw [originPermissionBucket, lookup_spread_foldl, AList.lookup_empty, Option.or_none, originRule]

theorem lookup_effectiveOriginPermissions (origin accountId key : String) :
    (effectiveOriginPermissions tree origin accountId).lookup key =
      (originRule tree origin accountId key).or ((originRule tree origin DEFAULT_BUCKET key).or
        ((originRule tree GLOBAL_RULES_SCOPE accountId key).or
          (originRule tree GLOBAL_RULES_SCOPE DEFAULT_BUCKET key))) := by
  simp only [effectiveOriginPermissions, Record.lookup_spread, lookup_originPermissionBucket]

/-! ## Trees without an allow -/

def NoAllow (rules : PermissionBucket) : Prop := Record.Forall (· ≠ .allow) rules

def GrantsNothing (tree : PermissionMap) : Prop := Record.Forall (Record.Forall NoAllow) tree

theorem NoAllow.resolve {rules : PermissionBucket} (none : NoAllow rules) (method : String)
    (kind : KindArgument) : resolve rules method kind ≠ .allow := by
  intro allowed
  obtain ⟨key, -, found⟩ := resolve_allow allowed
  exact none key _ found rfl

theorem NoAllow.askEvery (rules : PermissionBucket) : NoAllow (askEvery rules) :=
  Record.Forall.map fun _ _ _ => by decide

namespace GrantsNothing

variable {tree : PermissionMap}

theorem empty : GrantsNothing ∅ := Record.Forall.empty

theorem bucketAt (none : GrantsNothing tree) (scope bucket : String) :
    NoAllow (bucketAt tree scope bucket) := by
  intro key value found
  unfold Permissions.bucketAt at found
  cases present : (tree.lookup scope).bind (·.lookup bucket) with
  | none => simp [present] at found
  | some rules =>
    obtain ⟨buckets, stored, held⟩ := Option.bind_eq_some_iff.mp present
    rw [present] at found
    exact none scope buckets stored bucket rules held key value found

theorem originPermissionBucket (none : GrantsNothing tree) (origin bucket : String) :
    NoAllow (originPermissionBucket tree origin bucket) :=
  List.foldlRecOn (motive := NoAllow) _ _ .empty fun _ held scope _ =>
    held.spread (none.bucketAt scope bucket)

theorem effectiveOriginPermissions (none : GrantsNothing tree) (origin accountId : String) :
    NoAllow (effectiveOriginPermissions tree origin accountId) :=
  (((none.originPermissionBucket _ _).spread (none.originPermissionBucket _ _)).spread
    (none.originPermissionBucket _ _)).spread (none.originPermissionBucket _ _)

theorem clearScopes (none : GrantsNothing tree) (origin bucket : String) :
    GrantsNothing (clearScopes tree origin bucket) := by
  refine List.foldlRecOn (motive := GrantsNothing) _ _ none fun tree none scope _ => ?_
  unfold clearBucket
  cases found : tree.lookup scope with
  | none => exact none
  | some buckets =>
    simp only
    split
    · exact none.erase scope
    · exact none.insert ((none scope buckets found).erase bucket)

theorem deleteScopes (none : GrantsNothing tree) (origin : String) :
    GrantsNothing (deleteScopes tree origin) :=
  List.foldlRecOn (motive := GrantsNothing) _ _ none fun _ none scope _ =>
    Record.Forall.erase none scope

theorem deleteAccount (none : GrantsNothing tree) (accountId : String) :
    GrantsNothing (deleteAccount tree accountId) := by
  refine Record.Forall.filterMap fun origin buckets result found changed => ?_
  split at changed
  · split at changed
    · contradiction
    · cases changed
      exact (none origin buckets found).erase accountId
  · cases changed
    exact none origin buckets found

theorem keepDefaults (none : GrantsNothing tree) : GrantsNothing (keepDefaults tree) := by
  refine Record.Forall.filterMap fun origin buckets result found changed => ?_
  obtain ⟨defaults, held, rfl⟩ := Option.map_eq_some_iff.mp changed
  exact .of_singleton (none origin buckets found _ defaults held)

theorem editScopes (none : GrantsNothing tree) (origin : String)
    {change : OriginPermissions → OriginPermissions}
    (keeps : ∀ buckets, Record.Forall NoAllow buckets → Record.Forall NoAllow (change buckets)) :
    GrantsNothing (editScopes tree origin change) := by
  refine List.foldlRecOn (motive := GrantsNothing) _ _ none fun tree none scope _ => ?_
  cases found : tree.lookup scope with
  | none => exact none
  | some buckets => exact Record.Forall.insert none (keeps buckets (none scope buckets found))

theorem dropOverride (none : GrantsNothing tree) (origin key accountId : String) :
    GrantsNothing (dropOverride tree origin key accountId) := by
  refine none.editScopes origin fun buckets every => ?_
  split
  · next rules found => exact every.insert ((every accountId rules found).erase key)
  · exact every

theorem dropBucket (none : GrantsNothing tree) (origin accountId : String) :
    GrantsNothing (dropBucket tree origin accountId) :=
  none.editScopes origin fun _ every => every.erase accountId

theorem inheritanceTree (none : GrantsNothing tree) (shared : Bool) (ids : List String) :
    GrantsNothing (inheritanceTree shared tree ids) := by
  refine Record.Forall.map fun origin buckets found => ?_
  split
  · split
    · next defaults held => exact .of_singleton (none origin buckets found _ defaults held)
    · exact .empty
  · exact List.foldlRecOn (motive := Record.Forall NoAllow) ids _ (none origin buckets found)
      fun _ every id _ => every.insert
        ((NoAllow.askEvery _).spread (none.originPermissionBucket origin id))

theorem consolidatedDefaults (none : GrantsNothing tree) : NoAllow (consolidatedDefaults tree) := by
  refine List.foldlRecOn (motive := NoAllow) _ _ (none.bucketAt _ _) fun globals clean entry member => ?_
  split
  · exact clean
  · have buckets := none entry.1 entry.2 (Record.mem_entries_iff.mp member)
    refine List.foldlRecOn (motive := NoAllow) _ _ clean fun globals clean rule among => ?_
    have harmless : rule.2 ≠ .allow :=
      (buckets.getD .empty DEFAULT_BUCKET) rule.1 rule.2 (Record.mem_entries_iff.mp among)
    unfold foldDefault
    split
    · exact clean
    · split
      · next kept found =>
        refine clean.insert ?_
        unfold moreRestrictive
        split
        · exact harmless
        · exact clean rule.1 kept found
      · exact clean.insert harmless

theorem consolidatedTree (none : GrantsNothing tree) : GrantsNothing (consolidatedTree tree) := by
  refine Record.Forall.insert (.map fun origin buckets found => ?_)
    (.of_singleton none.consolidatedDefaults)
  split
  · exact none origin buckets found
  · exact (none origin buckets found).erase _

theorem restoreDecisions {original : PermissionMap} (none : GrantsNothing tree)
    (clean : GrantsNothing original) (origin id : String) :
    GrantsNothing (restoreDecisions original tree origin id) := by
  unfold Permissions.restoreDecisions
  simp only
  split
  · exact none
  · refine Record.Forall.alter none .empty fun buckets every => every.alter .empty fun rules held => ?_
    refine List.foldlRecOn (motive := NoAllow) _ _ held fun rules held key _ => held.insert ?_
    cases found : (Permissions.effectiveOriginPermissions original origin id).lookup key with
    | none => decide
    | some decision => exact clean.effectiveOriginPermissions origin id key decision found

theorem globalRulesTree (none : GrantsNothing tree) (collation : Collation)
    (context : PermissionMigrationContext) (ids : List String) :
    GrantsNothing (globalRulesTree collation tree context ids) :=
  List.foldlRecOn (motive := GrantsNothing) _ _ none.consolidatedTree fun _ held origin _ =>
    List.foldlRecOn (motive := GrantsNothing) ids _ held fun _ held id _ =>
      held.restoreDecisions none origin id

end GrantsNothing

end NostrWot.Permissions
