import NostrWot.Permissions.Migration

namespace NostrWot.Permissions

open NostrWot.Data NostrWot.Async StoreKey KeyValueStore

/-! # What inheritance changes

`migrateToInheritance` gives an account every rule that applied to it before,
and rules that did not: the dormant defaults of a site as `ask`, and whatever
was stored under the label of the global rules.
-/

section Tree

variable {original : PermissionMap} {ids : List String} {origin id : String}

def askFor (default : Option PermissionDecision) : Option PermissionDecision :=
  default.map fun _ => .ask

theorem lookup_inheritedBucket (original : PermissionMap) (origin id key : String) :
    (inheritedBucket original origin id).lookup key =
      (originRule original origin id key).or
        (askFor (originRule original origin DEFAULT_BUCKET key)) := by
  rw [inheritedBucket, Record.lookup_spread, askEvery, Record.lookup_map,
    lookup_originPermissionBucket, lookup_originPermissionBucket, askFor]

theorem ruleAt_inheritanceTree_shared (original : PermissionMap) (ids : List String)
    (scope bucket key : String) :
    ruleAt (inheritanceTree true original ids) scope bucket key =
      if bucket = DEFAULT_BUCKET then ruleAt original scope DEFAULT_BUCKET key else none := by
  rw [ruleAt_eq, ruleAt_eq, inheritanceTree, Record.lookup_map]
  cases original.lookup scope with
  | none => simp
  | some buckets =>
    simp only [if_true, Option.map_some, Option.bind_some]
    cases buckets.lookup DEFAULT_BUCKET with
    | none => simp
    | some defaults =>
      simp only [← AList.insert_empty, Record.lookup_insert]
      split <;> simp

theorem ruleAt_inheritanceTree_known (known : id ∈ ids) (scope key : String) :
    ruleAt (inheritanceTree false original ids) scope id key =
      if (original.lookup scope).isSome then
        (originRule original scope id key).or
          (askFor (originRule original scope DEFAULT_BUCKET key))
      else none := by
  rw [ruleAt_eq, inheritanceTree, Record.lookup_map]
  cases original.lookup scope with
  | none => simp
  | some buckets => simp [Record.lookup_foldl_insert, known, lookup_inheritedBucket]

theorem ruleAt_inheritanceTree_other (unknown : id ∉ ids) (scope key : String) :
    ruleAt (inheritanceTree false original ids) scope id key = ruleAt original scope id key := by
  rw [ruleAt_eq, ruleAt_eq, inheritanceTree, Record.lookup_map]
  cases original.lookup scope with
  | none => simp
  | some buckets => simp [Record.lookup_foldl_insert, unknown]

theorem ruleAt_of_absent {scope : String} (absent : original.lookup scope = none)
    (bucket key : String) : ruleAt original scope bucket key = none := by
  rw [ruleAt_eq, absent]
  rfl

theorem originRule_inheritanceTree_known (known : id ∈ ids)
    (canonical : storageLabel origin = origin) (key : String) :
    originRule (inheritanceTree false original ids) origin id key =
      (originRule original origin id key).or
        (askFor (originRule original origin DEFAULT_BUCKET key)) := by
  have own : ∀ scope key, ruleAt (inheritanceTree false original ids) scope id key = _ :=
    ruleAt_inheritanceTree_known known
  rcases siteScopes_of_storageLabel canonical with alone | layered
  · rw [originRule, alone, List.findSome?_singleton, own]
    cases present : original.lookup origin with
    | some buckets => rfl
    | none =>
      simp [originRule, alone, ruleAt_of_absent present, askFor]
  · have hostname : ∀ bucket, originRule original (hostnameOf origin) bucket key =
        ruleAt original (hostnameOf origin) bucket key := by
      intro bucket
      rw [originRule, siteScopes_hostnameOf, List.findSome?_singleton]
    have both : ∀ bucket, originRule original origin bucket key =
        (ruleAt original origin bucket key).or (ruleAt original (hostnameOf origin) bucket key) := by
      intro bucket
      rw [originRule, layered, List.findSome?_cons, List.findSome?_singleton]
      cases ruleAt original origin bucket key <;> rfl
    rw [originRule, layered, List.findSome?_cons, List.findSome?_singleton, own, own, hostname,
      hostname, both, both]
    cases exact : original.lookup origin with
    | none =>
      cases legacy : original.lookup (hostnameOf origin) with
      | none => simp [ruleAt_of_absent exact, ruleAt_of_absent legacy, askFor]
      | some buckets => simp [ruleAt_of_absent exact]
    | some buckets =>
      simp only [Option.isSome_some, if_true]
      cases legacy : original.lookup (hostnameOf origin) with
      | none =>
        simp only [ruleAt_of_absent legacy, Option.or_none, Option.isSome_none,
          Bool.false_eq_true, if_false]
        cases (ruleAt original origin id key).or (askFor (ruleAt original origin DEFAULT_BUCKET key)) <;> rfl
      | some buckets =>
        simp only [Option.isSome_some, if_true]
        cases ruleAt original origin id key with
        | some decision => rfl
        | none =>
          cases ruleAt original (hostnameOf origin) id key with
          | some decision => rfl
          | none =>
            cases ruleAt original origin DEFAULT_BUCKET key with
            | some decision => rfl
            | none => 
                cases ruleAt original (hostnameOf origin) DEFAULT_BUCKET key <;> rfl

theorem originRule_of_absent (absent : original.lookup GLOBAL_RULES_SCOPE = none)
    (bucket key : String) : originRule original GLOBAL_RULES_SCOPE bucket key = none := by
  have scopes : siteScopes GLOBAL_RULES_SCOPE = [GLOBAL_RULES_SCOPE] := by decide
  rw [originRule, scopes, List.findSome?_singleton, ruleAt_of_absent absent]

theorem originRule_inheritanceTree_shared (original : PermissionMap) (ids : List String)
    (origin bucket key : String) :
    originRule (inheritanceTree true original ids) origin bucket key =
      if bucket = DEFAULT_BUCKET then originRule original origin DEFAULT_BUCKET key else none := by
  have written := ruleAt_inheritanceTree_shared original ids
  by_cases own : bucket = DEFAULT_BUCKET
  · subst own
    rw [if_pos rfl]
    exact originRule_congr fun scope _ => by rw [written, if_pos rfl]
  · rw [if_neg own]
    simp [originRule, written, own]

theorem originRule_inheritanceTree_other (unknown : id ∉ ids) (origin key : String) :
    originRule (inheritanceTree false original ids) origin id key =
      originRule original origin id key :=
  originRule_congr fun scope _ => ruleAt_inheritanceTree_other unknown scope key

theorem mem_siteScopes_self {scope : String}
    (canonical : storageLabel (storageLabel origin) = storageLabel origin)
    (among : scope ∈ siteScopes origin) : scope ∈ siteScopes scope := by
  unfold storageLabel at canonical
  unfold siteScopes at among
  cases found : canonicalHttpOrigin origin with
  | none =>
    rw [found, List.mem_singleton] at among
    rw [among, siteScopes, found]
    exact List.mem_singleton_self origin
  | some label =>
    rw [found] at among
    rw [found, Option.getD_some] at canonical
    rcases List.mem_cons.mp among with same | hostname
    · subst same
      have canonical : storageLabel scope = scope := canonical
      rcases siteScopes_of_storageLabel canonical with alone | layered
      · rw [alone]
        exact List.mem_singleton_self scope
      · rw [layered]
        exact List.mem_cons_self
    · rw [List.mem_singleton.mp hostname, siteScopes_hostnameOf]
      exact List.mem_singleton_self _

theorem originRule_inheritanceTree_isSome (known : id ∈ ids)
    (canonical : storageLabel (storageLabel origin) = storageLabel origin) {key : String}
    (default : (originRule original origin DEFAULT_BUCKET key).isSome) :
    (originRule (inheritanceTree false original ids) origin id key).isSome := by
  unfold originRule at default ⊢
  rw [List.findSome?_isSome_iff] at default ⊢
  obtain ⟨scope, among, ruled⟩ := default
  refine ⟨scope, among, ?_⟩
  have stored : (original.lookup scope).isSome := by
    cases present : original.lookup scope with
    | some buckets => rfl
    | none =>
      rw [ruleAt_of_absent present] at ruled
      contradiction
  have own : (originRule original scope DEFAULT_BUCKET key).isSome := by
    unfold originRule
    rw [List.findSome?_isSome_iff]
    exact ⟨scope, mem_siteScopes_self canonical among, ruled⟩
  rw [ruleAt_inheritanceTree_known known, if_pos stored, Option.isSome_or, askFor,
    Option.isSome_map, own, Bool.or_true]

theorem lookup_inheritanceTree_global (absent : original.lookup GLOBAL_RULES_SCOPE = none)
    (shared : Bool) (ids : List String) :
    (inheritanceTree shared original ids).lookup GLOBAL_RULES_SCOPE = none := by
  rw [inheritanceTree, Record.lookup_map, absent, Option.map_none]

/-- Without rules under the global label, a migrated tree of account buckets reads
alike with and without inheritance. -/
theorem lookup_effective_inheritanceTree (absent : original.lookup GLOBAL_RULES_SCOPE = none)
    (known : id ∈ ids) (proper : DEFAULT_BUCKET ∉ ids)
    (canonical : storageLabel (storageLabel origin) = storageLabel origin) (key : String) :
    (effectiveOriginPermissions (inheritanceTree false original ids) origin id).lookup key =
      (originPermissionBucket (inheritanceTree false original ids) origin id).lookup key := by
  have global := originRule_of_absent (lookup_inheritanceTree_global absent false ids)
  rw [lookup_effectiveOriginPermissions, lookup_originPermissionBucket, global, global,
    originRule_inheritanceTree_other proper]
  cases default : originRule original origin DEFAULT_BUCKET key with
  | none => simp
  | some decision =>
    have own := originRule_inheritanceTree_isSome known canonical
      (by rw [default]; rfl : (originRule original origin DEFAULT_BUCKET key).isSome)
    cases written : originRule (inheritanceTree false original ids) origin id key with
    | none => simp [written] at own
    | some decision => rfl

/-- Without rules under the global label, a caller without an account reads the
site's defaults of a migrated tree of shared rules. -/
theorem lookup_effective_inheritanceTree_anonymous
    (absent : original.lookup GLOBAL_RULES_SCOPE = none) (key : String) :
    (effectiveOriginPermissions (inheritanceTree true original ids) origin "").lookup key =
      (originPermissionBucket original origin DEFAULT_BUCKET).lookup key := by
  have global := originRule_of_absent (lookup_inheritanceTree_global absent true ids)
  have anonymous : ("" : String) ≠ DEFAULT_BUCKET := by decide
  rw [lookup_effectiveOriginPermissions, lookup_originPermissionBucket, global, global,
    originRule_inheritanceTree_shared, originRule_inheritanceTree_shared, if_neg anonymous,
    if_pos rfl]
  simp

/-- The rules that a migrated tree adds to those that applied before: in shared
mode the defaults of the global label, per account an `ask` for every dormant
default and the account's rules of the global label. -/
def dormantRule (shared : Bool) (tree : PermissionMap) (origin accountId key : String) :
    Option PermissionDecision :=
  if shared then originRule tree GLOBAL_RULES_SCOPE DEFAULT_BUCKET key
  else
    (askFor (originRule tree origin DEFAULT_BUCKET key)).or
      ((originRule tree GLOBAL_RULES_SCOPE accountId key).or
        (askFor (originRule tree GLOBAL_RULES_SCOPE DEFAULT_BUCKET key)))

theorem lookup_inheritanceTree {context : PermissionMigrationContext} (shared : Bool)
    (accounts : migrationAccounts original context = .ok ids) (known : id ∈ ids)
    (canonical : storageLabel origin = origin) (key : String) :
    ((Mode.mk true false).rules (inheritanceTree shared original ids) origin id).lookup key =
      (((Mode.mk false shared).rules original origin id).lookup key).or
        (dormantRule shared original origin id key) := by
  obtain ⟨nonempty, own⟩ := migrationAccounts_valid accounts known
  have unknown : DEFAULT_BUCKET ∉ ids :=
    fun member => (migrationAccounts_valid accounts member).2 rfl
  have globalLabel : storageLabel GLOBAL_RULES_SCOPE = GLOBAL_RULES_SCOPE := by decide
  have after : (Mode.mk true false).rules (inheritanceTree shared original ids) origin id =
      effectiveOriginPermissions (inheritanceTree shared original ids) origin id := by
    simp [Mode.rules, Mode.activeBucket, nonempty]
  rw [after, lookup_effectiveOriginPermissions]
  cases shared with
  | true =>
    have before : (Mode.mk false true).rules original origin id =
        originPermissionBucket original origin DEFAULT_BUCKET := rfl
    simp only [before, lookup_originPermissionBucket, originRule_inheritanceTree_shared, own,
      if_true, if_false, Option.none_or, dormantRule]
  | false =>
    have before : (Mode.mk false false).rules original origin id =
        originPermissionBucket original origin id := by
      simp [Mode.rules, Mode.activeBucket, nonempty]
    rw [before, lookup_originPermissionBucket, originRule_inheritanceTree_other unknown,
      originRule_inheritanceTree_other unknown, originRule_inheritanceTree_known known canonical,
      originRule_inheritanceTree_known known globalLabel]
    unfold dormantRule
    cases originRule original origin id key <;>
      cases originRule original origin DEFAULT_BUCKET key <;>
      cases originRule original GLOBAL_RULES_SCOPE id key <;>
      cases originRule original GLOBAL_RULES_SCOPE DEFAULT_BUCKET key <;> rfl

end Tree

/-! ## Checks around a migration -/

section Alone

variable {queue : LockName → List Nat} {store : KeyValueStore} {state : State permissionSystem}

/-- What a check by itself answers. -/
def decisionAt (store : KeyValueStore) (origin method : String) (kind : KindArgument)
    (accountId : String) : PermissionDecision :=
  resolve ((mode store).rules (tree store) origin accountId) method kind

variable {during : State permissionSystem → Prop}

theorem performs_getForOrigin {origin accountId : String}
    {post : Except String PermissionBucket → State permissionSystem → Prop}
    (rests : Rests queue store state) (here : ∀ state, Rests queue store state → during state)
    (settled : store MIGRATION_PENDING_KEY = none) (next : ∀ last, Rests queue store last →
      post (.ok ((mode store).rules (tree store) origin accountId)) last) :
    Performs during post (getForOrigin origin accountId) state := by
  refine .bind (performs_activeBucket accountId rests here fun state rests => ?_)
  unfold Mode.rules at next
  cases active : (mode store).activeBucket accountId with
  | none =>
    rw [active] at next
    exact next state rests
  | some bucket =>
    rw [active] at next
    refine .bind (performs_load rests here settled fun state rests => ?_)
    refine .bind (performs_inherits rests here ?_)
    cases inheriting : (mode store).inherits with
    | true =>
      simp only [inheriting, if_true] at next
      exact next state rests
    | false =>
      simp only [inheriting, Bool.false_eq_true, if_false] at next
      exact next state rests

theorem performs_check {origin method accountId : String} {kind : KindArgument}
    {post : Except String PermissionDecision → State permissionSystem → Prop}
    (rests : Rests queue store state) (here : ∀ state, Rests queue store state → during state)
    (settled : store MIGRATION_PENDING_KEY = none) (next : ∀ last, Rests queue store last →
      post (.ok (decisionAt store origin method kind accountId)) last) :
    Performs during post (check origin method kind accountId) state :=
  .bind (performs_getForOrigin rests here settled fun last rests => next last rests)

def AcrossMigration (self : Nat) (context : PermissionMigrationContext)
    (origin method : String) (kind : KindArgument) (accountId : String)
    (state : State permissionSystem) (before after : PermissionDecision) : Prop :=
  ∃ checked migrated last,
    (check origin method kind accountId).run Reaction.perform state = some (.ok before, checked) ∧
    (migrateToInheritance self context).run Reaction.perform checked = some (.ok (), migrated) ∧
    (check origin method kind accountId).run Reaction.perform migrated = some (.ok after, last)

variable {context : PermissionMigrationContext}

theorem inherited_of_legacy {ids : List String} (settled : store MIGRATION_PENDING_KEY = none)
    (legacy : store INHERITANCE_KEY ≠ some true)
    (accounts : migrationAccounts (tree store) context = .ok ids) :
    inherited context store = (.ok (), replay
      ⟨inheritanceTree (mode store).useGlobalDefaults (tree store) ids, false⟩ store) := by
  simp only [inherited, settle_of_none settled, if_neg legacy, accounts]

theorem check_runs (origin method : String) (kind : KindArgument) (accountId : String)
    (rests : Rests queue store state) (settled : store MIGRATION_PENDING_KEY = none) :
    ∃ last, (check origin method kind accountId).run Reaction.perform state =
        some (.ok (decisionAt store origin method kind accountId), last) ∧
      Rests queue store last := by
  have performs : Performs (fun _ => True) (fun outcome last =>
      outcome = .ok (decisionAt store origin method kind accountId) ∧ Rests queue store last)
      (check origin method kind accountId) state :=
    performs_check rests (fun _ _ => trivial) settled fun _ rests => ⟨rfl, rests⟩
  obtain ⟨outcome, last, ran, same, rests⟩ := performs.run
  exact ⟨last, same ▸ ran, rests⟩

theorem acrossMigration (self : Nat) {ids : List String} (origin method : String)
    (kind : KindArgument) (accountId : String) (rests : Rests queue store state)
    (free : queue .rules = []) (settled : store MIGRATION_PENDING_KEY = none)
    (legacy : store INHERITANCE_KEY ≠ some true)
    (accounts : migrationAccounts (tree store) context = .ok ids) :
    AcrossMigration self context origin method kind accountId state
      (decisionAt store origin method kind accountId)
      (decisionAt (inherited context store).2 origin method kind accountId) := by
  obtain ⟨checked, first, rests⟩ := check_runs origin method kind accountId rests settled
  obtain ⟨migrated, second, rests⟩ := migrateToInheritance_runs self context rests free
  have completed : (inherited context store).1 = .ok () := by
    rw [inherited_of_legacy settled legacy accounts]
  rw [completed] at second
  obtain ⟨last, third, -⟩ := check_runs origin method kind accountId rests
    (inherited_pending context store)
  exact ⟨checked, migrated, last, first, second, third⟩

/-- A check answers the same after `migrateToInheritance` exactly when the rules
that the migration adds change nothing. -/
theorem migrateToInheritance_keeps_check_iff {self : Nat} {context : PermissionMigrationContext}
    {ids : List String} {origin method accountId : String} {kind : KindArgument}
    (rests : Rests queue store state) (free : queue .rules = [])
    (settled : store MIGRATION_PENDING_KEY = none) (legacy : store INHERITANCE_KEY ≠ some true)
    (accounts : migrationAccounts (tree store) context = .ok ids) (known : accountId ∈ ids)
    (canonical : storageLabel origin = origin) :
    ∃ before after, AcrossMigration self context origin method kind accountId state before after ∧
      (after = before ↔
        FillKeeps ((mode store).rules (tree store) origin accountId)
          (dormantRule (mode store).useGlobalDefaults (tree store) origin accountId) method kind) := by
  refine ⟨_, _, acrossMigration self origin method kind accountId rests free settled legacy accounts, ?_⟩
  have old : mode store = ⟨false, (mode store).useGlobalDefaults⟩ := by
    simp [mode, legacy]
  rw [inherited_of_legacy settled legacy accounts]
  refine resolve_fill_iff fun key => ?_
  have fills := lookup_inheritanceTree (mode store).useGlobalDefaults accounts known canonical key
  rw [← old] at fills
  exact fills

end Alone

section Example

/-- A store with rules of its own for the account `account`, and a dormant
default for one event kind. -/
def dormantDefault (kind : String) : KeyValueStore
  | .PERMISSIONS_STORAGE_KEY => some (AList.singleton "https://a.example"
      ((AList.singleton DEFAULT_BUCKET (AList.singleton (kind) PermissionDecision.allow)).insert
        "account" (AList.singleton "*" .allow)))
  | .GLOBAL_DEFAULTS_KEY => some false
  | _ => none

theorem rests_opened (store : KeyValueStore) :
    Rests (fun _ => []) store ⟨{}, .opened store⟩ := ⟨rfl, rfl, by simp, by simp⟩

/-- The dormant default becomes a question that hides the account's own rule. -/
theorem migrateToInheritance_may_change_check :
    ¬ ∀ (self : Nat) (queue : LockName → List Nat) (store : KeyValueStore)
      (state : State permissionSystem) (context : PermissionMigrationContext) (ids : List String)
      (origin method accountId : String) (kind : KindArgument) (before after : PermissionDecision),
      Rests queue store state → queue .rules = [] → store MIGRATION_PENDING_KEY = none →
      store INHERITANCE_KEY ≠ some true → migrationAccounts (tree store) context = .ok ids →
      accountId ∈ ids → storageLabel origin = origin →
      AcrossMigration self context origin method kind accountId state before after →
      after = before := by
  intro claim
  have accounts : migrationAccounts (tree (dormantDefault "signEvent:1"))
      { accountIds := ["account"] } = .ok ["account"] := by decide
  have across := acrossMigration 0 "https://a.example" "signEvent" (.kind 1) "account"
    (rests_opened (dormantDefault "signEvent:1")) rfl rfl (by simp [dormantDefault]) accounts
  have changed : decisionAt (inherited { accountIds := ["account"] }
      (dormantDefault "signEvent:1")).2 "https://a.example" "signEvent" (.kind 1) "account" ≠
      decisionAt (dormantDefault "signEvent:1") "https://a.example" "signEvent" (.kind 1)
        "account" := by decide
  exact changed (claim 0 _ _ _ _ _ _ _ _ _ _ _ (rests_opened _) rfl rfl
    (by simp [dormantDefault]) accounts (by simp) (by decide) across)

/-- A dormant default for another kind changes nothing. -/
theorem migrateToInheritance_keeps_check_iff_otherKind :
    ∃ before after, AcrossMigration 0 { accountIds := ["account"] } "https://a.example"
        "signEvent" (.kind 1) "account" ⟨{}, .opened (dormantDefault "signEvent:7")⟩ before after ∧
      (after = before ↔
        FillKeeps ((mode (dormantDefault "signEvent:7")).rules (tree (dormantDefault "signEvent:7"))
            "https://a.example" "account")
          (dormantRule (mode (dormantDefault "signEvent:7")).useGlobalDefaults
            (tree (dormantDefault "signEvent:7")) "https://a.example" "account")
          "signEvent" (.kind 1)) := by
  have accounts : migrationAccounts (tree (dormantDefault "signEvent:7"))
      { accountIds := ["account"] } = .ok ["account"] := by decide
  have legacy : dormantDefault "signEvent:7" .INHERITANCE_KEY ≠ some true := by
    simp [dormantDefault]
  have canonical : storageLabel "https://a.example" = "https://a.example" := by decide
  exact migrateToInheritance_keeps_check_iff (rests_opened _) rfl rfl legacy accounts
    List.mem_cons_self canonical

end Example

end NostrWot.Permissions
