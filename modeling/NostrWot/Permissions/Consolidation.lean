import NostrWot.Permissions.Migration

namespace NostrWot.Permissions

open NostrWot.Data NostrWot.Async StoreKey KeyValueStore

/-! # What consolidation keeps

`migrateToGlobalRules` merges the defaults of all sites and then patches every
site until each account sees there what it saw before.  A patch of a hostname
reaches the origins above it, so hostnames are patched first.
-/

/-- What an account is answered for one key at a label; absence reads as `ask`. -/
def effectiveDecision (tree : PermissionMap) (label accountId key : String) : PermissionDecision :=
  ((effectiveOriginPermissions tree label accountId).lookup key).getD .ask

/-- An account is answered at a label what it was answered in `original`. -/
def Restored (original tree : PermissionMap) (label accountId : String) : Prop :=
  ∀ key, effectiveDecision tree label accountId key = effectiveDecision original label accountId key

section Restoring

variable {original tree : PermissionMap} {origin label id other : String}

theorem mem_changedKeys (previous next : PermissionBucket) (key : String) :
    key ∈ changedKeys previous next ↔
      (previous.lookup key).getD .ask ≠ (next.lookup key).getD .ask := by
  unfold changedKeys
  rw [List.mem_filter, List.mem_dedup, List.mem_append, decide_eq_true_eq]
  constructor
  · intro changed
    exact changed.2
  · intro different
    refine ⟨?_, different⟩
    by_contra absent
    obtain ⟨notBefore, notAfter⟩ := not_or.mp absent
    have before : previous.lookup key = none := AList.lookup_eq_none.mpr notBefore
    have after : next.lookup key = none := AList.lookup_eq_none.mpr notAfter
    rw [before, after] at different
    exact different rfl

theorem ruleAt_alter (tree : PermissionMap) (origin id : String)
    (change : PermissionBucket → PermissionBucket) (scope bucket key : String) :
    ruleAt (Record.alter tree origin fun buckets => Record.alter buckets id change) scope bucket key =
      if scope = origin ∧ bucket = id then (change (bucketAt tree origin id)).lookup key
      else ruleAt tree scope bucket key := by
  rw [ruleAt_eq, ruleAt_eq, Record.lookup_alter]
  by_cases here : scope = origin
  · subst here
    simp only [if_true, Option.bind_some, Record.lookup_alter, true_and]
    have inner : ((tree.lookup scope).getD ∅).lookup id =
        (tree.lookup scope).bind (·.lookup id) := by
      cases tree.lookup scope with
      | none => exact AList.lookup_empty id
      | some buckets => rfl
    by_cases own : bucket = id
    · subst own
      simp [inner, bucketAt]
    · simp only [own, if_false]
      cases tree.lookup scope with
      | none => simp
      | some buckets => rfl
  · simp [here]

theorem ruleAt_restoreDecisions (original tree : PermissionMap) (origin id scope bucket key : String) :
    ruleAt (restoreDecisions original tree origin id) scope bucket key =
      if (scope = origin ∧ bucket = id) ∧
          effectiveDecision original origin id key ≠ effectiveDecision tree origin id key then
        some (effectiveDecision original origin id key)
      else ruleAt tree scope bucket key := by
  have changed := mem_changedKeys (effectiveOriginPermissions original origin id)
    (effectiveOriginPermissions tree origin id) key
  unfold restoreDecisions
  simp only
  split
  · next none =>
    rw [none] at changed
    have same : ¬ effectiveDecision original origin id key ≠ effectiveDecision tree origin id key :=
      fun different => List.not_mem_nil (changed.mpr different)
    simp only [same, and_false, if_false]
  · rw [ruleAt_alter, Record.lookup_foldl_insert]
    by_cases here : scope = origin ∧ bucket = id
    · obtain ⟨rfl, rfl⟩ := here
      simp only [and_self, if_true, true_and, changed]
      rfl
    · simp only [here, if_false, false_and]

theorem effectiveDecision_congr {left right : PermissionMap} {key : String}
    (same : ∀ scope, scope ∈ siteScopes label ∨ scope = GLOBAL_RULES_SCOPE →
      ∀ bucket, bucket = id ∨ bucket = DEFAULT_BUCKET →
        ruleAt left scope bucket key = ruleAt right scope bucket key) :
    effectiveDecision left label id key = effectiveDecision right label id key := by
  have globalScopes : siteScopes GLOBAL_RULES_SCOPE = [GLOBAL_RULES_SCOPE] := by decide
  have site : ∀ bucket, bucket = id ∨ bucket = DEFAULT_BUCKET →
      originRule left label bucket key = originRule right label bucket key := by
    intro bucket among
    exact originRule_congr fun scope member => same scope (.inl member) bucket among
  have everywhere : ∀ bucket, bucket = id ∨ bucket = DEFAULT_BUCKET →
      originRule left GLOBAL_RULES_SCOPE bucket key =
        originRule right GLOBAL_RULES_SCOPE bucket key := by
    intro bucket among
    rw [originRule, originRule, globalScopes, List.findSome?_singleton, List.findSome?_singleton]
    exact same _ (.inr rfl) bucket among
  simp only [effectiveDecision, lookup_effectiveOriginPermissions, site _ (.inl rfl),
    site _ (.inr rfl), everywhere _ (.inl rfl), everywhere _ (.inr rfl)]

theorem restored_restoreDecisions (canonical : storageLabel origin = origin) :
    Restored original (restoreDecisions original tree origin id) origin id := by
  intro key
  by_cases same : effectiveDecision original origin id key = effectiveDecision tree origin id key
  · rw [same]
    refine effectiveDecision_congr fun scope _ bucket _ => ?_
    rw [ruleAt_restoreDecisions, if_neg fun both => both.2 same]
  · have top : originRule (restoreDecisions original tree origin id) origin id key =
        some (effectiveDecision original origin id key) := by
      have written : ruleAt (restoreDecisions original tree origin id) origin id key =
          some (effectiveDecision original origin id key) := by
        rw [ruleAt_restoreDecisions, if_pos ⟨⟨rfl, rfl⟩, same⟩]
      rcases siteScopes_of_storageLabel canonical with alone | layered
      · rw [originRule, alone, List.findSome?_cons, written]
      · rw [originRule, layered, List.findSome?_cons, written]
    rw [effectiveDecision, lookup_effectiveOriginPermissions, top, Option.some_or, Option.getD_some]

theorem Restored.restore_account (restored : Restored original tree label id)
    (different : other ≠ id) (proper : other ≠ DEFAULT_BUCKET) :
    Restored original (restoreDecisions original tree origin other) label id := by
  intro key
  rw [← restored key]
  refine effectiveDecision_congr fun scope _ bucket among => ?_
  have elsewhere : bucket ≠ other := by
    intro same
    rcases among with own | default
    · exact different (same.symm.trans own)
    · exact proper (same.symm.trans default)
  rw [ruleAt_restoreDecisions, if_neg fun both => elsewhere both.1.2]

theorem Restored.restore_origin (restored : Restored original tree label id)
    (unread : origin ∉ siteScopes label) (notGlobal : origin ≠ GLOBAL_RULES_SCOPE) :
    Restored original (restoreDecisions original tree origin other) label id := by
  intro key
  rw [← restored key]
  refine effectiveDecision_congr fun scope read bucket _ => ?_
  have elsewhere : scope ≠ origin := by
    intro same
    rcases read with member | global
    · exact unread (same ▸ member)
    · exact notGlobal (same.symm.trans global)
  rw [ruleAt_restoreDecisions, if_neg fun both => elsewhere both.1.1]

theorem restored_accounts {ids : List String} (canonical : storageLabel origin = origin)
    (proper : DEFAULT_BUCKET ∉ ids) (known : id ∈ ids) :
    Restored original
      (ids.foldl (fun tree id => restoreDecisions original tree origin id) tree) origin id := by
  induction ids generalizing tree with
  | nil => exact absurd known List.not_mem_nil
  | cons first rest ih =>
    have properRest : DEFAULT_BUCKET ∉ rest :=
      fun member => proper (List.mem_cons_of_mem _ member)
    rw [List.foldl_cons]
    by_cases later : id ∈ rest
    · exact ih properRest later
    · obtain rfl : id = first := (List.mem_cons.mp known).resolve_right later
      have restored : Restored original (restoreDecisions original tree origin id) origin id :=
        restored_restoreDecisions canonical
      exact List.foldlRecOn (motive := fun tree => Restored original tree origin id) rest _
        restored fun tree restored other member => restored.restore_account
          (fun same => later (same ▸ member)) fun same => properRest (same ▸ member)

/-- Whatever the tree starts from, restoring the origins one after the other
restores them all, as long as none is read by one before it. -/
theorem restored_origins {origins ids : List String}
    (apart : origins.Pairwise fun earlier later => later ∉ siteScopes earlier)
    (canonical : ∀ origin ∈ origins, storageLabel origin = origin)
    (sites : GLOBAL_RULES_SCOPE ∉ origins) (proper : DEFAULT_BUCKET ∉ ids)
    (among : label ∈ origins) (known : id ∈ ids) :
    Restored original (origins.foldl (fun tree origin =>
      ids.foldl (fun tree id => restoreDecisions original tree origin id) tree) tree) label id := by
  induction origins generalizing tree with
  | nil => exact absurd among List.not_mem_nil
  | cons first rest ih =>
    obtain ⟨unread, apartRest⟩ := List.pairwise_cons.mp apart
    have sitesRest : GLOBAL_RULES_SCOPE ∉ rest :=
      fun member => sites (List.mem_cons_of_mem _ member)
    rw [List.foldl_cons]
    by_cases later : label ∈ rest
    · exact ih apartRest (fun origin member => canonical origin (List.mem_cons_of_mem _ member))
        sitesRest later
    · obtain rfl : label = first := (List.mem_cons.mp among).resolve_right later
      have restored : Restored original (ids.foldl (fun tree id =>
          restoreDecisions original tree label id) tree) label id :=
        restored_accounts (canonical label List.mem_cons_self) proper known
      refine List.foldlRecOn (motive := fun tree => Restored original tree label id) rest _
        restored fun tree restored origin member => ?_
      exact List.foldlRecOn (motive := fun tree => Restored original tree label id) ids _
        restored fun tree restored other _ => restored.restore_origin (unread origin member)
          fun same => sitesRest (same ▸ member)

end Restoring

/-! ## The order of the patches -/

section Order

variable (collation : Collation) {original : PermissionMap} {context : PermissionMigrationContext}

theorem before_iff (left right : String) :
    collation.before left right = true ↔
      (siteScopes left).length < (siteScopes right).length ∨
        (siteScopes left).length = (siteScopes right).length ∧
          collation.localeCompare left right ≤ 0 := by
  unfold Collation.before
  simp only
  split
  · next different => 
      rw [decide_eq_true_eq]
      omega
  · next same =>
    rw [decide_eq_true_eq]
    omega

theorem before_total (left right : String) :
    (collation.before left right || collation.before right left) = true := by
  rw [Bool.or_eq_true, before_iff, before_iff]
  have := collation.total left right
  omega

theorem before_trans (first second third : String) (left : collation.before first second = true)
    (right : collation.before second third = true) : collation.before first third = true := by
  rw [before_iff] at left right ⊢
  have := collation.trans first second third
  omega

theorem mem_migrationOrigins (label : String) :
    label ∈ migrationOrigins collation original context ↔
      label ∈ original.keys ∧ label ≠ GLOBAL_RULES_SCOPE ∨ label ∈ context.origins := by
  unfold migrationOrigins
  rw [List.mem_mergeSort, List.mem_dedup, List.mem_append, List.mem_filter, decide_eq_true_eq]

theorem migrationOrigins_apart
    (canonical : ∀ label ∈ migrationOrigins collation original context, storageLabel label = label) :
    (migrationOrigins collation original context).Pairwise fun earlier later =>
      later ∉ siteScopes earlier := by
  have sorted : (migrationOrigins collation original context).Pairwise fun left right =>
      collation.before left right = true :=
    List.pairwise_mergeSort (before_trans collation) (before_total collation) _
  have distinct : (migrationOrigins collation original context).Pairwise (· ≠ ·) :=
    (List.mergeSort_perm _ _).nodup_iff.mpr (List.nodup_dedup _)
  refine (sorted.and distinct).imp_of_mem fun {earlier later} before _ ordered member => ?_
  obtain ⟨ordered, different⟩ := ordered
  rw [before_iff] at ordered
  rcases siteScopes_of_storageLabel (canonical earlier before) with alone | layered
  · rw [alone, List.mem_singleton] at member
    exact different member.symm
  · rw [layered] at member ordered
    rcases List.mem_cons.mp member with same | hostname
    · exact different same.symm
    · rw [List.mem_singleton.mp hostname, siteScopes_hostnameOf] at ordered
      simp at ordered

end Order

/-! ## The migration -/

section Alone

variable {queue : LockName → List Nat} {store : KeyValueStore} {state : State permissionSystem}
  {self : Nat} {collation : Collation} {context : PermissionMigrationContext} {ids : List String}

theorem restored_consolidated {label id : String} (settled : store MIGRATION_PENDING_KEY = none)
    (accounts : migrationAccounts (tree store) context = .ok ids)
    (canonical : ∀ label, label ∈ (tree store).keys ∨ label ∈ context.origins →
      storageLabel label = label)
    (sites : GLOBAL_RULES_SCOPE ∉ context.origins)
    (among : label ∈ (tree store).keys ∧ label ≠ GLOBAL_RULES_SCOPE ∨ label ∈ context.origins)
    (known : id ∈ ids) :
    Restored (tree store) (tree (consolidated collation context store).2) label id := by
  unfold consolidated
  rw [settle_of_none settled]
  simp only
  split
  · exact fun _ => rfl
  · rw [accounts]
    have canonical' : ∀ origin ∈ migrationOrigins collation (tree store) context,
        storageLabel origin = origin := by
      intro origin member
      rcases (mem_migrationOrigins collation origin).mp member with ⟨stored, _⟩ | named
      · exact canonical origin (.inl stored)
      · exact canonical origin (.inr named)
    refine restored_origins (migrationOrigins_apart collation canonical') canonical' ?_
      (fun member => (migrationAccounts_valid accounts member).2 rfl) ((mem_migrationOrigins collation label).mpr among) known
    intro member
    rcases (mem_migrationOrigins collation _).mp member with ⟨_, different⟩ | named
    · exact different rfl
    · exact sites named

end Alone

section Example

def inheritedRules (tree : PermissionMap) : KeyValueStore
  | .PERMISSIONS_STORAGE_KEY => some tree
  | .INHERITANCE_KEY => some true
  | _ => none

theorem rests_inheritedRules (tree : PermissionMap) :
    Rests (fun _ => []) (inheritedRules tree) ⟨{}, .opened (inheritedRules tree)⟩ :=
  ⟨rfl, rfl, by simp, by simp⟩

def globalOverride : PermissionMap :=
  AList.singleton GLOBAL_RULES_SCOPE (AList.singleton "account" (AList.singleton "getPublicKey" .allow))

def sharedHostname : PermissionMap :=
  (AList.singleton "a.example" (AList.singleton "account" (AList.singleton "*" .allow))).insert
    "https://a.example" (AList.singleton DEFAULT_BUCKET (AList.singleton "signEvent" .deny))

end Example

end NostrWot.Permissions
