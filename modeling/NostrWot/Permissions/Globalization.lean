import NostrWot.Permissions.Consolidation
import NostrWot.Permissions.Inheritance

namespace NostrWot.Permissions

open NostrWot.Data NostrWot.Async StoreKey KeyValueStore

/-! # What consolidation does to checks

`migrateToGlobalRules` keeps what every key reads as, but not which keys have a rule, and a read
stops at the first key that has one.
-/

def hasDefault (original : PermissionMap) (key : String) : Bool :=
  original.entries.any fun entry => ((entry.2.lookup DEFAULT_BUCKET).bind (·.lookup key)).isSome

/-- The key has a rule for the account at the label once the defaults are global: the account's
own rule there, a default of any label, or a decision that had to be written down. -/
def keepsRule (original : PermissionMap) (label id key : String) : Bool :=
  (siteScopes label).any (fun scope =>
      scope ≠ GLOBAL_RULES_SCOPE && (ruleAt original scope id key).isSome) ||
    hasDefault original key || effectiveDecision original label id key ≠ .ask

/-- A check answers as before if only the keys that `present` holds of still have a rule, and
every key reads as before. -/
def PresenceKeeps (rules : PermissionBucket) (present : String → Bool) (method : String)
    (kind : KindArgument) : Prop :=
  (∃ key ∈ consultedKeys method kind, rules.lookup key = some .deny) ∨
    isKindless method kind = true ∨ (method = "signEvent" ∧ kind = .kind NIP42_KIND) ∨
    (((consultedKeys method kind).find? present).bind rules.lookup).getD .ask =
      (firstSet rules (consultedKeys method kind)).decision

section Buckets

variable {rules kept : PermissionBucket} {present : String → Bool} {method : String}
  {kind : KindArgument}

theorem firstSet_of_present (same : ∀ key, (kept.lookup key).getD .ask = (rules.lookup key).getD .ask)
    (here : ∀ key, (kept.lookup key).isSome = present key) (keys : List String) :
    (firstSet kept keys).decision = ((keys.find? present).bind rules.lookup).getD .ask := by
  have found : keys.find? (fun key => (kept.lookup key).isSome) = keys.find? present :=
    List.find?_congr fun key _ => here key
  unfold firstSet
  rw [found]
  cases first : keys.find? present with
  | none => rfl
  | some key => exact same key

theorem resolve_presence_iff
    (same : ∀ key, (kept.lookup key).getD .ask = (rules.lookup key).getD .ask)
    (here : ∀ key, (kept.lookup key).isSome = present key) :
    resolve kept method kind = resolve rules method kind ↔
      PresenceKeeps rules present method kind := by
  have denies : ∀ key, kept.lookup key = some .deny ↔ rules.lookup key = some .deny := by
    intro key
    have reads := same key
    cases before : rules.lookup key <;> cases after : kept.lookup key <;>
      simp only [before, after, Option.getD_some, Option.getD_none] at reads <;> simp [reads]
    · simp [← reads]
  unfold PresenceKeeps
  by_cases denied : ∃ key ∈ consultedKeys method kind, rules.lookup key = some .deny
  · have before := (resolve_deny_iff rules method kind).mpr denied
    have after : resolve kept method kind = .deny := by
      obtain ⟨key, member, found⟩ := denied
      exact (resolve_deny_iff kept method kind).mpr ⟨key, member, (denies key).mpr found⟩
    simp only [before, after, denied, true_or]
  · have before : ∀ key ∈ consultedKeys method kind, rules.lookup key ≠ some .deny :=
      fun key member found => denied ⟨key, member, found⟩
    have after : ∀ key ∈ consultedKeys method kind, kept.lookup key ≠ some .deny :=
      fun key member found => before key member ((denies key).mp found)
    rw [resolve_of_not_denied before, resolve_of_not_denied after]
    by_cases prompts : isKindless method kind ∨ method = "signEvent" ∧ kind = .kind NIP42_KIND
    · rw [if_pos prompts, if_pos prompts]
      simp only [true_iff]
      exact .inr (prompts.imp_right .inl)
    · rw [if_neg prompts, if_neg prompts, firstSet_of_present same here]
      obtain ⟨kindless, relay⟩ := not_or.mp prompts
      simp only [denied, false_or, kindless, relay, Bool.false_eq_true]

end Buckets

/-! ## The keys of the global defaults -/

section Defaults

variable {original : PermissionMap} {existing globals : PermissionBucket} {key name : String}

/-- Every rule that was global has one still. -/
def Extends (existing globals : PermissionBucket) : Prop :=
  ∀ key, (existing.lookup key).isSome = true → (globals.lookup key).isSome = true

theorem isSome_foldDefault (covers : Extends existing globals) (value : PermissionDecision) :
    ((foldDefault existing globals name value).lookup key).isSome =
      ((globals.lookup key).isSome || decide (key = name)) := by
  unfold foldDefault
  split
  · next held =>
    by_cases same : key = name
    · rw [same, covers name held, Bool.true_or]
    · simp [same]
  · split
    all_goals
      rw [Record.lookup_insert]
      by_cases same : key = name
      · simp [same]
      · simp [same]

theorem isSome_foldDefaults (covers : Extends existing globals)
    (entries : List (Property PermissionDecision)) :
    ((entries.foldl (fun globals rule => foldDefault existing globals rule.1 rule.2)
      globals).lookup key).isSome = ((globals.lookup key).isSome || decide (key ∈ entries.keys)) := by
  induction entries generalizing globals with
  | nil => simp
  | cons entry rest ih =>
    have step := fun key => @isSome_foldDefault existing globals key entry.1 covers entry.2
    have next : Extends existing (foldDefault existing globals entry.1 entry.2) := by
      intro other held
      rw [step, covers other held, Bool.true_or]
    rw [List.foldl_cons, ih next, step]
    simp [Bool.or_assoc, List.keys_cons, Bool.decide_or]

theorem isSome_consolidatedDefaults :
    ((consolidatedDefaults original).lookup key).isSome = hasDefault original key := by
  have named : ∀ rules : PermissionBucket, decide (key ∈ rules.entries.keys) =
      (rules.lookup key).isSome := by
    intro rules
    rw [Bool.eq_iff_iff, decide_eq_true_eq, AList.lookup_isSome]
    rfl
  have folded : ∀ (entries : List (Property OriginPermissions)) (globals : PermissionBucket),
      Extends (bucketAt original GLOBAL_RULES_SCOPE DEFAULT_BUCKET) globals →
      ((entries.foldl (fun globals entry =>
        if entry.1 = GLOBAL_RULES_SCOPE then globals
        else ((entry.2.lookup DEFAULT_BUCKET).getD ∅).entries.foldl (fun globals rule =>
          foldDefault (bucketAt original GLOBAL_RULES_SCOPE DEFAULT_BUCKET) globals rule.1 rule.2)
            globals) globals).lookup key).isSome =
        ((globals.lookup key).isSome || entries.any fun entry =>
          entry.1 ≠ GLOBAL_RULES_SCOPE &&
            ((entry.2.lookup DEFAULT_BUCKET).bind (·.lookup key)).isSome) := by
    intro entries
    induction entries with
    | nil => simp
    | cons entry rest ih =>
      intro globals covers
      rw [List.foldl_cons, List.any_cons]
      by_cases global : entry.1 = GLOBAL_RULES_SCOPE
      · rw [if_pos global, ih globals covers]
        simp [global]
      · have step := fun key => @isSome_foldDefaults _ globals key covers
          ((entry.2.lookup DEFAULT_BUCKET).getD ∅).entries
        rw [if_neg global, ih _ fun other held => by rw [step, covers other held, Bool.true_or],
          step, named]
        cases entry.2.lookup DEFAULT_BUCKET with
        | none => simp
        | some rules => simp [global, Bool.or_assoc]
  unfold consolidatedDefaults
  dsimp only
  rw [folded _ _ fun _ held => held, ← ruleAt, ruleAt_eq]
  unfold hasDefault
  rw [Bool.eq_iff_iff, Bool.or_eq_true, List.any_eq_true, List.any_eq_true]
  constructor
  · rintro (global | ⟨entry, member, held⟩)
    · obtain ⟨decision, rule⟩ := Option.isSome_iff_exists.mp global
      obtain ⟨rules, bucket, _⟩ := Option.bind_eq_some_iff.mp rule
      obtain ⟨buckets, label, _⟩ := Option.bind_eq_some_iff.mp bucket
      refine ⟨⟨GLOBAL_RULES_SCOPE, buckets⟩, Record.mem_entries_iff.mpr label, ?_⟩
      simpa [label] using global
    · exact ⟨entry, member, (Bool.and_eq_true_iff.mp held).2⟩
  · rintro ⟨entry, member, held⟩
    by_cases global : entry.1 = GLOBAL_RULES_SCOPE
    · left
      have label : original.lookup GLOBAL_RULES_SCOPE = some entry.2 :=
        global ▸ Record.mem_entries_iff.mp member
      rw [label]
      exact held
    · exact .inr ⟨entry, member, Bool.and_eq_true_iff.mpr ⟨decide_eq_true global, held⟩⟩

theorem ruleAt_default_isSome {scope : String}
    (held : (ruleAt original scope DEFAULT_BUCKET key).isSome = true) :
    hasDefault original key = true := by
  rw [ruleAt_eq] at held
  obtain ⟨decision, rule⟩ := Option.isSome_iff_exists.mp held
  obtain ⟨rules, bucket, _⟩ := Option.bind_eq_some_iff.mp rule
  obtain ⟨buckets, label, _⟩ := Option.bind_eq_some_iff.mp bucket
  refine List.any_eq_true.mpr ⟨⟨scope, buckets⟩, Record.mem_entries_iff.mpr label, ?_⟩
  simpa [label] using held

end Defaults

/-! ## The rules that are left -/

section Rules

variable {original tree : PermissionMap} {label id key : String}

def Unset (tree : PermissionMap) (label id key : String) : Prop :=
  ∀ scope, scope ∈ siteScopes label ∨ scope = GLOBAL_RULES_SCOPE →
    ∀ bucket, bucket = id ∨ bucket = DEFAULT_BUCKET → ruleAt tree scope bucket key = none

theorem lookup_singleton (bucket other : String) (rules : PermissionBucket) :
    (AList.singleton bucket rules : OriginPermissions).lookup other =
      if other = bucket then some rules else none := by
  show List.dlookup other [(⟨bucket, rules⟩ : Property PermissionBucket)] = _
  by_cases same : other = bucket
  · subst same
    rw [if_pos rfl, List.dlookup_cons_eq]
  · rw [if_neg same, List.dlookup_cons_ne _ _ same, List.dlookup_nil]

theorem ruleAt_consolidatedTree (scope bucket : String) :
    ruleAt (consolidatedTree original) scope bucket key =
      if scope = GLOBAL_RULES_SCOPE then
        if bucket = DEFAULT_BUCKET then (consolidatedDefaults original).lookup key else none
      else if bucket = DEFAULT_BUCKET then none else ruleAt original scope bucket key := by
  rw [ruleAt_eq, ruleAt_eq, consolidatedTree, Record.lookup_insert]
  by_cases global : scope = GLOBAL_RULES_SCOPE
  · rw [if_pos global, if_pos global, Option.bind_some, lookup_singleton]
    by_cases shared : bucket = DEFAULT_BUCKET
    · rw [if_pos shared, if_pos shared, Option.bind_some]
    · rw [if_neg shared, if_neg shared, Option.bind_none]
  · rw [if_neg global, if_neg global, Record.lookup_map]
    by_cases shared : bucket = DEFAULT_BUCKET
    · subst shared
      cases original.lookup scope <;> simp [global]
    · cases original.lookup scope <;> simp [global, shared]

theorem isSome_restoreDecisions {origin other scope bucket : String}
    (held : (ruleAt tree scope bucket key).isSome = true) :
    (ruleAt (restoreDecisions original tree origin other) scope bucket key).isSome = true := by
  rw [ruleAt_restoreDecisions]
  split
  · rfl
  · exact held

theorem globalScopes : siteScopes GLOBAL_RULES_SCOPE = [GLOBAL_RULES_SCOPE] := by decide

theorem lookup_of_unset (unset : Unset tree label id key) :
    (effectiveOriginPermissions tree label id).lookup key = none := by
  have site : ∀ bucket, bucket = id ∨ bucket = DEFAULT_BUCKET →
      originRule tree label bucket key = none := fun bucket among =>
    List.findSome?_eq_none_iff.mpr fun scope member => unset scope (.inl member) bucket among
  have everywhere : ∀ bucket, bucket = id ∨ bucket = DEFAULT_BUCKET →
      originRule tree GLOBAL_RULES_SCOPE bucket key = none := by
    intro bucket among
    rw [originRule, globalScopes, List.findSome?_singleton]
    exact unset _ (.inr rfl) bucket among
  rw [lookup_effectiveOriginPermissions, site _ (.inl rfl), site _ (.inr rfl),
    everywhere _ (.inl rfl), everywhere _ (.inr rfl)]
  rfl

theorem effectiveDecision_unset (unset : Unset tree label id key) :
    effectiveDecision tree label id key = .ask := by
  rw [effectiveDecision, lookup_of_unset unset]
  rfl

theorem isSome_originRule {scope bucket : String} (member : scope ∈ siteScopes label)
    (held : (ruleAt tree scope bucket key).isSome = true) :
    (originRule tree label bucket key).isSome = true := by
  rw [originRule, List.isSome_findSome?]
  exact List.any_eq_true.mpr ⟨scope, member, held⟩

theorem Unset.restore {origin other : String} (unset : Unset tree label id key)
    (sites : origin ≠ GLOBAL_RULES_SCOPE) (proper : other ≠ DEFAULT_BUCKET)
    (asks : origin ∈ siteScopes label → effectiveDecision original origin id key = .ask)
    (below : origin ∈ siteScopes label → siteScopes origin ⊆ siteScopes label) :
    Unset (restoreDecisions original tree origin other) label id key := by
  intro scope read bucket among
  rw [ruleAt_restoreDecisions, if_neg]
  · exact unset scope read bucket among
  rintro ⟨⟨here, own⟩, different⟩
  have account : other = id := by
    rcases among with same | shared
    · exact own.symm.trans same
    · exact absurd (own.symm.trans shared) proper
  have member : origin ∈ siteScopes label := by
    rcases read with member | global
    · exact here ▸ member
    · exact absurd (here.symm.trans global) sites
  have quiet : Unset tree origin id key := by
    intro scope read
    exact unset scope (read.imp_left fun inside => below member inside)
  rw [account, asks member, effectiveDecision_unset quiet] at different
  exact different rfl

theorem keepsRule_false (none : keepsRule original label id key = false) :
    (∀ scope ∈ siteScopes label, scope ≠ GLOBAL_RULES_SCOPE →
        ruleAt original scope id key = Option.none) ∧
      hasDefault original key = false ∧ effectiveDecision original label id key = .ask := by
  unfold keepsRule at none
  simp only [Bool.or_eq_false_iff, List.any_eq_false, decide_eq_false_iff_not, not_not,
    Bool.and_eq_true, decide_eq_true_eq, not_and, Bool.not_eq_true, Option.isSome_eq_false_iff,
    Option.isNone_iff_eq_none] at none
  exact ⟨none.1.1, none.1.2, none.2⟩

theorem default_of_hasDefault (none : hasDefault original key = false) (scope : String) :
    ruleAt original scope DEFAULT_BUCKET key = Option.none := by
  by_contra held
  have named := ruleAt_default_isSome (Option.isSome_iff_ne_none.mpr held)
  rw [none] at named
  contradiction

/-- Without a rule of its own and without defaults, a label answers from the account's rules of the
global label. -/
theorem effectiveDecision_global (none : hasDefault original key = false)
    (own : ∀ scope ∈ siteScopes label, scope ≠ GLOBAL_RULES_SCOPE →
      ruleAt original scope id key = Option.none) :
    effectiveDecision original label id key =
      (ruleAt original GLOBAL_RULES_SCOPE id key).getD .ask := by
  have defaults : ∀ origin, originRule original origin DEFAULT_BUCKET key = Option.none := fun origin =>
    List.findSome?_eq_none_iff.mpr fun scope _ => default_of_hasDefault none scope
  have account : originRule original GLOBAL_RULES_SCOPE id key =
      ruleAt original GLOBAL_RULES_SCOPE id key := by
    rw [originRule, globalScopes, List.findSome?_singleton]
  have site : originRule original label id key = Option.none ∨
      originRule original label id key = ruleAt original GLOBAL_RULES_SCOPE id key := by
    cases found : originRule original label id key with
    | none => exact .inl rfl
    | some decision =>
      obtain ⟨scope, member, rule⟩ := List.exists_of_findSome?_eq_some found
      by_cases global : scope = GLOBAL_RULES_SCOPE
      · exact .inr (global ▸ rule.symm)
      · rw [own scope member global] at rule
        contradiction
  rw [effectiveDecision, lookup_effectiveOriginPermissions, defaults, defaults, account, Option.none_or,
    Option.or_none]
  rcases site with unset | same
  · rw [unset, Option.none_or]
  · rw [same, Option.or_self]

theorem siteScopes_within {origin : String} (canonical : storageLabel label = label)
    (member : origin ∈ siteScopes label) : siteScopes origin ⊆ siteScopes label := by
  rcases siteScopes_of_storageLabel canonical with alone | layered
  · rw [alone] at member
    rw [List.mem_singleton.mp member]
    exact List.Subset.refl _
  · have listed := member
    rw [layered] at listed
    rcases List.mem_cons.mp listed with same | hostname
    · rw [same]
      exact List.Subset.refl _
    · rw [List.mem_singleton.mp hostname, siteScopes_hostnameOf]
      exact List.cons_subset.mpr ⟨List.mem_singleton.mp hostname ▸ member, List.nil_subset _⟩

variable {origins ids : List String}

def restoreAll (original : PermissionMap) (ids origins : List String) (tree : PermissionMap) :
    PermissionMap :=
  origins.foldl (fun tree origin =>
    ids.foldl (fun tree id => restoreDecisions original tree origin id) tree) tree

theorem isSome_restoreAll {scope bucket : String}
    (held : (ruleAt tree scope bucket key).isSome = true) :
    (ruleAt (restoreAll original ids origins tree) scope bucket key).isSome = true :=
  List.foldlRecOn (motive := fun tree => (ruleAt tree scope bucket key).isSome = true) origins _ held
    fun _ held _ _ =>
      List.foldlRecOn (motive := fun tree => (ruleAt tree scope bucket key).isSome = true) ids _ held
        fun _ held _ _ => isSome_restoreDecisions held

theorem unset_restored (unset : Unset tree label id key) (sites : GLOBAL_RULES_SCOPE ∉ origins)
    (proper : DEFAULT_BUCKET ∉ ids) (canonical : storageLabel label = label)
    (none : keepsRule original label id key = false) :
    Unset (restoreAll original ids origins tree) label id key := by
  obtain ⟨own, defaults, asks⟩ := keepsRule_false none
  have below : ∀ origin ∈ siteScopes label, effectiveDecision original origin id key = .ask := by
    intro origin member
    have inside := siteScopes_within canonical member
    rw [effectiveDecision_global defaults fun scope read => own scope (inside read),
      ← effectiveDecision_global defaults own]
    exact asks
  refine List.foldlRecOn (motive := fun tree => Unset tree label id key) origins _ unset
    fun _ unset origin member => ?_
  refine List.foldlRecOn (motive := fun tree => Unset tree label id key) ids _ unset
    fun _ unset other listed => ?_
  exact unset.restore (fun same => sites (same ▸ member)) (fun same => proper (same ▸ listed))
    (below origin) (siteScopes_within canonical)

theorem isSome_restored (sites : GLOBAL_RULES_SCOPE ∉ origins) (proper : DEFAULT_BUCKET ∉ ids)
    (canonical : storageLabel label = label) (known : id ∈ ids)
    (restored : Restored original (restoreAll original ids origins (consolidatedTree original))
      label id) :
    ((effectiveOriginPermissions (restoreAll original ids origins (consolidatedTree original))
      label id).lookup key).isSome = keepsRule original label id key := by
  have account : id ≠ DEFAULT_BUCKET := fun same => proper (same ▸ known)
  cases keeps : keepsRule original label id key with
  | false =>
    obtain ⟨own, defaults, _⟩ := keepsRule_false keeps
    have start : Unset (consolidatedTree original) label id key := by
      intro scope read bucket among
      rw [ruleAt_consolidatedTree]
      by_cases global : scope = GLOBAL_RULES_SCOPE
      · rw [if_pos global]
        split
        · have absent := @isSome_consolidatedDefaults original key
          rw [defaults] at absent
          exact Option.isNone_iff_eq_none.mp (Option.isSome_eq_false_iff.mp absent)
        · rfl
      · rw [if_neg global]
        split
        · rfl
        · next other =>
          rw [among.resolve_right other]
          exact own scope (read.resolve_right global) global
    have unset := unset_restored start sites proper canonical keeps
    rw [lookup_of_unset unset]
    rfl
  | true =>
    unfold keepsRule at keeps
    rw [Bool.or_eq_true, Bool.or_eq_true, List.any_eq_true, decide_eq_true_eq] at keeps
    rcases keeps with (⟨scope, member, own⟩ | named) | decided
    · rw [Bool.and_eq_true, decide_eq_true_eq] at own
      have start : (ruleAt (consolidatedTree original) scope id key).isSome = true := by
        rw [ruleAt_consolidatedTree, if_neg own.1, if_neg account]
        exact own.2
      have site := isSome_originRule member (@isSome_restoreAll original _ key origins ids _ _ start)
      rw [lookup_effectiveOriginPermissions, Option.isSome_or, site, Bool.true_or]
    · have start : (ruleAt (consolidatedTree original) GLOBAL_RULES_SCOPE DEFAULT_BUCKET
          key).isSome = true := by
        rw [ruleAt_consolidatedTree, if_pos rfl, if_pos rfl, isSome_consolidatedDefaults]
        exact named
      have member : GLOBAL_RULES_SCOPE ∈ siteScopes GLOBAL_RULES_SCOPE := by
        rw [globalScopes]
        exact List.mem_singleton_self _
      have shared := isSome_originRule member (@isSome_restoreAll original _ key origins ids _ _ start)
      rw [lookup_effectiveOriginPermissions, Option.isSome_or, Option.isSome_or, Option.isSome_or,
        shared, Bool.or_true, Bool.or_true, Bool.or_true]
    · have after := restored key
      by_contra absent
      rw [effectiveDecision, Option.not_isSome_iff_eq_none.mp absent] at after
      exact decided after.symm

end Rules

/-! ## Checks around the consolidation -/

section Alone

variable {queue : LockName → List Nat} {store : KeyValueStore} {state : State permissionSystem}
  {self : Nat} {collation : Collation} {context : PermissionMigrationContext} {ids : List String}

def AcrossGlobalRules (collation : Collation) (self : Nat) (context : PermissionMigrationContext)
    (origin method : String) (kind : KindArgument) (accountId : String)
    (state : State permissionSystem) (before after : PermissionDecision) : Prop :=
  ∃ checked migrated last,
    (check origin method kind accountId).run Reaction.perform state = some (.ok before, checked) ∧
    (migrateToGlobalRules collation self context).run Reaction.perform checked =
      some (.ok (), migrated) ∧
    (check origin method kind accountId).run Reaction.perform migrated = some (.ok after, last)

theorem globalized_of_accounts (settled : store MIGRATION_PENDING_KEY = none)
    (inherits : store INHERITANCE_KEY = some true)
    (accounts : migrationAccounts (tree store) context = .ok ids) :
    globalized collation context store = (.ok (),
      if store GLOBAL_RULES_VERSION_KEY = some (1 : Nat) then store
      else replay ⟨globalRulesTree collation (tree store) context ids, true⟩ store) := by
  rw [globalized, inherited_of_inherits context settled inherits]
  simp only [consolidated, settle_of_none settled]
  split
  · rfl
  · rw [accounts]

theorem acrossGlobalRules (self : Nat) (origin method : String) (kind : KindArgument)
    (accountId : String) (rests : Rests queue store state) (free : queue .rules = [])
    (settled : store MIGRATION_PENDING_KEY = none) (inherits : store INHERITANCE_KEY = some true)
    (accounts : migrationAccounts (tree store) context = .ok ids) :
    AcrossGlobalRules collation self context origin method kind accountId state
      (decisionAt store origin method kind accountId)
      (decisionAt (globalized collation context store).2 origin method kind accountId) := by
  have ends := @globalized_of_accounts store collation context ids settled inherits accounts
  obtain ⟨checked, first, rests⟩ := check_runs origin method kind accountId rests settled
  obtain ⟨migrated, second, rests⟩ := migrateToGlobalRules_runs collation self context rests free
  rw [ends] at second
  have pending : (globalized collation context store).2 MIGRATION_PENDING_KEY = none := by
    rw [ends]
    dsimp only
    split
    · exact settled
    · rfl
  obtain ⟨last, third, -⟩ := check_runs origin method kind accountId rests pending
  exact ⟨checked, migrated, last, first, second, third⟩

end Alone

section Example

/-- A site with an account's own wildcard, and a question of the account's for one key on the
global label. -/
def askedEverywhere (key : String) : KeyValueStore :=
  inheritedRules ((AList.singleton "https://a.example"
    (AList.singleton "account" (AList.singleton "*" PermissionDecision.allow))).insert
      GLOBAL_RULES_SCOPE (AList.singleton "account" (AList.singleton key .ask)))

theorem askedEverywhere_canonical (key label : String)
    (among : label ∈ (tree (askedEverywhere key)).keys ∨ label ∈ ([] : List String)) :
    storageLabel label = label := by
  have canonical : storageLabel "https://a.example" = "https://a.example" ∧
      storageLabel GLOBAL_RULES_SCOPE = GLOBAL_RULES_SCOPE := by decide
  have apart : ["https://a.example"].erase GLOBAL_RULES_SCOPE = ["https://a.example"] := by decide
  have either : label = GLOBAL_RULES_SCOPE ∨ label = "https://a.example" := by
    simpa [tree, askedEverywhere, inheritedRules, apart] using among
  rcases either with same | same
  · rw [same, canonical.2]
  · rw [same, canonical.1]

end Example

end NostrWot.Permissions
