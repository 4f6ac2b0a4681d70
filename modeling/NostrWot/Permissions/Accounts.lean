import NostrWot.Permissions.Canonical
import NostrWot.Permissions.Inheritance

namespace NostrWot.Permissions

open NostrWot.Data NostrWot.Async StoreKey KeyValueStore

/-! # Setting up an account

What `setupNewAccountPermissions` makes of a tree, rule by rule.  In the two
legacy modes it copies buckets, in the two inheriting modes it writes one bucket
per site for the new account.
-/

section Tree

variable {tree : PermissionMap} {consolidated : Bool}

/-- A scope without rules in a bucket; what is stored there may be `{}`. -/
def bare (tree : PermissionMap) (scope bucket : String) : Bool :=
  Record.isEmpty (bucketAt tree scope bucket)

theorem ruleAt_of_bare {scope bucket : String} (empty : bare tree scope bucket = true)
    (key : String) : ruleAt tree scope bucket key = none :=
  Record.lookup_of_isEmpty empty key

theorem bare_iff (tree : PermissionMap) (scope bucket : String) :
    bare tree scope bucket = true ↔ ∀ key, ruleAt tree scope bucket key = none := by
  refine ⟨ruleAt_of_bare, fun unset => ?_⟩
  unfold bare Record.isEmpty
  cases entries : (bucketAt tree scope bucket).entries with
  | nil => rfl
  | cons entry rest =>
    have stored : (bucketAt tree scope bucket).lookup entry.1 = some entry.2 := by
      rw [← Record.mem_entries_iff, entries]
      exact List.mem_cons_self
    have absent := unset entry.1
    rw [ruleAt, stored] at absent
    contradiction

theorem bare_congr {left right : PermissionMap} {scope bucket : String}
    (same : ∀ key, ruleAt left scope bucket key = ruleAt right scope bucket key) :
    bare left scope bucket = bare right scope bucket := by
  rw [Bool.eq_iff_iff, bare_iff, bare_iff]
  constructor
  · intro unset key
    rw [← same, unset]
  · intro unset key
    rw [same, unset]

/-! ## Copies -/

theorem copySource_lookup {source scope : String} {buckets : OriginPermissions}
    (stored : tree.lookup scope = some buckets)
    (outside : ¬ (consolidated = true ∧ scope = GLOBAL_RULES_SCOPE)) :
    (copySource consolidated source scope buckets).isSome = !bare tree scope source ∧
      ∀ rules ∈ copySource consolidated source scope buckets,
        rules = bucketAt tree scope source := by
  have found : (tree.lookup scope).bind (·.lookup source) = buckets.lookup source := by
    rw [stored, Option.bind_some]
  unfold copySource bare bucketAt
  rw [found, if_neg (by simpa using outside)]
  cases buckets.lookup source with
  | none => simp [Record.isEmpty]
  | some rules =>
    cases empty : Record.isEmpty rules <;> simp [Option.filter, empty]

theorem ruleAt_copyBucket (consolidated : Bool) (tree : PermissionMap)
    (source target scope bucket key : String) :
    ruleAt (copyBucket consolidated tree source target) scope bucket key =
      if bucket = target ∧ ¬ (consolidated = true ∧ scope = GLOBAL_RULES_SCOPE) ∧
          bare tree scope source = false
      then ruleAt tree scope source key else ruleAt tree scope bucket key := by
  by_cases outside : consolidated = true ∧ scope = GLOBAL_RULES_SCOPE
  · rw [if_neg (fun copies => copies.2.1 outside), ruleAt_eq, ruleAt_eq, copyBucket,
      Record.lookup_map]
    have none : ∀ buckets, copySource consolidated source scope buckets = none := by
      intro buckets
      simp [copySource, outside]
    cases tree.lookup scope with
    | none => rfl
    | some buckets => simp only [Option.map_some, none]
  · cases stored : tree.lookup scope with
    | none =>
      have unset : ∀ bucket, ruleAt tree scope bucket key = none :=
        fun bucket => ruleAt_of_absent stored bucket key
      rw [ruleAt_eq, copyBucket, Record.lookup_map, stored, unset, unset, ite_self]
      rfl
    | some buckets =>
      have found : (copySource consolidated source scope buckets).isSome = !bare tree scope source ∧
          ∀ rules ∈ copySource consolidated source scope buckets,
            rules = bucketAt tree scope source := copySource_lookup stored outside
      obtain ⟨copies, same⟩ := found
      rw [ruleAt_eq, copyBucket, Record.lookup_map, stored, Option.map_some, Option.bind_some]
      cases empty : bare tree scope source with
      | true =>
        rw [empty, Bool.not_true, Option.isSome_eq_false_iff, Option.isNone_iff_eq_none] at copies
        rw [copies, if_neg (by simp), ruleAt_eq, stored, Option.bind_some]
      | false =>
        rw [empty, Bool.not_false] at copies
        obtain ⟨rules, found⟩ := Option.isSome_iff_exists.mp copies
        rw [found]
        simp only [Record.lookup_insert]
        by_cases own : bucket = target
        · rw [if_pos own, if_pos ⟨own, outside, trivial⟩, Option.bind_some, same rules found, ruleAt]
        · rw [if_neg own, if_neg (fun copies => own copies.1), ruleAt_eq, stored,
            Option.bind_some]

theorem ruleAt_deleteAccount (tree : PermissionMap) (accountId scope bucket key : String) :
    ruleAt (deleteAccount tree accountId) scope bucket key =
      if bucket = accountId then none else ruleAt tree scope bucket key := by
  rw [ruleAt_eq, ruleAt_eq, deleteAccount, Record.lookup_filterMap]
  cases tree.lookup scope with
  | none => simp
  | some buckets =>
    rw [Option.bind_some, Option.bind_some]
    by_cases held : (buckets.lookup accountId).isSome
    · rw [if_pos held]
      have erased : ((buckets.erase accountId).lookup bucket).bind (·.lookup key) =
          if bucket = accountId then none else (buckets.lookup bucket).bind (·.lookup key) := by
        rw [Record.lookup_erase]
        split <;> rfl
      by_cases empty : Record.isEmpty (buckets.erase accountId)
      · rw [if_pos empty, ← erased, Record.lookup_of_isEmpty empty]
        rfl
      · rw [if_neg empty, ← erased]
        rfl
    · rw [if_neg held, Option.bind_some]
      rw [Option.not_isSome_iff_eq_none] at held
      split
      · next own => rw [own, held, Option.bind_none]
      · rfl

theorem filterMap_of_kept {α : Type} {change : String → α → Option α} {record : Record α}
    (kept : ∀ entry ∈ record.entries, change entry.1 entry.2 = some entry.2) :
    Record.filterMap change record = record := by
  refine AList.ext ?_
  change record.entries.filterMap _ = record.entries
  refine (List.filterMap_congr fun entry member => ?_).trans (List.filterMap_some)
  rw [kept entry member]
  rfl

theorem copyBucket_of_not_holds {source : String}
    (none : holdsCopySource consolidated tree source = false) (target : String) :
    copyBucket consolidated tree source target = tree := by
  unfold copyBucket Record.map
  refine filterMap_of_kept fun entry member => ?_
  have absent := List.any_eq_false.mp none entry member
  rw [Option.not_isSome_iff_eq_none] at absent
  simp only [absent]

theorem deleteAccount_of_not_holds {accountId : String}
    (none : holdsAccount tree accountId = false) : deleteAccount tree accountId = tree := by
  unfold deleteAccount
  refine filterMap_of_kept fun entry member => ?_
  rw [if_neg (List.any_eq_false.mp none entry member)]

def copyDefaultsTree (newAccountId : String) (existingAccountIds : List String)
    (tree : PermissionMap) : PermissionMap :=
  existingAccountIds.foldl (fun tree id =>
    if id ≠ "" ∧ id ≠ newAccountId then copyBucket false tree DEFAULT_BUCKET id else tree) tree

/-- Every existing account has the shared rules in its own bucket, wherever there
are shared rules. -/
theorem ruleAt_copyDefaultsTree (newAccountId : String) (existingAccountIds : List String)
    (tree : PermissionMap) (scope bucket key : String) :
    ruleAt (copyDefaultsTree newAccountId existingAccountIds tree) scope bucket key =
      if bucket ∈ existingAccountIds ∧ (bucket ≠ "" ∧ bucket ≠ newAccountId) ∧
          bare tree scope DEFAULT_BUCKET = false
      then ruleAt tree scope DEFAULT_BUCKET key else ruleAt tree scope bucket key := by
  unfold copyDefaultsTree
  induction existingAccountIds generalizing tree with
  | nil => simp
  | cons id rest ih =>
    rw [List.foldl_cons, ih]
    by_cases copied : id ≠ "" ∧ id ≠ newAccountId
    · have once := ruleAt_copyBucket false tree DEFAULT_BUCKET id scope
      have shared : ∀ key, ruleAt (copyBucket false tree DEFAULT_BUCKET id) scope DEFAULT_BUCKET key =
          ruleAt tree scope DEFAULT_BUCKET key := by
        intro key
        rw [once]
        split <;> rfl
      rw [if_pos copied, bare_congr shared, shared, once]
      by_cases same : bucket = id
      · subst same
        simp only [copied, ne_eq, not_false_eq_true, and_self, true_and, List.mem_cons, true_or,
          Bool.false_eq_true, false_and]
        split <;> split <;> simp_all
      · simp [same]
    · rw [if_neg copied]
      by_cases same : bucket = id
      · subst same
        simp [copied]
      · simp [same]

/-! ## Buckets under inherited rules -/

def givenRule (consolidated : Bool) (source : Option String) (tree : PermissionMap)
    (scope key : String) : Option PermissionDecision :=
  if consolidated then source.bind fun id => ruleAt tree scope id key
  else
    match source with
    | some id => (originRule tree scope id key).or (originRule tree scope DEFAULT_BUCKET key)
    | none => askFor (originRule tree scope DEFAULT_BUCKET key)

/-- Trees that differ in one account's rules only. -/
def AgreeBut (newAccountId : String) (left right : PermissionMap) : Prop :=
  ∀ scope bucket key, bucket ≠ newAccountId →
    ruleAt left scope bucket key = ruleAt right scope bucket key

variable {newAccountId : String}

theorem AgreeBut.originRule {left right : PermissionMap} (agree : AgreeBut newAccountId left right)
    {bucket : String} (other : bucket ≠ newAccountId) (origin key : String) :
    originRule left origin bucket key = originRule right origin bucket key :=
  originRule_congr fun scope _ => agree scope bucket key other

variable {source : Option String}

theorem AgreeBut.givenRule {left right : PermissionMap} (agree : AgreeBut newAccountId left right)
    (other : source ≠ some newAccountId)
    (reserved : consolidated = false → newAccountId ≠ DEFAULT_BUCKET) (scope key : String) :
    givenRule consolidated source left scope key = givenRule consolidated source right scope key := by
  unfold NostrWot.Permissions.givenRule
  cases consolidated with
  | true =>
    cases source with
    | none => rfl
    | some id =>
      have different : id ≠ newAccountId := fun same => other (congrArg some same)
      simp only [if_true, Option.bind_some, agree scope id key different]
  | false =>
    have shared := agree.originRule (Ne.symm (reserved rfl)) scope key
    cases source with
    | none => simp only [Bool.false_eq_true, if_false, shared]
    | some id =>
      have different : id ≠ newAccountId := fun same => other (congrArg some same)
      simp only [Bool.false_eq_true, if_false, shared, agree.originRule different scope key]

theorem ruleAt_alterOrigin (tree : PermissionMap) (origin : String)
    (change : OriginPermissions → OriginPermissions) (scope bucket key : String) :
    ruleAt (Record.alter tree origin change) scope bucket key =
      if scope = origin then
        ((change ((tree.lookup origin).getD ∅)).lookup bucket).bind (·.lookup key)
      else ruleAt tree scope bucket key := by
  rw [ruleAt_eq, ruleAt_eq, Record.lookup_alter]
  split <;> rfl

theorem ruleAt_getD (tree : PermissionMap) (scope bucket key : String) :
    (((tree.lookup scope).getD ∅).lookup bucket).bind (·.lookup key) =
      ruleAt tree scope bucket key := by
  rw [ruleAt_eq]
  cases tree.lookup scope with
  | none => rw [Option.getD_none, AList.lookup_empty]; rfl
  | some buckets => rfl

theorem ruleAt_setupOrigin (other : source ≠ some newAccountId)
    (reserved : newAccountId ≠ DEFAULT_BUCKET) (tree : PermissionMap)
    (origin scope bucket key : String) :
    ruleAt (setupOrigin consolidated newAccountId source tree origin) scope bucket key =
      if bucket = newAccountId ∧ scope = origin ∧
          ¬ (consolidated = true ∧ origin = GLOBAL_RULES_SCOPE)
      then givenRule consolidated source tree origin key else ruleAt tree scope bucket key := by
  by_cases outside : consolidated = true ∧ origin = GLOBAL_RULES_SCOPE
  · rw [if_neg (fun given => given.2.2 outside), setupOrigin, if_pos (by simpa using outside)]
  · let cleared := Record.alter tree origin fun buckets => buckets.erase newAccountId
    have erased : ∀ scope bucket key, ruleAt cleared scope bucket key =
        if bucket = newAccountId ∧ scope = origin then none else ruleAt tree scope bucket key := by
      intro scope bucket key
      rw [ruleAt_alterOrigin]
      by_cases here : scope = origin
      · subst here
        rw [if_pos rfl, Record.lookup_erase]
        by_cases own : bucket = newAccountId
        · simp [own]
        · simp only [own, if_false, false_and, ruleAt_getD]
      · rw [if_neg here, if_neg (fun given => here given.2)]
    have agree : AgreeBut newAccountId cleared tree := by
      intro scope bucket key different
      rw [erased, if_neg (fun given => different given.1)]
    have written : ∀ rules : PermissionBucket,
        ruleAt (Record.alter cleared origin fun buckets => buckets.insert newAccountId rules)
          scope bucket key =
        if bucket = newAccountId ∧ scope = origin then rules.lookup key
        else ruleAt tree scope bucket key := by
      intro rules
      rw [ruleAt_alterOrigin]
      by_cases here : scope = origin
      · subst here
        rw [if_pos rfl, Record.lookup_insert]
        by_cases own : bucket = newAccountId
        · simp [own]
        · simp only [own, if_false, false_and, ruleAt_getD, agree scope bucket key own]
      · rw [if_neg here, if_neg (fun given => here given.2), erased,
          if_neg (fun given => here given.2)]
    have condition : (bucket = newAccountId ∧ scope = origin ∧
        ¬ (consolidated = true ∧ origin = GLOBAL_RULES_SCOPE)) =
        (bucket = newAccountId ∧ scope = origin) := by
      simp only [outside, not_false_eq_true, and_true]
    rw [if_congr (iff_of_eq condition) rfl rfl, setupOrigin, if_neg (by simpa using outside)]
    rw [← agree.givenRule other (fun _ => reserved)]
    unfold givenRule
    cases consolidated with
    | true =>
      simp only [if_true]
      have given : (source.bind fun id => ruleAt cleared origin id key) =
          (source.bind fun id => (cleared.lookup origin).bind (·.lookup id)).bind
            (·.lookup key) := by
        cases source with
        | none => rfl
        | some id => exact ruleAt_eq cleared origin id key
      rw [given]
      cases source.bind fun id => (cleared.lookup origin).bind (·.lookup id) with
      | none => exact erased scope bucket key
      | some rules => exact written rules
    | false =>
      simp only [Bool.false_eq_true, if_false]
      rw [written]
      cases source with
      | none => simp only [askEvery, Record.lookup_map, lookup_originPermissionBucket, askFor, cleared]
      | some id => simp only [Record.lookup_spread, lookup_originPermissionBucket, cleared]

/-- The new account is given its rule at every stored scope, and nobody else's
rules change. -/
theorem ruleAt_setupInherited (other : source ≠ some newAccountId)
    (reserved : newAccountId ≠ DEFAULT_BUCKET) (tree : PermissionMap) (scope bucket key : String) :
    ruleAt (setupInherited consolidated tree newAccountId source) scope bucket key =
      if bucket = newAccountId ∧ scope ∈ tree.keys ∧
          ¬ (consolidated = true ∧ scope = GLOBAL_RULES_SCOPE)
      then givenRule consolidated source tree scope key else ruleAt tree scope bucket key := by
  unfold setupInherited
  have folded : ∀ (origins : List String) (current : PermissionMap),
      AgreeBut newAccountId current tree →
      ruleAt (origins.foldl (setupOrigin consolidated newAccountId source) current) scope bucket key =
        if bucket = newAccountId ∧ scope ∈ origins ∧
            ¬ (consolidated = true ∧ scope = GLOBAL_RULES_SCOPE)
        then givenRule consolidated source tree scope key else ruleAt current scope bucket key := by
    intro origins
    induction origins with
    | nil => simp
    | cons origin rest ih =>
      intro current agree
      have step : ∀ scope bucket key,
          ruleAt (setupOrigin consolidated newAccountId source current origin) scope bucket key = _ :=
        ruleAt_setupOrigin other reserved current origin
      have next : AgreeBut newAccountId
          (setupOrigin consolidated newAccountId source current origin) tree := by
        intro scope bucket key different
        rw [step, if_neg (fun given => different given.1), agree scope bucket key different]
      rw [List.foldl_cons, ih _ next, step, agree.givenRule other fun _ => reserved]
      by_cases here : scope = origin
      · subst here
        by_cases own : bucket = newAccountId ∧ ¬ (consolidated = true ∧ scope = GLOBAL_RULES_SCOPE)
        · simp only [own, not_false_eq_true, List.mem_cons, true_or, and_self, if_true, ite_self]
        · rw [if_neg (fun given => own ⟨given.1, given.2.2⟩),
            if_neg (fun given => own ⟨given.1, given.2.2⟩),
            if_neg (fun given => own ⟨given.1, given.2.2⟩)]
      · simp only [here, false_and, and_false, if_false, List.mem_cons, false_or]
  exact folded tree.keys tree fun _ _ _ _ => rfl

theorem originRule_cases (tree : PermissionMap) (origin : String) :
    (∀ bucket key, originRule tree origin bucket key = ruleAt tree (storageLabel origin) bucket key) ∧
        siteScopes origin = [storageLabel origin] ∨
      (∀ bucket key, originRule tree origin bucket key =
        (ruleAt tree (storageLabel origin) bucket key).or
          (ruleAt tree (hostnameOf (storageLabel origin)) bucket key)) ∧
        siteScopes origin = [storageLabel origin, hostnameOf (storageLabel origin)] := by
  rcases siteScopes_of_storageLabel (storageLabel_fixed origin) with alone | layered
  · rw [siteScopes_storageLabel] at alone
    refine .inl ⟨fun bucket key => ?_, alone⟩
    rw [originRule, alone, List.findSome?_singleton]
  · rw [siteScopes_storageLabel] at layered
    refine .inr ⟨fun bucket key => ?_, layered⟩
    rw [originRule, layered, List.findSome?_cons, List.findSome?_singleton]
    cases ruleAt tree (storageLabel origin) bucket key <;> rfl

theorem originRule_storageLabel (tree : PermissionMap) (origin bucket key : String) :
    originRule tree (storageLabel origin) bucket key = originRule tree origin bucket key := by
  rw [originRule, siteScopes_storageLabel, originRule]

theorem ruleAt_of_unstored {scope : String} (unstored : scope ∉ tree.keys) (bucket key : String) :
    ruleAt tree scope bucket key = none := by
  rw [← AList.mem_keys, ← AList.lookup_eq_none] at unstored
  exact ruleAt_of_absent unstored bucket key

/-- Under inherited rules the new account's own rules are those it was given,
whichever of the origin's scopes are stored. -/
theorem originRule_setupInherited_new (other : source ≠ some newAccountId)
    (reserved : newAccountId ≠ DEFAULT_BUCKET)
    (fresh : ∀ scope key, ruleAt tree scope newAccountId key = none) (origin key : String) :
    originRule (setupInherited false tree newAccountId source) origin newAccountId key =
      givenRule false source tree origin key := by
  have own : ∀ scope, ruleAt (setupInherited false tree newAccountId source) scope newAccountId key =
      if scope ∈ tree.keys then givenRule false source tree scope key else none := by
    intro scope
    rw [ruleAt_setupInherited other reserved, fresh]
    simp
  have exact : givenRule false source tree (storageLabel origin) key =
      givenRule false source tree origin key := by
    simp only [givenRule, Bool.false_eq_true, if_false, originRule_storageLabel]
  rcases originRule_cases tree origin with ⟨rule, scopes⟩ | ⟨rule, scopes⟩
  · rw [originRule, scopes, List.findSome?_singleton, own, exact]
    by_cases stored : storageLabel origin ∈ tree.keys
    · rw [if_pos stored]
    · rw [if_neg stored]
      cases source <;> simp [givenRule, rule, ruleAt_of_unstored stored, askFor]
  · have hostname : ∀ bucket, originRule tree (hostnameOf (storageLabel origin)) bucket key =
        ruleAt tree (hostnameOf (storageLabel origin)) bucket key := by
      intro bucket
      rw [originRule, siteScopes_hostnameOf, List.findSome?_singleton]
    rw [originRule, scopes, List.findSome?_cons, List.findSome?_singleton, own, own, exact]
    by_cases stored : storageLabel origin ∈ tree.keys
    · rw [if_pos stored]
      by_cases above : hostnameOf (storageLabel origin) ∈ tree.keys
      · rw [if_pos above]
        cases source with
        | none =>
          simp only [givenRule, Bool.false_eq_true, if_false, rule, hostname, askFor]
          cases ruleAt tree (storageLabel origin) DEFAULT_BUCKET key <;>
            cases ruleAt tree (hostnameOf (storageLabel origin)) DEFAULT_BUCKET key <;> rfl
        | some id =>
          simp only [givenRule, Bool.false_eq_true, if_false, rule, hostname]
          cases ruleAt tree (storageLabel origin) id key <;>
            cases ruleAt tree (hostnameOf (storageLabel origin)) id key <;>
            cases ruleAt tree (storageLabel origin) DEFAULT_BUCKET key <;>
            cases ruleAt tree (hostnameOf (storageLabel origin)) DEFAULT_BUCKET key <;> rfl
      · rw [if_neg above]
        cases givenRule false source tree origin key <;> rfl
    · rw [if_neg stored]
      by_cases above : hostnameOf (storageLabel origin) ∈ tree.keys
      · rw [if_pos above]
        cases source <;> simp [givenRule, rule, hostname, ruleAt_of_unstored stored]
      · rw [if_neg above]
        cases source <;>
          simp [givenRule, rule, ruleAt_of_unstored stored, ruleAt_of_unstored above, askFor]

theorem originRule_setupInherited_other (other : source ≠ some newAccountId)
    (reserved : newAccountId ≠ DEFAULT_BUCKET) {bucket : String} (different : bucket ≠ newAccountId)
    (origin key : String) :
    originRule (setupInherited consolidated tree newAccountId source) origin bucket key =
      originRule tree origin bucket key := by
  refine originRule_congr fun scope _ => ?_
  rw [ruleAt_setupInherited other reserved, if_neg (fun given => different given.1)]

end Tree

end NostrWot.Permissions
