import NostrWot.Permissions.Inheritance
import NostrWot.Permissions.Setup

namespace NostrWot.Permissions

open NostrWot.Data NostrWot.Async StoreKey KeyValueStore

/-! # What an edit leaves alone

An edit for one origin and one account writes under the scopes of the origin. What a check reads
for another origin, or for another account, lies elsewhere.
-/

/-! ## Edits of the tree -/

section Tree

variable {tree next last : PermissionMap} {origin : String} {buckets : String → Prop}

def Confined (origin : String) (buckets : String → Prop) (tree next : PermissionMap) : Prop :=
  ∀ scope bucket key, ¬ (scope ∈ siteScopes origin ∧ buckets bucket) →
    ruleAt next scope bucket key = ruleAt tree scope bucket key

theorem Confined.refl : Confined origin buckets tree tree := fun _ _ _ _ => rfl

theorem Confined.trans (first : Confined origin buckets tree next)
    (second : Confined origin buckets next last) : Confined origin buckets tree last :=
  fun scope bucket key outside =>
    (second scope bucket key outside).trans (first scope bucket key outside)

theorem Confined.mono {wider : String → Prop} (confined : Confined origin buckets tree next)
    (within : ∀ bucket, buckets bucket → wider bucket) : Confined origin wider tree next :=
  fun scope bucket key outside => confined scope bucket key fun inside =>
    outside ⟨inside.1, within bucket inside.2⟩

theorem Confined.foldl {edit : PermissionMap → String → PermissionMap}
    (each : ∀ tree, ∀ scope ∈ siteScopes origin, Confined origin buckets tree (edit tree scope)) :
    Confined origin buckets tree ((siteScopes origin).foldl edit tree) := by
  generalize within : siteScopes origin = scopes at each
  replace within : ∀ scope ∈ scopes, scope ∈ siteScopes origin := fun scope member => within ▸ member
  induction scopes generalizing tree with
  | nil => exact .refl
  | cons scope rest ih =>
    have first := each tree scope List.mem_cons_self
    exact first.trans (ih (fun tree scope member => each tree scope (.tail _ member))
      fun scope member => within scope (.tail _ member))

theorem ruleAt_setRule (tree : PermissionMap) (label bucket key : String)
    (decision : PermissionDecision) (scope other name : String) :
    ruleAt (setRule tree label bucket key decision) scope other name =
      if scope = label ∧ other = bucket ∧ name = key then some decision
      else ruleAt tree scope other name := by
  rw [ruleAt_eq, ruleAt_eq, setRule, Record.lookup_alter]
  by_cases here : scope = label
  · rw [if_pos here, Option.bind_some, Record.lookup_alter, here]
    by_cases same : other = bucket
    · rw [if_pos same, Option.bind_some, Record.lookup_insert, same]
      by_cases named : name = key
      · simp [named]
      · cases tree.lookup label with
        | none => simp [named]
        | some stored => cases held : stored.lookup bucket <;> simp [named, held]
    · cases tree.lookup label <;> simp [same]
  · simp [here]

theorem storageLabel_mem (origin : String) : storageLabel origin ∈ siteScopes origin := by
  unfold storageLabel siteScopes
  cases canonicalHttpOrigin origin <;> simp

theorem confined_setRule (bucket key : String) (decision : PermissionDecision) :
    Confined origin (· = bucket) tree (setRule tree (storageLabel origin) bucket key decision) := by
  intro scope other name outside
  rw [ruleAt_setRule, if_neg]
  rintro ⟨rfl, rfl, rfl⟩
  exact outside ⟨storageLabel_mem origin, rfl⟩

theorem confined_clearScopes (bucket : String) :
    Confined origin (· = bucket) tree (clearScopes tree origin bucket) := by
  refine .foldl fun tree scope member other name key outside => ?_
  unfold clearBucket
  cases found : tree.lookup scope with
  | none => rfl
  | some stored =>
    simp only
    rw [ruleAt_eq, ruleAt_eq]
    by_cases here : other = scope
    · subst here
      have different : name ≠ bucket := fun same => outside ⟨member, same⟩
      split
      · next empty =>
        have absent := Record.lookup_of_isEmpty empty name
        rw [Record.lookup_erase, if_neg different] at absent
        simp [found, absent]
      · simp [different, found]
    · split <;> simp [here]

theorem confined_deleteScopes :
    Confined origin (fun _ => True) tree (deleteScopes tree origin) := by
  refine .foldl fun tree scope member other name key outside => ?_
  have elsewhere : other ≠ scope := fun same => outside ⟨same ▸ member, trivial⟩
  rw [ruleAt_eq, ruleAt_eq, Record.lookup_erase, if_neg elsewhere]

theorem confined_editScopes {bucket : String} {change : OriginPermissions → OriginPermissions}
    (keeps : ∀ stored other, other ≠ bucket → (change stored).lookup other = stored.lookup other) :
    Confined origin (· = bucket) tree (editScopes tree origin change) := by
  refine .foldl fun tree scope member other name key outside => ?_
  cases found : tree.lookup scope with
  | none => rfl
  | some stored =>
    simp only
    rw [ruleAt_eq, ruleAt_eq, Record.lookup_insert]
    split
    · next here =>
      have different : name ≠ bucket := fun same => outside ⟨here ▸ member, same⟩
      rw [here, found, Option.bind_some, Option.bind_some, keeps stored name different]
    · rfl

theorem confined_dropOverride (key accountId : String) :
    Confined origin (· = accountId) tree (dropOverride tree origin key accountId) := by
  refine confined_editScopes fun stored other different => ?_
  split
  · rw [Record.lookup_insert, if_neg different]
  · rfl

theorem confined_dropBucket (accountId : String) :
    Confined origin (· = accountId) tree (dropBucket tree origin accountId) := by
  refine confined_editScopes fun stored other different => ?_
  rw [Record.lookup_erase, if_neg different]

theorem Confined.originRule (confined : Confined origin buckets tree next) {other bucket : String}
    (outside : ∀ scope ∈ siteScopes other, ¬ (scope ∈ siteScopes origin ∧ buckets bucket))
    (key : String) : originRule next other bucket key = originRule tree other bucket key :=
  originRule_congr fun scope member => confined scope bucket key (outside scope member)

theorem Confined.rules (confined : Confined origin buckets tree next) {mode : Mode}
    {other accountId : String}
    (own : ∀ bucket, mode.activeBucket accountId = some bucket → ∀ scope ∈ siteScopes other,
      ¬ (scope ∈ siteScopes origin ∧ buckets bucket))
    (shared : mode.inherits = true →
      (∀ scope ∈ siteScopes other, ¬ (scope ∈ siteScopes origin ∧ buckets DEFAULT_BUCKET)) ∧
      ∀ bucket ∈ [accountId, DEFAULT_BUCKET],
        ¬ (GLOBAL_RULES_SCOPE ∈ siteScopes origin ∧ buckets bucket)) (key : String) :
    (mode.rules next other accountId).lookup key = (mode.rules tree other accountId).lookup key := by
  unfold Mode.rules
  cases active : mode.activeBucket accountId with
  | none => rfl
  | some bucket =>
    have read := own bucket active
    cases inherits : mode.inherits with
    | false => simp [confined.originRule read]
    | true =>
      obtain ⟨defaults, globals⟩ := shared inherits
      have named : bucket = accountId := by
        unfold Mode.activeBucket at active
        simp [inherits] at active
        exact active.2.symm
      subst named
      have label : ∀ scope ∈ siteScopes GLOBAL_RULES_SCOPE, scope = GLOBAL_RULES_SCOPE := by
        decide
      have global : ∀ name ∈ [bucket, DEFAULT_BUCKET], ∀ scope ∈ siteScopes GLOBAL_RULES_SCOPE,
          ¬ (scope ∈ siteScopes origin ∧ buckets name) := by
        intro name member scope among
        rw [label scope among]
        exact globals name member
      simp only [if_true, lookup_effectiveOriginPermissions]
      rw [confined.originRule read, confined.originRule defaults,
        confined.originRule (global bucket (by simp)),
        confined.originRule (global DEFAULT_BUCKET (by simp))]

end Tree

/-! ## Denying -/

section Denying

/-- Left as it was, or denied. -/
def KeptOrDenied (before after : Option PermissionDecision) : Prop :=
  after = before ∨ after = some .deny

theorem KeptOrDenied.or {before after before' after' : Option PermissionDecision}
    (first : KeptOrDenied before after) (second : KeptOrDenied before' after') :
    KeptOrDenied (before.or before') (after.or after') := by
  rcases first with rfl | rfl
  · cases after with
    | none => exact second
    | some decision => exact .inl rfl
  · exact .inr rfl

variable {tree : PermissionMap} {label bucket key : String}

theorem originRule_denied (origin other name : String) :
    KeptOrDenied (originRule tree origin other name)
      (originRule (setRule tree label bucket key .deny) origin other name) := by
  unfold originRule
  induction siteScopes origin with
  | nil => exact .inl rfl
  | cons scope rest ih =>
    have here : KeptOrDenied (ruleAt tree scope other name)
        (ruleAt (setRule tree label bucket key .deny) scope other name) := by
      rw [ruleAt_setRule]
      split
      · exact .inr rfl
      · exact .inl rfl
    have split : ∀ read : String → Option PermissionDecision,
        (scope :: rest).findSome? read = (read scope).or (rest.findSome? read) := fun read => by
      rw [List.findSome?_cons]
      cases read scope <;> rfl
    rw [split, split]
    exact here.or ih

theorem rules_denied (mode : Mode) (origin accountId name : String) :
    KeptOrDenied ((mode.rules tree origin accountId).lookup name)
      ((mode.rules (setRule tree label bucket key .deny) origin accountId).lookup name) := by
  unfold Mode.rules
  cases mode.activeBucket accountId with
  | none => exact .inl rfl
  | some bucket =>
    cases mode.inherits with
    | false => simpa using originRule_denied origin bucket name
    | true =>
      simp only [if_true, lookup_effectiveOriginPermissions]
      exact (originRule_denied _ _ _).or ((originRule_denied _ _ _).or
        ((originRule_denied _ _ _).or (originRule_denied _ _ _)))

/-- Saving a deny leaves what any caller is answered as it was, or makes it a deny. -/
theorem denying_only_denies (mode : Mode) (tree : PermissionMap)
    (label bucket key origin accountId method : String) (kind : KindArgument) :
    resolve (mode.rules (setRule tree label bucket key .deny) origin accountId) method kind =
        resolve (mode.rules tree origin accountId) method kind ∨
      resolve (mode.rules (setRule tree label bucket key .deny) origin accountId) method kind =
        .deny := by
  by_cases denied : ∃ name ∈ consultedKeys method kind,
      (mode.rules (setRule tree label bucket key .deny) origin accountId).lookup name = some .deny
  · exact .inr ((resolve_deny_iff _ method kind).mpr denied)
  · exact .inl (resolve_congr fun name consulted =>
      (rules_denied mode origin accountId name).resolve_right fun found =>
        denied ⟨name, consulted, found⟩)

end Denying

/-- Migrating rules that allow nothing allows nothing, to any caller in any mode. -/
theorem migrations_grant_nothing {tree : PermissionMap} (none : GrantsNothing tree) (shared : Bool)
    (ids : List String) (collation : Collation) (context : PermissionMigrationContext) (mode : Mode)
    (origin accountId method : String) (kind : KindArgument) :
    ∀ migrated ∈ [inheritanceTree shared tree ids, globalRulesTree collation tree context ids],
      resolve (mode.rules migrated origin accountId) method kind ≠ .allow := by
  intro migrated among
  have clean : GrantsNothing migrated := by
    rcases List.mem_pair.mp among with rfl | rfl
    · exact none.inheritanceTree shared ids
    · exact none.globalRulesTree collation context ids
  refine NoAllow.resolve ?_ method kind
  unfold Mode.rules
  split
  · exact .empty
  · split
    · exact clean.effectiveOriginPermissions origin accountId
    · exact clean.originPermissionBucket origin _

theorem migrations_grant_nothing_denied : resolve (Mode.rules ⟨true, true⟩ (inheritanceTree false
    (AList.singleton "a" (AList.singleton "1" (AList.singleton "k" .deny))) ["1"]) "a" "1") "k"
      .absent ≠ .allow :=
  migrations_grant_nothing (.of_singleton (.of_singleton (.of_singleton (by decide)))) false ["1"]
    .codePoints ⟨[], []⟩ ⟨true, true⟩ "a" "1" "k" .absent _ List.mem_cons_self

/-! ## Edits of one origin for one account -/

inductive RuleChange where
  | save (method : String) (kind : KindArgument) (decision : PermissionDecision)
  | saveDirect (key : String) (decision : PermissionDecision)
  | clear
  | clearAllForOrigin
  | inheritRule (key : String)
  | clearRuleBucket

def RuleChange.rule? : RuleChange → Option (String × PermissionDecision)
  | .save method kind decision => (permissionKey method kind).toOption.map (·, decision)
  | .saveDirect key decision => some (key, decision)
  | _ => none

def RuleChange.key? : RuleChange → Option String
  | .inheritRule key => some key
  | change => change.rule?.map Prod.fst

/-- A change for one origin and one account. None of the names it writes is one that every object
has already: under such a name a tree of plain objects does not hold a property of its own. -/
structure RuleEdit where
  origin : String
  accountId : String
  change : RuleChange
  ordinary : ∀ name ∈ change.key?.toList ++ accountId :: siteScopes origin, name ∉ INHERITED_NAMES

namespace RuleEdit

def operation (edit : RuleEdit) : Operation :=
  match edit.change with
  | .save method kind decision => .save edit.origin method kind decision edit.accountId
  | .saveDirect key decision => .saveDirect edit.origin key decision edit.accountId
  | .clear => .clear (some edit.origin) edit.accountId
  | .clearAllForOrigin => .clearAllForOrigin edit.origin
  | .inheritRule key => .inheritRule edit.origin key edit.accountId
  | .clearRuleBucket => .clearRuleBucket edit.origin edit.accountId

def Reaches (edit : RuleEdit) (mode : Mode) (bucket : String) : Prop :=
  match edit.change with
  | .clearAllForOrigin => True
  | .inheritRule _ => bucket = edit.accountId
  | .clearRuleBucket => bucket = edit.accountId
  | _ => mode.activeBucket edit.accountId = some bucket

/-- What an edit leaves of a tree, whether it was carried out or refused. -/
structure Leaves (edit : RuleEdit) (mode : Mode) (perms after : PermissionMap)
    (outcome : Except String Result) : Prop where
  confined : Confined edit.origin (edit.Reaches mode) perms after
  saved : outcome = .ok .done → ∀ rule ∈ edit.change.rule?, ∃ bucket,
    mode.activeBucket edit.accountId = some bucket ∧
      ruleAt after (storageLabel edit.origin) bucket rule.1 = some rule.2

end RuleEdit

section Alone

variable {state : State permissionSystem} {queue : LockName → List Nat} {store : KeyValueStore}
  {mode : Mode} {consolidated : Bool} {perms : PermissionMap} {self : Nat} {origin accountId : String}

theorem runs_label {α : Type} {value what : String} {next : Unit → Task α}
    {post : Except String α → State permissionSystem → Prop}
    (refused : ∀ fault, post (.error fault) state) (goesOn : Runs post (next ()) state) :
    Runs post (requireLabel value what >>= next) state := by
  refine .bind ?_
  unfold requireLabel
  split
  · exact refused _
  · exact goesOn

variable {post : Except String Unit → State permissionSystem → Prop}

theorem runs_revokeOrigin {account : Option String}
    (rests : RestsWith queue mode consolidated perms state) (free : queue .grants = [])
    (next : ∀ outcome last, RestsWith queue mode consolidated perms last → post outcome last) :
    Runs post (revoke self { origin := some origin, accountId := account }) state := by
  have refused : ∀ fault, post (.error fault) state := fun fault => next _ state rests
  have revoking : Runs post (requireLabel origin "origin" >>= fun _ => withLock .grants self do
      let grants ← listGrants
      revokeDefaultBackend { origin := some origin, accountId := account }
      set AUTHENTICATION_GRANTS_KEY (grants.filter fun grant =>
        ¬ AuthenticationGrantFilter.Matches { origin := some origin, accountId := account } grant))
      state := by
    obtain ⟨store, rests, stored⟩ := rests
    refine runs_label refused ?_
    refine performs_withLock rests free (fun _ _ => trivial) fun state rests => ?_
    refine .bind (.bind (performs_read rests (fun _ _ => trivial) ?_))
    have elsewhere : revokeDefaultBackend { origin := some origin, accountId := account } = pure () :=
      if_neg fun reached => nomatch reached.2
    simp only
    rw [elsewhere]
    change Runs _ (set AUTHENTICATION_GRANTS_KEY _) state
    refine performs_set trivial fun last memory landed => ?_
    have kept : Stored mode consolidated perms last.world.store := by
      rw [landed, rests.holds]
      exact ⟨stored.mode, stored.version, stored.tree, stored.settled⟩
    have held : Rests (Function.update queue .grants [self]) last.world.store last := by
      refine ⟨?_, rfl, ?_⟩
      · rw [memory, rests.locks]
      · rw [memory, landed, rests.holds]
        exact ⟨rests.cached.perms, rests.cached.flag⟩
    exact ⟨_, held, fun last rests => next _ last ⟨_, rests, kept⟩⟩
  cases account with
  | none => exact revoking
  | some accountId => exact runs_label refused revoking

theorem runs_writeBucket {post : Except String String → State permissionSystem → Prop}
    (rests : Rests queue store state) (stored : Stored mode consolidated perms store)
    (next : ∀ bucket last, mode.activeBucket accountId = some bucket → Rests queue store last →
      post (.ok bucket) last)
    (refused : ∀ fault last, Rests queue store last → post (.error fault) last) :
    Runs post (writeBucket accountId) state := by
  refine .bind (performs_activeBucket accountId rests (fun _ _ => trivial) fun last rests => ?_)
  rw [stored.mode]
  cases active : mode.activeBucket accountId with
  | some bucket => exact next bucket last active rests
  | none => exact refused _ last rests

theorem runs_edit (rests : Rests queue store state) (stored : Stored mode consolidated perms store)
    {edit : PermissionMap → PermissionMap}
    (next : ∀ after last, Rests queue after last → Stored mode consolidated (edit perms) after →
      post (.ok ()) last) :
    Runs post (draft >>= fun perms => commit (edit perms)) state := by
  refine .bind (performs_load rests (fun _ _ => trivial) stored.settled fun state rests => ?_)
  simp only
  rw [stored.tree]
  exact runs_commit rests stored next

theorem runs_writeRule {key : String} {decision : PermissionDecision}
    (rests : RestsWith queue mode consolidated perms state) (free : queue .rules = [])
    (next : ∀ bucket last, mode.activeBucket accountId = some bucket →
      RestsWith queue mode consolidated (setRule perms (storageLabel origin) bucket key decision)
        last → post (.ok ()) last)
    (refused : ∀ fault last, RestsWith queue mode consolidated perms last →
      post (.error fault) last) :
    Runs post (writeRule self origin key decision accountId) state := by
  obtain ⟨store, rests, stored⟩ := rests
  refine performs_withLock rests free (fun _ _ => trivial) fun state rests => ?_
  refine .bind (runs_writeBucket rests stored ?_ ?_)
  · intro bucket state active rests
    refine .bind (.bind (performs_read rests (fun _ _ => trivial) ?_))
    simp only
    split
    · refine runs_edit rests stored fun after last rests stored => ?_
      exact ⟨after, rests, fun last rests => next bucket last active ⟨after, rests, stored⟩⟩
    · split
      · exact ⟨store, rests, fun last rests => refused _ last ⟨store, rests, stored⟩⟩
      · refine runs_edit rests stored fun after last rests stored => ?_
        exact ⟨after, rests, fun last rests => next bucket last active ⟨after, rests, stored⟩⟩
  · intro fault state rests
    exact ⟨store, rests, fun last rests => refused fault last ⟨store, rests, stored⟩⟩

theorem runs_saveDirect {key : String} {decision : PermissionDecision}
    (rests : RestsWith queue mode consolidated perms state) (free : queue .rules = [])
    (next : ∀ bucket last, mode.activeBucket accountId = some bucket →
      RestsWith queue mode consolidated (setRule perms (storageLabel origin) bucket key decision)
        last → post (.ok ()) last)
    (refused : ∀ fault last, RestsWith queue mode consolidated perms last →
      post (.error fault) last) :
    Runs post (saveDirect self origin key decision accountId) state := by
  have written : Runs post (writeRule self origin key decision accountId) state :=
    runs_writeRule rests free next refused
  have refuse : ∀ fault, post (.error fault) state := fun fault => refused fault state rests
  refine runs_label refuse (runs_label refuse ?_)
  split
  · exact refuse _
  · split
    · exact refuse _
    · exact written

theorem runs_clearOrigin (rests : RestsWith queue mode consolidated perms state)
    (free : ∀ lock, queue lock = [])
    (next : ∀ bucket last, mode.activeBucket accountId = some bucket →
      RestsWith queue mode consolidated (clearScopes perms origin bucket) last → post (.ok ()) last)
    (refused : ∀ fault last, RestsWith queue mode consolidated perms last →
      post (.error fault) last) :
    Runs post (clearOrigin self origin accountId) state := by
  refine runs_label (fun fault => refused fault state rests) ?_
  obtain ⟨store, rests, stored⟩ := rests
  refine .bind (runs_writeBucket rests stored ?_ ?_)
  · intro _ state _ rests
    refine .bind (runs_revokeOrigin ⟨store, rests, stored⟩ (free .grants) fun outcome state rests => ?_)
    cases outcome with
    | error fault => exact refused fault state rests
    | ok =>
      obtain ⟨store, rests, stored⟩ := rests
      refine performs_withLock rests (free .rules) (fun _ _ => trivial) fun state rests => ?_
      refine .bind (runs_writeBucket rests stored ?_ ?_)
      · intro bucket state active rests
        refine runs_edit rests stored fun after last rests stored => ?_
        exact ⟨after, rests, fun last rests => next bucket last active ⟨after, rests, stored⟩⟩
      · intro fault state rests
        exact ⟨store, rests, fun last rests => refused fault last ⟨store, rests, stored⟩⟩
  · exact fun fault last rests => refused fault last ⟨store, rests, stored⟩

theorem runs_clearAllForOrigin (rests : RestsWith queue mode consolidated perms state)
    (free : ∀ lock, queue lock = [])
    (next : ∀ last, RestsWith queue mode consolidated (deleteScopes perms origin) last →
      post (.ok ()) last) (refused : ∀ fault last, RestsWith queue mode consolidated perms last →
      post (.error fault) last) :
    Runs post (clearAllForOrigin self origin) state := by
  refine runs_label (fun fault => refused fault state rests) ?_
  refine .bind (runs_revokeOrigin rests (free .grants) fun outcome state rests => ?_)
  cases outcome with
  | error fault => exact refused fault state rests
  | ok =>
    obtain ⟨store, rests, stored⟩ := rests
    refine performs_withLock rests (free .rules) (fun _ _ => trivial) fun state rests => ?_
    refine runs_edit rests stored fun after last rests stored => ?_
    exact ⟨after, rests, fun last rests => next last ⟨after, rests, stored⟩⟩

theorem runs_lockedEdit {edit : PermissionMap → PermissionMap}
    (rests : RestsWith queue mode consolidated perms state) (free : queue .rules = [])
    (next : ∀ last, RestsWith queue mode consolidated (edit perms) last → post (.ok ()) last) :
    Runs post (withLock .rules self (draft >>= fun perms => commit (edit perms))) state := by
  obtain ⟨store, rests, stored⟩ := rests
  refine performs_withLock rests free (fun _ _ => trivial) fun state rests => ?_
  refine runs_edit rests stored fun after last rests stored => ?_
  exact ⟨after, rests, fun last rests => next last ⟨after, rests, stored⟩⟩

theorem RuleEdit.Leaves.refused {edit : RuleEdit} {fault : String} :
    edit.Leaves mode perms perms (.error fault) := ⟨.refl, nofun⟩

/-- An edit by itself leaves a tree in which only its own origin and buckets differ. -/
theorem runs_ruleEdit (edit : RuleEdit) (rests : RestsWith queue mode consolidated perms state)
    (free : ∀ lock, queue lock = []) :
    Runs (fun outcome last => ∃ after, RestsWith queue mode consolidated after last ∧
      edit.Leaves mode perms after outcome) (perform self edit.operation) state := by
  obtain ⟨origin, accountId, change, ordinary⟩ := edit
  have refused : ∀ fault last, RestsWith queue mode consolidated perms last →
      ∃ after, RestsWith queue mode consolidated after last ∧
        RuleEdit.Leaves ⟨origin, accountId, change, ordinary⟩ mode perms after (.error fault) :=
    fun fault last rests => ⟨perms, rests, .refused⟩
  have saved : ∀ key decision, change.rule? = some (key, decision) →
      (∀ mode bucket, mode.activeBucket accountId = some bucket →
        RuleEdit.Reaches ⟨origin, accountId, change, ordinary⟩ mode bucket) →
      ∀ bucket last, mode.activeBucket accountId = some bucket →
      RestsWith queue mode consolidated (setRule perms (storageLabel origin) bucket key decision) last →
      ∃ after, RestsWith queue mode consolidated after last ∧
        RuleEdit.Leaves ⟨origin, accountId, change, ordinary⟩ mode perms after (.ok .done) := by
    intro key decision asked reaches bucket last active rests
    refine ⟨_, rests, (confined_setRule bucket key decision).mono ?_, fun _ rule asked' => ?_⟩
    · rintro _ rfl
      exact reaches mode _ active
    · obtain rfl : (key, decision) = rule := Option.some.inj (asked.symm.trans asked')
      exact ⟨bucket, active, by rw [ruleAt_setRule, if_pos ⟨rfl, rfl, rfl⟩]⟩
  cases change with
  | saveDirect key decision =>
    exact .bind (runs_saveDirect rests (free .rules)
      (saved key decision rfl fun _ _ active => active) refused)
  | save method kind decision =>
    have asked : ∀ key, permissionKey method kind = .ok key →
        (RuleChange.save method kind decision).rule? = some (key, decision) := by
      intro key named
      simp [RuleChange.rule?, named, Except.toOption]
    refine .bind ?_
    unfold save
    cases named : permissionKey method kind with
    | error message => exact refused message state rests
    | ok key =>
      exact runs_saveDirect rests (free .rules)
        (saved key decision (asked key named) fun _ _ active => active) refused
  | clear =>
    refine .bind (runs_clearOrigin rests free (fun bucket last active rests => ?_) refused)
    refine ⟨_, rests, (confined_clearScopes bucket).mono ?_, nofun⟩
    rintro _ rfl
    exact active
  | clearAllForOrigin =>
    refine .bind (runs_clearAllForOrigin rests free (fun last rests => ?_) refused)
    exact ⟨_, rests, confined_deleteScopes, nofun⟩
  | inheritRule key =>
    refine .bind (runs_label (fun fault => refused fault state rests) ?_)
    refine runs_label (fun fault => refused fault state rests) ?_
    refine runs_label (fun fault => refused fault state rests) ?_
    split
    · exact refused _ state rests
    · refine runs_lockedEdit rests (free .rules) fun last rests => ?_
      exact ⟨_, rests, confined_dropOverride key accountId, nofun⟩
  | clearRuleBucket =>
    refine .bind (runs_label (fun fault => refused fault state rests) ?_)
    refine runs_label (fun fault => refused fault state rests) ?_
    refine runs_lockedEdit rests (free .rules) fun last rests => ?_
    exact ⟨_, rests, confined_dropBucket accountId, nofun⟩

/-- The accounts that share no rule: the mode keeps a bucket for each, and the edit is not one of
every account's rules, nor of the ones that every account inherits. -/
def RuleEdit.LeavesAccount (edit : RuleEdit) (mode : Mode) (accountId : String) : Prop :=
  accountId ≠ edit.accountId ∧ (mode.inherits = true ∨ mode.useGlobalDefaults = false) ∧
    edit.change ≠ .clearAllForOrigin ∧ (mode.inherits = true → edit.accountId ≠ DEFAULT_BUCKET)

/-- The origins that share no rule: they have no scope in common, and the edit is not one of the
rules that every origin inherits. -/
def RuleEdit.LeavesOrigin (edit : RuleEdit) (mode : Mode) (origin : String) : Prop :=
  (∀ scope ∈ siteScopes origin, scope ∉ siteScopes edit.origin) ∧
    (mode.inherits = true → GLOBAL_RULES_SCOPE ∉ siteScopes edit.origin)

namespace RuleEdit

variable {edit : RuleEdit} {after : PermissionMap} {outcome : Except String Result}

theorem Leaves.unchanged_origin (leaves : edit.Leaves mode perms after outcome)
    (other : edit.LeavesOrigin mode origin) (key : String) :
    (mode.rules after origin accountId).lookup key =
      (mode.rules perms origin accountId).lookup key := by
  refine leaves.confined.rules ?_ ?_ key
  · intro bucket _ scope member inside
    exact other.1 scope member inside.1
  · intro inherits
    exact ⟨fun scope member inside => other.1 scope member inside.1,
      fun bucket _ inside => other.2 inherits inside.1⟩

theorem activeBucket_own {bucket : String}
    (owned : mode.inherits = true ∨ mode.useGlobalDefaults = false)
    (active : mode.activeBucket accountId = some bucket) : bucket = accountId := by
  have own : (!mode.inherits && mode.useGlobalDefaults) = false := by
    rcases owned with inherits | apart
    · rw [inherits]
      rfl
    · rw [apart, Bool.and_false]
  unfold Mode.activeBucket at active
  rw [own] at active
  split at active
  · contradiction
  · split at active
    · contradiction
    · exact (Option.some.inj active).symm

theorem reaches_own {bucket : String} (owned : mode.inherits = true ∨ mode.useGlobalDefaults = false)
    (single : edit.change ≠ .clearAllForOrigin) (reached : edit.Reaches mode bucket) :
    bucket = edit.accountId := by
  unfold Reaches at reached
  split at reached
  · next every => exact absurd every single
  · exact reached
  · exact reached
  · exact activeBucket_own owned reached

theorem Leaves.unchanged_account (leaves : edit.Leaves mode perms after outcome)
    (other : edit.LeavesAccount mode accountId) (key : String) :
    (mode.rules after origin accountId).lookup key =
      (mode.rules perms origin accountId).lookup key := by
  obtain ⟨different, owned, single, apart⟩ := other
  have untouched : ¬ edit.Reaches mode accountId :=
    fun reached => different (reaches_own owned single reached)
  refine leaves.confined.rules ?_ ?_ key
  · intro bucket active scope _ inside
    rw [activeBucket_own owned active] at inside
    exact untouched inside.2
  · intro inherits
    have defaults : ¬ edit.Reaches mode DEFAULT_BUCKET :=
      fun reached => apart inherits (reaches_own owned single reached).symm
    refine ⟨fun scope _ inside => defaults inside.2, ?_⟩
    simp only [List.forall_mem_cons, List.not_mem_nil, false_imp_iff, implies_true, and_true]
    exact ⟨fun inside => untouched inside.2, fun inside => defaults inside.2⟩

theorem Leaves.found (leaves : edit.Leaves mode perms after (.ok .done))
    {key : String} {decision : PermissionDecision} (asked : edit.change.rule? = some (key, decision)) :
    (mode.rules after edit.origin edit.accountId).lookup key = some decision := by
  obtain ⟨bucket, active, written⟩ := leaves.saved rfl (key, decision) asked
  have found : originRule after edit.origin bucket key = some decision := by
    unfold storageLabel at written
    unfold originRule siteScopes
    cases canonical : canonicalHttpOrigin edit.origin <;> simp_all
  unfold Mode.rules
  rw [active]
  cases inherits : mode.inherits with
  | false => simp [found]
  | true =>
    have own := activeBucket_own (.inl inherits) active
    subst own
    simp [lookup_effectiveOriginPermissions, found]

end RuleEdit

/-- An edit changes no decision of an origin or of an account that shares no rule with it, and a
rule it saved is the one the next read finds. -/
theorem edits_are_isolated (edit : RuleEdit) (rests : Rests queue store state)
    (free : ∀ lock, queue lock = []) (settled : store MIGRATION_PENDING_KEY = none) :
    ∃ outcome edited, (perform self edit.operation).run Reaction.perform state =
        some (outcome, edited) ∧
      (∀ origin method kind accountId, ∃ before after checked last,
        (check origin method kind accountId).run Reaction.perform state =
          some (.ok before, checked) ∧
        (check origin method kind accountId).run Reaction.perform edited = some (.ok after, last) ∧
        (edit.LeavesOrigin (KeyValueStore.mode store) origin → after = before) ∧
        (edit.LeavesAccount (KeyValueStore.mode store) accountId → after = before)) ∧
      (outcome = .ok .done → ∀ key decision, edit.change.rule? = some (key, decision) →
        ∃ bucket last, (getForOrigin edit.origin edit.accountId).run Reaction.perform edited =
          some (.ok bucket, last) ∧ bucket.lookup key = some decision) := by
  have here : RestsWith queue (KeyValueStore.mode store)
      (decide (store GLOBAL_RULES_VERSION_KEY = some (1 : Nat))) (KeyValueStore.tree store) state :=
    ⟨store, rests, rfl, rfl, rfl, settled⟩
  obtain ⟨outcome, edited, ran, perms, ⟨after, rests', stored⟩, leaves⟩ :=
    (@runs_ruleEdit _ _ _ _ _ self edit here free).run
  refine ⟨outcome, edited, ran, fun origin method kind accountId => ?_, ?_⟩
  · obtain ⟨checked, first, -⟩ := check_runs origin method kind accountId rests settled
    obtain ⟨last, second, -⟩ := check_runs origin method kind accountId rests' stored.settled
    refine ⟨_, _, checked, last, first, second, fun other => ?_, fun other => ?_⟩
    · unfold decisionAt
      rw [stored.mode, stored.tree]
      exact resolve_congr fun key _ => leaves.unchanged_origin other key
    · unfold decisionAt
      rw [stored.mode, stored.tree]
      exact resolve_congr fun key _ => leaves.unchanged_account other key
  · rintro rfl key decision asked
    have read : Runs (fun answer _ => answer = .ok ((KeyValueStore.mode after).rules
        (KeyValueStore.tree after) edit.origin edit.accountId))
        (getForOrigin edit.origin edit.accountId) edited :=
      performs_getForOrigin rests' (fun _ _ => trivial) stored.settled fun _ _ => rfl
    obtain ⟨answer, last, answered, rfl⟩ := read.run
    refine ⟨_, last, answered, ?_⟩
    rw [stored.mode, stored.tree]
    exact leaves.found asked

end Alone

section Example

def ownRules : KeyValueStore
  | .PERMISSIONS_STORAGE_KEY => some (AList.singleton "https://a.example"
      ((AList.singleton "account" (AList.singleton "getPublicKey" PermissionDecision.allow)).insert
        "other" (AList.singleton "getPublicKey" .allow)))
  | .GLOBAL_DEFAULTS_KEY => some false
  | _ => none

def denyKey : RuleEdit where
  origin := "https://a.example"
  accountId := "account"
  change := .saveDirect "getPublicKey" .deny
  ordinary := by decide

/-- Denying one account leaves the other one's rule. -/
theorem edits_are_isolated_denied :
    let state : State permissionSystem := ⟨{}, .opened ownRules⟩
    let other := check "https://a.example" "getPublicKey" .absent "other"
    ∃ outcome edited before after checked last,
      (perform 0 denyKey.operation).run Reaction.perform state = some (outcome, edited) ∧
      other.run Reaction.perform state = some (.ok before, checked) ∧
      other.run Reaction.perform edited = some (.ok after, last) ∧ after = before := by
  obtain ⟨outcome, edited, ran, keeps, -⟩ := @edits_are_isolated _ _ _ 0 denyKey
    (rests_opened ownRules) (fun _ => rfl) rfl
  obtain ⟨before, after, checked, last, first, second, -, account⟩ :=
    keeps "https://a.example" "getPublicKey" .absent "other"
  have apart : denyKey.LeavesAccount (KeyValueStore.mode ownRules) "other" :=
    ⟨by decide, .inr (by simp [KeyValueStore.mode, ownRules]), nofun, fun _ => by decide⟩
  exact ⟨outcome, edited, before, after, checked, last, ran, first, second, account apart⟩

def disconnect : RuleEdit where
  origin := "https://a.example"
  accountId := "account"
  change := .clearAllForOrigin
  ordinary := by decide

/-- Disconnecting a site is for every account. -/
theorem clearAllForOrigin_reaches_other_accounts :
    let state : State permissionSystem := ⟨{}, .opened ownRules⟩
    let other := check "https://a.example" "getPublicKey" .absent "other"
    (KeyValueStore.mode ownRules).inherits = false ∧
    (KeyValueStore.mode ownRules).useGlobalDefaults = false ∧ disconnect.accountId ≠ "other" ∧
    ∃ edited checked last,
      other.run Reaction.perform state = some (.ok .allow, checked) ∧
      (perform 0 disconnect.operation).run Reaction.perform state = some (.ok .done, edited) ∧
      other.run Reaction.perform edited = some (.ok .ask, last) := by
  intro state other
  refine ⟨by simp [KeyValueStore.mode, ownRules], by simp [KeyValueStore.mode, ownRules], by decide, ?_⟩
  exact ⟨_, _, _, rfl, rfl, rfl⟩

end Example

end NostrWot.Permissions
