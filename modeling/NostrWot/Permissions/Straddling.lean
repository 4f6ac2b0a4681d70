import NostrWot.Async.Discipline
import NostrWot.Permissions.Inheritance

namespace NostrWot.Permissions

open NostrWot.Data NostrWot.Async StoreKey KeyValueStore

/-! # Checks during a migration

A check reads the mode, the journal, the tree and the mode again, one after the
other, while `migrateToInheritance` writes all of them.  `before` is the store
the migration finds, and it leads to `(inherited context before).2`.
-/

section Phases

variable (context : PermissionMigrationContext) (before : KeyValueStore)

/-- A store the migration is at work on.  Where a journal was there from the
start, nobody can have read anything before. -/
structure Passing (store : KeyValueStore) : Prop where
  target : (inherited context before).2 INHERITANCE_KEY = some true
  journal : (store MIGRATION_PENDING_KEY).isSome
  tree : before MIGRATION_PENDING_KEY = none →
    tree store = tree before ∨ tree store = tree (inherited context before).2
  inherits : before MIGRATION_PENDING_KEY = none → store INHERITANCE_KEY = some true →
    KeyValueStore.tree store = KeyValueStore.tree (inherited context before).2
  shared : (mode store).useGlobalDefaults = true → (mode before).useGlobalDefaults = true

/-- The stores of the migration, in order. -/
inductive Phase : KeyValueStore → Prop
  | untouched : Phase before
  | passing {store : KeyValueStore} (passing : Passing context before store) : Phase store
  | complete : Phase (inherited context before).2

/-- Between any two moves of checks and the migration. -/
structure Straddled (state : State permissionSystem) : Prop where
  phase : Phase context before state.world.store
  cached : before MIGRATION_PENDING_KEY = none → state.world.store = before →
    Cached state.memory before
  shared : state.memory.cachedUseGlobalDefaults = some true →
    (mode before).useGlobalDefaults = true

/-- The migration does not go back. -/
structure Onward (earlier later : KeyValueStore) : Prop where
  untouched : before MIGRATION_PENDING_KEY = none → later = before → earlier = before
  complete : earlier = (inherited context before).2 → later = (inherited context before).2

variable {context before}

theorem Onward.refl (store : KeyValueStore) : Onward context before store store :=
  ⟨fun _ same => same, id⟩

theorem Onward.trans {first second third : KeyValueStore} (left : Onward context before first second)
    (right : Onward context before second third) : Onward context before first third :=
  ⟨fun settled same => left.untouched settled (right.untouched settled same),
    fun complete => right.complete (left.complete complete)⟩

theorem Passing.onward {earlier later : KeyValueStore} (first : Passing context before earlier)
    (second : Passing context before later) : Onward context before earlier later := by
  refine ⟨fun settled same => ?_, fun complete => ?_⟩
  · have journal := second.journal
    rw [same, settled] at journal
    contradiction
  · have journal := first.journal
    rw [complete, inherited_pending] at journal
    contradiction

variable {store : KeyValueStore}

theorem Phase.settled (phase : Phase context before store)
    (settled : store MIGRATION_PENDING_KEY = none) :
    store = before ∨ store = (inherited context before).2 := by
  cases phase with
  | untouched => exact .inl rfl
  | complete => exact .inr rfl
  | passing passing =>
    have journal := passing.journal
    rw [settled] at journal
    contradiction

theorem inherited_shared
    (shared : (mode (inherited context before).2).useGlobalDefaults = true) :
    (mode before).useGlobalDefaults = true := by
  have replayed : ∀ pending store, (mode (replay pending store)).useGlobalDefaults = false :=
    fun _ _ => rfl
  unfold inherited at shared
  simp only at shared
  cases journal : before MIGRATION_PENDING_KEY with
  | some pending =>
    rw [settle_of_some journal, if_pos (replay_inheritance pending before), replayed] at shared
    contradiction
  | none =>
    rw [settle_of_none journal] at shared
    split at shared
    · exact shared
    · split at shared
      · exact shared
      · rw [replayed] at shared
        contradiction

theorem inherited_of_failed
    (legacy : (inherited context before).2 INHERITANCE_KEY ≠ some true) :
    before MIGRATION_PENDING_KEY = none ∧ (inherited context before).2 = before := by
  cases journal : before MIGRATION_PENDING_KEY with
  | some pending =>
    rw [inherited_of_journal context journal] at legacy
    exact absurd rfl legacy
  | none =>
    refine ⟨rfl, ?_⟩
    unfold inherited at legacy ⊢
    rw [settle_of_none journal] at legacy ⊢
    simp only at legacy ⊢
    split
    · rfl
    · next old =>
      rw [if_neg old] at legacy
      cases accounts : migrationAccounts (tree before) context with
      | error message => rfl
      | ok ids =>
        rw [accounts] at legacy
        exact absurd rfl legacy

theorem Phase.of_failed (phase : Phase context before store)
    (legacy : (inherited context before).2 INHERITANCE_KEY ≠ some true) : store = before := by
  cases phase with
  | untouched => rfl
  | complete => exact (inherited_of_failed legacy).2
  | passing passing => exact absurd passing.target legacy

theorem Phase.shared (phase : Phase context before store)
    (shared : (mode store).useGlobalDefaults = true) : (mode before).useGlobalDefaults = true := by
  cases phase with
  | untouched => exact shared
  | passing passing => exact passing.shared shared
  | complete => exact inherited_shared shared

end Phases

/-! ## What a check reads -/

def StoreRequest.gets (key : StoreKey) : StoreRequest → Bool
  | .get other => other = key
  | _ => false

/-- The store in which a call's first read of `key` took effect. -/
def readIn (key : StoreKey) (log : List (Entry permissionSystem)) : Option KeyValueStore :=
  (log.find? fun entry => entry.request.gets key).map fun entry => entry.taken.world.store

/-- The store a call's tree comes from: where it read the tree, or where it read
the journal when its tree was cached. -/
def treeReadIn (log : List (Entry permissionSystem)) : Option KeyValueStore :=
  (readIn PERMISSIONS_STORAGE_KEY log).or (readIn MIGRATION_PENDING_KEY log)

def CacheFresh (entry : Entry permissionSystem) (state : State permissionSystem) : Prop :=
  entry.request.gets MIGRATION_PENDING_KEY →
    ∀ cached ∈ state.memory.cachedPerms, cached = tree entry.taken.world.store

/-- The second look at the mode, taken in `last`, fits the tree and the first look.
With the mode set by then, the tree is the one that is stored by then; a caller
without an account had its first look at a store without a journal and without
rules under the global label.  With the mode not set, a tree of account buckets
is the one that was stored with the journal, or has nothing under the global
label. -/
def ReadTogether (before : KeyValueStore) (origin accountId : String)
    (log : List (Entry permissionSystem)) (last : KeyValueStore) : Prop :=
  ∀ used ∈ treeReadIn log, ∀ first ∈ readIn INHERITANCE_KEY log,
    ∀ journal ∈ readIn MIGRATION_PENDING_KEY log,
    if last INHERITANCE_KEY = some true then
      tree used = tree last ∧
        (accountId = "" → first INHERITANCE_KEY = some true ∨
          before MIGRATION_PENDING_KEY = none ∧ (tree before).lookup GLOBAL_RULES_SCOPE = none)
    else
      tree used = tree journal ∨ (mode before).useGlobalDefaults = true ∨
        (tree before).lookup GLOBAL_RULES_SCOPE = none ∧
          storageLabel (storageLabel origin) = storageLabel origin

def HandsTogether (before : KeyValueStore) :
    Operation → List (Entry permissionSystem) → Entry permissionSystem → State permissionSystem → Prop
  | .check origin _ _ accountId, log, entry, state =>
    CacheFresh entry state ∧
      (entry.request.gets INHERITANCE_KEY → (readIn MIGRATION_PENDING_KEY log).isSome →
        ReadTogether before origin accountId log entry.taken.world.store)
  | _, _, _, _ => True

/-- Checks and one migration, the call number `migration`. -/
def straddling (context : PermissionMigrationContext) (before : KeyValueStore) (migration : Nat) :
    Discipline permissionSystem where
  opens := fun state => state.world.store = before
  starts := fun self operation =>
    match operation with
    | .check .. => self ≠ migration
    | .migrateToInheritance other => self = migration ∧ other = context
    | _ => False
  sound := Straddled context before
  later := fun earlier later => Onward context before earlier.world.store later.world.store
  refl := fun _ => .refl _
  trans := fun _ _ _ => .trans
  spares := fun self earlier later => self = migration → later.world.store = earlier.world.store
  spares_refl := fun _ _ _ => rfl
  spares_trans := fun _ _ _ _ left right own => (right own).trans (left own)
  may := fun _ _ _ _ => True
  delivers := fun call log entry state => HandsTogether before call.operation log entry state

section Requests

variable {context : PermissionMigrationContext} {before : KeyValueStore} {migration : Nat}
  {call : Call permissionSystem} {state : State permissionSystem}

theorem Straddled.acknowledged (straddled : Straddled context before state)
    (entry : Entry permissionSystem) : Straddled context before (state.acknowledged entry) := by
  have same := store_acknowledged state entry
  exact ⟨same ▸ straddled.phase, fun settled here =>
    straddled.cached settled (same.symm.trans here), straddled.shared⟩

theorem moves_acknowledged (mover : Nat) (state : State permissionSystem)
    (entry : Entry permissionSystem) :
    (straddling context before migration).Moves mover state (state.acknowledged entry) := by
  have same := store_acknowledged state entry
  refine ⟨?_, fun _ _ _ => same⟩
  show Onward context before state.world.store (state.acknowledged entry).world.store
  rw [same]
  exact .refl _

theorem moves_memory (mover : Nat) (state : State permissionSystem) (memory : Instance) :
    (straddling context before migration).Moves mover state { state with memory } :=
  ⟨.refl _, fun _ _ _ => rfl⟩

/-! ## The migration -/

/-- A write that takes the migration from `store` to `next`. -/
structure Leads (context : PermissionMigrationContext) (before store next : KeyValueStore) :
    Prop where
  phase : Phase context before next
  onward : Onward context before store next

theorem Leads.straddled {next : KeyValueStore} {memory : Instance} {world after : Storage}
    (leads : Leads context before world.store next) (straddled : Straddled context before ⟨memory, world⟩)
    (lands : after.store = next) : Straddled context before ⟨memory, after⟩ := by
  subst lands
  exact ⟨leads.phase, fun settled same =>
    straddled.cached settled (leads.onward.untouched settled same), straddled.shared⟩

/-- The store is this one; only the migration itself can change it. -/
abbrev At (store : KeyValueStore) : List (Entry permissionSystem) → State permissionSystem → Prop :=
  fun _ now => now.world.store = store

theorem owned_write (own : call.self = migration) {store next : KeyValueStore}
    (request : StoreRequest) (leads : Leads context before store next)
    (lands : ∀ world after : Storage, world.store = store → Landed world request after →
      after.store = store ∨ after.store = next)
    (performs : ∀ reaction (memory memory' : Instance) (world after : Storage)
      (value : request.Reply), world.store = store →
      serveRequest request reaction memory world = some (.ok value, memory', after) →
      after.store = next) :
    (straddling context before migration).Spec call (At store)
      (NostrWot.Permissions.request request) fun _ now _ => now.world.store = next := by
  refine Discipline.Spec.request (fun _ _ _ _ _ => trivial) ?_ ?_
  · intro log now earlier reaction answer memory world held waits sound served
    have here : earlier.world.store = store := (waits.spares own).trans held
    obtain ⟨rfl, landed⟩ := serveRequest_landed served
    have leads : Leads context before earlier.world.store next := here ▸ leads
    rcases lands _ _ here landed with same | same
    · have same : world.store = earlier.world.store := same.trans here.symm
      refine ⟨⟨same ▸ sound.phase, fun settled at_ => sound.cached settled (same ▸ at_),
        sound.shared⟩, ?_, fun other different own' => absurd (own'.trans own.symm) different⟩
      show Onward context before earlier.world.store world.store
      rw [same]
      exact .refl _
    · refine ⟨leads.straddled sound same, ?_, fun other different own' =>
        absurd (own'.trans own.symm) different⟩
      show Onward context before earlier.world.store world.store
      rw [same]
      exact leads.onward
  · intro log now earlier reaction answer taken final held waits sound served _ waits' sound' _ _
    refine ⟨sound'.acknowledged _, moves_acknowledged _ _ _, ?_⟩
    intro value same
    subst same
    have here : earlier.world.store = store := (waits.spares own).trans held
    rw [store_acknowledged, waits'.spares own]
    exact performs reaction _ _ _ _ value here served

theorem owned_get (own : call.self = migration) (store : KeyValueStore) (key : StoreKey) :
    (straddling context before migration).Spec call (At store) (get key)
      fun _ now value => now.world.store = store ∧ value = store key := by
  refine Discipline.Spec.request (fun _ _ _ _ _ => trivial) ?_ ?_
  · intro log now earlier reaction answer memory world held waits sound served
    obtain ⟨rfl, landed⟩ := serveRequest_landed served
    cases landed
    exact ⟨sound, .refl _ _⟩
  · intro log now earlier reaction answer taken final held waits sound served _ waits' sound' _ _
    refine ⟨sound'.acknowledged _, moves_acknowledged _ _ _, ?_⟩
    intro value same
    subst same
    obtain ⟨-, same, rfl⟩ := serveRequest_get served
    have here : earlier.world.store = store := (waits.spares own).trans held
    refine ⟨?_, by rw [here]⟩
    rw [store_acknowledged, waits'.spares own, same, here]

theorem owned_set (own : call.self = migration) {store : KeyValueStore} (key : StoreKey)
    (value : key.Value)
    (leads : Leads context before store (Function.update store key (some value))) :
    (straddling context before migration).Spec call (At store) (set key value)
      fun _ now _ => now.world.store = Function.update store key (some value) := by
  refine owned_write own (.set key value) leads ?_ ?_
  · intro world after here landed
    cases landed with
    | nothing => exact .inl here
    | set => exact .inr (by simp [Storage.put, here])
  · intro reaction memory memory' world after _ here served
    cases reaction with
    | fail => simp [serveRequest] at served
    | perform =>
      cases served
      simp [Storage.put, here]

theorem owned_remove (own : call.self = migration) {store : KeyValueStore} {key : StoreKey}
    (leads : Leads context before store (Function.update store key none)) :
    (straddling context before migration).Spec call (At store) (remove key)
      fun _ now _ => now.world.store = Function.update store key none := by
  refine owned_write own (.remove key) leads ?_ ?_
  · intro world after here landed
    cases landed with
    | nothing => exact .inl here
    | remove => exact .inr (by simp [Storage.put, here])
  · intro reaction memory memory' world after _ here served
    cases reaction with
    | fail => simp [serveRequest] at served
    | perform =>
      cases served
      simp [Storage.put, here]

theorem owned_then {α β : Type} {program : Task α} {next : α → Task β}
    {first middle : KeyValueStore} {fact : α → Prop}
    {post : List (Entry permissionSystem) → State permissionSystem → β → Prop}
    (spec : (straddling context before migration).Spec call (At first) program
      fun _ now value => now.world.store = middle ∧ fact value)
    (rest : ∀ value, fact value →
      (straddling context before migration).Spec call (At middle) (next value) post) :
    (straddling context before migration).Spec call (At first) (program >>= next) post := by
  refine .bind _ spec fun log now held value => .known (fun _ _ known => known.2.2.2) fun fact => ?_
  exact (rest value fact).weaken (fun _ _ _ _ known => known.2.2.1) fun _ _ _ _ done => done

theorem owned_seq {β : Type} {program : Task Unit} {next : Unit → Task β}
    {first middle : KeyValueStore}
    {post : List (Entry permissionSystem) → State permissionSystem → β → Prop}
    (spec : (straddling context before migration).Spec call (At first) program
      fun _ now _ => now.world.store = middle)
    (rest : (straddling context before migration).Spec call (At middle) (next ()) post) :
    (straddling context before migration).Spec call (At first) (program >>= next) post :=
  owned_then (spec.weaken (fun _ _ _ _ held => held) fun _ _ _ _ done =>
    (⟨done, trivial⟩ : _ ∧ (fun _ => True) ())) fun _ _ => rest

theorem straddled_invalidate (mover : Nat) (straddled : Straddled context before state) :
    Straddled context before { state with memory := state.memory.invalidateCache } ∧
      (straddling context before migration).Moves mover state
        { state with memory := state.memory.invalidateCache } :=
  ⟨⟨straddled.phase, fun _ _ => .invalidated _ _, by simp [Instance.invalidateCache]⟩,
    moves_memory _ _ _⟩

section Journal

variable {pending : PendingMigration} {store : KeyValueStore}

theorem Passing.set_tree (passing : Passing context before store)
    (underway : Underway pending (inherited context before).2 store) :
    Passing context before (Function.update store PERMISSIONS_STORAGE_KEY (some pending.tree)) := by
  have written : KeyValueStore.tree
      (Function.update store PERMISSIONS_STORAGE_KEY (some pending.tree)) =
      KeyValueStore.tree (inherited context before).2 := by
    rw [← underway.2]
    rfl
  exact ⟨passing.target, passing.journal, fun _ => .inr written, fun _ _ => written, passing.shared⟩

theorem Passing.set_defaults (passing : Passing context before store) :
    Passing context before (Function.update store GLOBAL_DEFAULTS_KEY (some false)) := by
  refine ⟨passing.target, passing.journal, passing.tree, passing.inherits, fun shared => ?_⟩
  simp [mode] at shared

theorem Passing.set_inherits (passing : Passing context before store)
    (written : KeyValueStore.tree store = KeyValueStore.tree (inherited context before).2) :
    Passing context before (Function.update store INHERITANCE_KEY (some true)) :=
  ⟨passing.target, passing.journal, passing.tree, fun _ _ => written, passing.shared⟩

theorem Passing.set_version (passing : Passing context before store) :
    Passing context before (Function.update store GLOBAL_RULES_VERSION_KEY (some (1 : Nat))) :=
  ⟨passing.target, passing.journal, passing.tree, passing.inherits, passing.shared⟩

theorem owned_finishMigration (own : call.self = migration)
    (journaled : ∀ pending, store MIGRATION_PENDING_KEY = some pending →
      Passing context before store ∧ settle store = (inherited context before).2 ∧
        (before MIGRATION_PENDING_KEY = none → before INHERITANCE_KEY ≠ some true)) :
    (straddling context before migration).Spec call (At store) finishMigration
      fun _ now _ => now.world.store = settle store := by
  refine owned_then (owned_get own store MIGRATION_PENDING_KEY) fun journal same => ?_
  subst same
  cases present : store MIGRATION_PENDING_KEY with
  | none =>
    rw [settle_of_none present]
    exact .pure fun _ _ _ _ held => held
  | some pending =>
    obtain ⟨passing, target, legacy⟩ := journaled pending present
    have underway : Underway pending (inherited context before).2 store :=
      ⟨present, by rw [← target, settle_of_some present]⟩
    rw [target]
    have passing₁ := passing.set_tree underway
    have underway₁ := underway.update PERMISSIONS_STORAGE_KEY trivial (by decide)
      (some pending.tree)
    have passing₂ := passing₁.set_defaults
    have underway₂ := underway₁.update GLOBAL_DEFAULTS_KEY trivial (by decide) (some false)
    have passing₃ := passing₂.set_inherits (by rw [← underway.2]; rfl)
    have underway₃ := underway₂.update INHERITANCE_KEY trivial (by decide) (some true)
    have ending : ∀ {last : KeyValueStore}, Passing context before last →
        Underway pending (inherited context before).2 last →
        (∀ key, pending.Writes key → key ≠ MIGRATION_PENDING_KEY →
          last key = (inherited context before).2 key) →
        (straddling context before migration).Spec call (At last) (remove MIGRATION_PENDING_KEY)
          fun _ now _ => now.world.store = (inherited context before).2 := by
      intro last passing underway written
      have ends := underway.completed written
      have leads : Leads context before last (Function.update last MIGRATION_PENDING_KEY none) := by
        rw [ends]
        refine ⟨.complete, fun settled same => ?_, fun _ => rfl⟩
        have inherits : (inherited context before).2 INHERITANCE_KEY = some true := by
          rw [← underway.2]
          rfl
        rw [same] at inherits
        exact absurd inherits (legacy settled)
      have removed := owned_remove own leads
      rw [ends] at removed
      exact removed
    have written : ∀ key, pending.Writes key → key ≠ MIGRATION_PENDING_KEY →
        key ≠ GLOBAL_RULES_VERSION_KEY →
        Function.update (Function.update (Function.update store PERMISSIONS_STORAGE_KEY
          (some pending.tree)) GLOBAL_DEFAULTS_KEY (some false)) INHERITANCE_KEY (some true) key =
          (inherited context before).2 key := by
      intro key writes journaled versioned
      rw [← underway.2]
      cases key <;> simp_all [replay, PendingMigration.Writes]
    refine .finallyDo (fun _ now _ => now.world.store = (inherited context before).2) ?_
      (fun _ sound => straddled_invalidate _ sound) fun _ _ _ _ done => done
    refine owned_seq (owned_set own PERMISSIONS_STORAGE_KEY pending.tree ⟨.passing passing₁, passing.onward passing₁⟩) ?_
    refine owned_seq (owned_set own GLOBAL_DEFAULTS_KEY false ⟨.passing passing₂, passing₁.onward passing₂⟩) ?_
    refine owned_seq (owned_set own INHERITANCE_KEY true ⟨.passing passing₃, passing₂.onward passing₃⟩) ?_
    unfold markConsolidated
    cases global : pending.global with
    | false =>
      refine owned_seq (.pure fun _ _ _ _ held => held) (ending passing₃ underway₃ ?_)
      intro key writes journaled
      refine written key writes journaled fun versioned => ?_
      subst versioned
      simp [PendingMigration.Writes, global] at writes
    | true =>
      have passing₄ := passing₃.set_version
      have underway₄ := underway₃.update GLOBAL_RULES_VERSION_KEY global (by decide)
        (some (1 : Nat))
      refine owned_seq (owned_set own GLOBAL_RULES_VERSION_KEY (1 : Nat)
        ⟨.passing passing₄, passing₃.onward passing₄⟩) (ending passing₄ underway₄ ?_)
      intro key writes journaled
      by_cases versioned : key = GLOBAL_RULES_VERSION_KEY
      · subst versioned
        rw [Function.update_self, ← underway.2]
        simp [replay, global]
      · rw [Function.update_of_ne versioned]
        exact written key writes journaled versioned

end Journal

section Migration

theorem Straddled.of_caches (straddled : Straddled context before state) {memory : Instance}
    (perms : memory.cachedPerms = state.memory.cachedPerms)
    (flag : memory.cachedUseGlobalDefaults = state.memory.cachedUseGlobalDefaults) :
    Straddled context before { state with memory } := by
  refine ⟨straddled.phase, fun settled here => ?_, fun shared => straddled.shared (flag ▸ shared)⟩
  have cached := straddled.cached settled here
  exact ⟨fun tree found => cached.perms tree (perms ▸ found),
    fun shared found => cached.flag shared (flag ▸ found)⟩

theorem owned_inherits (own : call.self = migration) (store : KeyValueStore) :
    (straddling context before migration).Spec call (At store) inherits
      fun _ now value => now.world.store = store ∧ value = (mode store).inherits := by
  refine owned_then (owned_get own store INHERITANCE_KEY) fun value same => ?_
  subst same
  exact .pure fun _ _ _ _ held => ⟨held, rfl⟩

theorem owned_load (own : call.self = migration) (settled : before MIGRATION_PENDING_KEY = none) :
    (straddling context before migration).Spec call (At before) load
      fun _ now value => now.world.store = before ∧ value = tree before := by
  refine owned_then (owned_get own before MIGRATION_PENDING_KEY) fun pending same => ?_
  rw [settled] at same
  subst same
  have recalled : (straddling context before migration).Spec call (At before)
      (peek Instance.cachedPerms) fun _ now value =>
        now.world.store = before ∧ ∀ cached ∈ value, cached = tree before :=
    .read fun _ _ sound _ held => ⟨held, (sound.cached settled held).perms⟩
  refine owned_then recalled fun cached same => ?_
  cases cached with
  | some perms =>
    obtain rfl := same perms rfl
    exact .pure fun _ _ _ _ held => ⟨held, rfl⟩
  | none =>
    refine owned_then (owned_get own before PERMISSIONS_STORAGE_KEY) fun stored same => ?_
    subst same
    refine owned_seq (.modify fun log now sound _ held => ?_) (.pure fun _ _ _ _ held => ⟨held, rfl⟩)
    refine ⟨⟨sound.phase, fun _ _ => ⟨?_, (sound.cached settled held).flag⟩, sound.shared⟩,
      moves_memory _ _ _, held⟩
    intro perms found
    cases found
    rfl

theorem owned_getUseGlobalDefaults (own : call.self = migration)
    (settled : before MIGRATION_PENDING_KEY = none) :
    (straddling context before migration).Spec call (At before) getUseGlobalDefaults
      fun _ now value => now.world.store = before ∧ value = (mode before).useGlobalDefaults := by
  have recalled : (straddling context before migration).Spec call (At before)
      (peek Instance.cachedUseGlobalDefaults) fun _ now value =>
        now.world.store = before ∧ ∀ cached ∈ value, cached = (mode before).useGlobalDefaults :=
    .read fun _ _ sound _ held => ⟨held, (sound.cached settled held).flag⟩
  refine owned_then recalled fun cached same => ?_
  cases cached with
  | some shared =>
    obtain rfl := same shared rfl
    exact .pure fun _ _ _ _ held => ⟨held, rfl⟩
  | none =>
    refine owned_then (owned_get own before GLOBAL_DEFAULTS_KEY) fun stored same => ?_
    subst same
    refine owned_seq (.modify fun log now sound _ held => ?_) (.pure fun _ _ _ _ held => ⟨held, rfl⟩)
    refine ⟨⟨sound.phase, fun _ _ => ⟨(sound.cached settled held).perms, ?_⟩, ?_⟩,
      moves_memory _ _ _, held⟩
    · intro shared found
      cases found
      rfl
    · intro shared
      exact Option.some.inj shared

theorem owned_liftExcept {α : Type} (store : KeyValueStore)
    (result : Except String α) :
    (straddling context before migration).Spec call (At store) (liftExcept result)
      fun _ now value => now.world.store = store ∧ result = .ok value := by
  cases result with
  | error message => exact .throw
  | ok value => exact .pure fun _ _ _ _ held => ⟨held, rfl⟩

theorem owned_turn (own : call.self = migration) {lock : LockName} {self : Nat} :
    (straddling context before migration).Spec call (At before) (request (.turn lock self))
      fun _ now _ => now.world.store = before := by
  refine owned_write own (.turn lock self) ⟨.untouched, .refl before⟩ ?_ ?_
  · intro world after here landed
    cases landed
    exact .inl here
  · intro reaction memory memory' world after value here served
    rw [(serveRequest_turn served).2, here]

theorem Passing.begins (pending : PendingMigration)
    (target : (inherited context before).2 INHERITANCE_KEY = some true)
    (legacy : before INHERITANCE_KEY ≠ some true) :
    Passing context before (Function.update before MIGRATION_PENDING_KEY (some pending)) :=
  ⟨target, rfl, fun _ => .inl rfl, fun _ inherits => absurd inherits legacy, id⟩

theorem owned_migrateToInheritance (own : call.self = migration) (self : Nat) :
    (straddling context before migration).Spec call (At before) (migrateToInheritance self context)
      fun _ _ _ => True := by
  refine owned_seq (.modify fun _ _ sound _ held =>
    ⟨sound.of_caches rfl rfl, moves_memory _ _ _, held⟩) ?_
  refine owned_seq (owned_turn own) ?_
  refine .finallyDo (fun _ _ _ => True) ?_
    (fun _ sound => ⟨sound.of_caches rfl rfl, moves_memory _ _ _⟩) fun _ _ _ _ done => done
  have finished : (straddling context before migration).Spec call (At before) finishMigration
      fun _ now _ => now.world.store = settle before := by
    refine owned_finishMigration own fun pending journal => ⟨?_, ?_, ?_⟩
    · refine ⟨by rw [inherited_of_journal context journal]; rfl, by rw [journal]; rfl, ?_, ?_, id⟩
      · intro none
        rw [journal] at none
        contradiction
      · intro none
        rw [journal] at none
        contradiction
    · rw [inherited_of_journal context journal, settle_of_some journal]
    · intro none
      rw [journal] at none
      contradiction
  refine owned_seq finished (owned_then (owned_inherits own (settle before)) fun inheriting same => ?_)
  subst same
  cases inheriting : (mode (settle before)).inherits with
  | true => exact .pure fun _ _ _ _ _ => trivial
  | false =>
    have legacy : settle before INHERITANCE_KEY ≠ some true := of_decide_eq_false inheriting
    have settled : before MIGRATION_PENDING_KEY = none := by
      cases journal : before MIGRATION_PENDING_KEY with
      | none => rfl
      | some pending =>
        rw [settle_of_some journal] at legacy
        exact absurd rfl legacy
    rw [settle_of_none settled] at legacy ⊢
    refine owned_then (owned_load own settled) fun original same => ?_
    subst same
    refine owned_then (owned_liftExcept before _) fun ids accounts => ?_
    refine owned_then (owned_getUseGlobalDefaults own settled) fun shared same => ?_
    subst same
    have ends := inherited_of_legacy settled legacy accounts
    have target : (inherited context before).2 INHERITANCE_KEY = some true := by
      rw [ends]
      rfl
    have passing := Passing.begins
      ⟨inheritanceTree (mode before).useGlobalDefaults (tree before) ids, false⟩ target legacy
    refine owned_seq (owned_set own MIGRATION_PENDING_KEY _ ⟨.passing passing, fun _ _ => rfl, ?_⟩) ?_
    · intro complete
      refine absurd ?_ legacy
      rw [complete, ends]
      rfl
    · refine (owned_finishMigration own fun pending journal => ⟨passing, ?_, fun _ => legacy⟩).weaken
        (fun _ _ _ _ held => held) fun _ _ _ _ _ => trivial
      rw [settle_of_some (Function.update_self ..), replay_update MIGRATION_PENDING_KEY trivial, ends]

end Migration

end Requests

/-! ## The check -/

section Check

variable {context : PermissionMigrationContext} {before : KeyValueStore} {migration : Nat}
  {call : Call permissionSystem}

theorem readIn_append (key : StoreKey) (log : List (Entry permissionSystem))
    (entry : Entry permissionSystem) :
    readIn key (log ++ [entry]) = (readIn key log).or
      (if entry.request.gets key then some entry.taken.world.store else none) := by
  unfold readIn
  rw [List.find?_append, List.find?_singleton]
  cases log.find? fun entry => entry.request.gets key with
  | some found => rfl
  | none => cases entry.request.gets key <;> rfl

/-- What a read of a check is answered: what the store held at one moment, on
the way from the last one. -/
theorem straddled_get (key : StoreKey)
    {pre : List (Entry permissionSystem) → State permissionSystem → Prop} :
    (straddling context before migration).Spec call pre (get key) fun log now value =>
      ∃ earlier issued taken, pre earlier issued ∧ log = earlier ++ [⟨.get key, .ok value, taken⟩] ∧
        value = taken.world.store key ∧ Phase context before taken.world.store ∧
        Onward context before issued.world.store taken.world.store ∧
        Onward context before taken.world.store now.world.store ∧
        (straddling context before migration).delivers call earlier ⟨.get key, .ok value, taken⟩ now := by
  refine Discipline.Spec.request (fun _ _ _ _ _ => trivial) ?_ ?_
  · intro log now earlier reaction answer memory world held waits sound served
    obtain ⟨rfl, landed⟩ := serveRequest_landed served
    cases landed
    exact ⟨sound, .refl _ _⟩
  · intro log now earlier reaction answer taken final held waits sound served _ waits' sound' _
      delivered
    refine ⟨sound'.acknowledged _, moves_acknowledged _ _ _, ?_⟩
    intro value same
    subst same
    obtain ⟨-, world, same⟩ := serveRequest_get served
    refine ⟨log, now, taken, held, rfl, by rw [same, world], world ▸ sound.phase,
      world ▸ waits.later, ?_, delivered⟩
    rw [store_acknowledged]
    exact waits'.later

/-- What a check knows after its first look at the mode, taken in `first`. -/
structure Looked (context : PermissionMigrationContext) (before : KeyValueStore)
    (log : List (Entry permissionSystem)) (now first : KeyValueStore) : Prop where
  read : readIn INHERITANCE_KEY log = some first
  journal : readIn MIGRATION_PENDING_KEY log = none
  tree : readIn PERMISSIONS_STORAGE_KEY log = none
  phase : Phase context before first
  onward : Onward context before first now

/-- The shared mode a check works with is that of the store the migration found,
as far as it matters. -/
structure KnowsShared (before now : KeyValueStore) (shared : Bool) : Prop where
  untouched : before MIGRATION_PENDING_KEY = none → now = before →
    shared = (mode before).useGlobalDefaults
  enabled : shared = true → (mode before).useGlobalDefaults = true

theorem KnowsShared.onward {earlier later : KeyValueStore} {shared : Bool}
    (knows : KnowsShared before earlier shared) (onward : Onward context before earlier later) :
    KnowsShared before later shared :=
  ⟨fun settled same => knows.untouched settled (onward.untouched settled same), knows.enabled⟩

variable {log : List (Entry permissionSystem)}

theorem Looked.append {now later first : KeyValueStore}
    (looked : Looked context before log now first) (onward : Onward context before now later)
    (entry : Entry permissionSystem) (other : entry.request.gets MIGRATION_PENDING_KEY = false)
    (another : entry.request.gets PERMISSIONS_STORAGE_KEY = false) :
    Looked context before (log ++ [entry]) later first := by
  refine ⟨?_, ?_, ?_, looked.phase, looked.onward.trans onward⟩
  · rw [readIn_append, looked.read, Option.some_or]
  · rw [readIn_append, looked.journal, other]
    rfl
  · rw [readIn_append, looked.tree, another]
    rfl

theorem looked_inherits :
    (straddling context before migration).Spec call (fun log _ => log = []) inherits
      fun log now value => ∃ first, Looked context before log now.world.store first ∧
        value = (mode first).inherits := by
  refine .bind _ (straddled_get INHERITANCE_KEY) fun _ _ _ value => .pure ?_
  intro log now _ _ held
  obtain ⟨later, -, earlier, issued, taken, rfl, rfl, rfl, phase, -, onward, -⟩ := held
  exact ⟨taken.world.store, ⟨rfl, rfl, rfl, phase, onward⟩, rfl⟩

theorem looked_getUseGlobalDefaults {first : KeyValueStore} :
    (straddling context before migration).Spec call
      (fun log now => Looked context before log now.world.store first) getUseGlobalDefaults
      fun log now value => Looked context before log now.world.store first ∧
        KnowsShared before now.world.store value := by
  have recalled : (straddling context before migration).Spec call
      (fun log now => Looked context before log now.world.store first)
      (peek Instance.cachedUseGlobalDefaults) fun log now value =>
        Looked context before log now.world.store first ∧
          ∀ shared ∈ value, KnowsShared before now.world.store shared := by
    refine .read fun log now sound _ looked => ⟨looked, fun shared found => ⟨?_, ?_⟩⟩
    · intro settled here
      exact (sound.cached settled here).flag shared found
    · intro enabled
      subst enabled
      exact sound.shared found
  refine .bind _ recalled fun _ _ _ cached => ?_
  cases cached with
  | some shared =>
    exact .pure fun _ _ _ _ held => ⟨held.2.2.1, held.2.2.2 shared rfl⟩
  | none =>
    refine .bind _ (straddled_get GLOBAL_DEFAULTS_KEY) fun _ _ _ stored => ?_
    have remembered : (straddling context before migration).Spec call
        (fun log now => Looked context before log now.world.store first ∧
          KnowsShared before now.world.store (decide (stored ≠ some false)))
        (remember fun memory => { memory with
          cachedUseGlobalDefaults := some (decide (stored ≠ some false)) })
        fun log now _ => Looked context before log now.world.store first ∧
          KnowsShared before now.world.store (decide (stored ≠ some false)) := by
      refine .modify fun log now sound _ held => ⟨⟨sound.phase, ?_, ?_⟩, moves_memory _ _ _, held⟩
      · intro settled here
        refine ⟨(sound.cached settled here).perms, fun shared found => ?_⟩
        cases found
        exact held.2.untouched settled here
      · intro enabled
        exact held.2.enabled (Option.some.inj enabled)
    refine .bind _ (remembered.weaken ?_ fun _ _ _ _ done => done) fun _ _ _ _ =>
      .pure fun _ _ _ _ held => held.2.2
    intro log now _ _ held
    obtain ⟨later, -, earlier, issued, taken, ⟨-, -, looked, -⟩, rfl, rfl, phase, reaches, onward,
      -⟩ := held
    refine ⟨looked.append (reaches.trans onward) _ rfl rfl, ?_, ?_⟩
    · intro settled here
      have same := onward.untouched settled here
      rw [same]
      rfl
    · exact phase.shared

theorem looked_activeBucket (accountId : String) :
    (straddling context before migration).Spec call (fun log _ => log = []) (activeBucket accountId)
      fun log now bucket => ∃ first shared, Looked context before log now.world.store first ∧
        KnowsShared before now.world.store shared ∧
        bucket = (Mode.mk (mode first).inherits shared).activeBucket accountId := by
  refine .bind _ looked_inherits fun _ _ _ inheriting => ?_
  refine .among (fun first log now => Looked context before log now.world.store first ∧
    inheriting = (mode first).inherits) (fun _ _ held => held.2.2) fun first => ?_
  refine .known (fun _ _ held => held.2) fun inherits => ?_
  cases inheriting with
  | true =>
    refine .pure fun log now _ _ held => ⟨first, (mode before).useGlobalDefaults, held.1, ?_, ?_⟩
    · exact ⟨fun _ _ => rfl, id⟩
    · simp [Mode.activeBucket, ← inherits]
  | false =>
    have shared : (straddling context before migration).Spec call
        (fun log now => Looked context before log now.world.store first ∧
          false = (mode first).inherits) getUseGlobalDefaults
        fun log now value => Looked context before log now.world.store first ∧
          KnowsShared before now.world.store value :=
      looked_getUseGlobalDefaults.weaken (fun _ _ _ _ held => held.1) fun _ _ _ _ done => done
    refine .bind _ shared fun _ _ _ enabled => ?_
    cases enabled with
    | true =>
      refine .pure fun log now _ _ held => ⟨first, true, held.2.2.1, held.2.2.2, ?_⟩
      simp [Mode.activeBucket, ← inherits]
    | false =>
      refine .pure fun log now _ _ held => ⟨first, false, held.2.2.1, held.2.2.2, ?_⟩
      simp [Mode.activeBucket, ← inherits]

/-- What a check knows once it found no journal: the stores in which it looked at
the mode and for the journal. -/
structure Unblocked (context : PermissionMigrationContext) (before : KeyValueStore)
    (log : List (Entry permissionSystem)) (now first journal : KeyValueStore) (shared : Bool) :
    Prop where
  read : readIn INHERITANCE_KEY log = some first
  found : readIn MIGRATION_PENDING_KEY log = some journal
  settled : journal MIGRATION_PENDING_KEY = none
  phase : Phase context before journal
  looked : Onward context before first journal
  onward : Onward context before journal now
  shared : KnowsShared before journal shared

/-- What it knows once it has its tree, from the store `used`. -/
structure HasTree (context : PermissionMigrationContext) (before : KeyValueStore)
    (log : List (Entry permissionSystem)) (now first journal used : KeyValueStore) (shared : Bool) :
    Prop where
  unblocked : Unblocked context before log used first journal shared
  taken : treeReadIn log = some used
  phase : Phase context before used
  onward : Onward context before used now

theorem looked_load {origin method accountId : String} {kind : KindArgument}
    (checks : call.operation = .check origin method kind accountId) {first : KeyValueStore}
    {shared : Bool} :
    (straddling context before migration).Spec call
      (fun log now => Looked context before log now.world.store first ∧
        KnowsShared before now.world.store shared) load
      fun log now value => ∃ journal used,
        HasTree context before log now.world.store first journal used shared ∧ value = tree used := by
  have unblocked : (straddling context before migration).Spec call
      (fun log now => Looked context before log now.world.store first ∧
        KnowsShared before now.world.store shared) (get MIGRATION_PENDING_KEY)
      fun log now pending => pending = none → ∃ journal,
        Unblocked context before log now.world.store first journal shared ∧
        readIn PERMISSIONS_STORAGE_KEY log = none ∧
        ∀ cached ∈ now.memory.cachedPerms, cached = tree journal := by
    refine (straddled_get MIGRATION_PENDING_KEY).weaken (fun _ _ _ _ held => held) ?_
    intro log now pending _ held settled
    subst settled
    obtain ⟨earlier, issued, taken, ⟨looked, knows⟩, rfl, settled, phase, reaches, onward, fresh⟩ := held
    simp only [straddling, HandsTogether, checks] at fresh
    refine ⟨taken.world.store, ⟨?_, ?_, settled.symm, phase, looked.onward.trans reaches, onward,
      knows.onward reaches⟩, ?_, fresh.1 rfl⟩
    · rw [readIn_append, looked.read, Option.some_or]
    · rw [readIn_append, looked.journal]
      rfl
    · rw [readIn_append, looked.tree]
      rfl
  refine .bind _ unblocked fun _ _ _ pending => ?_
  cases pending with
  | some pending => exact .throw
  | none =>
    refine .among (fun journal log now =>
      Unblocked context before log now.world.store first journal shared ∧
      readIn PERMISSIONS_STORAGE_KEY log = none ∧
      ∀ cached ∈ now.memory.cachedPerms, cached = tree journal)
      (fun _ _ held => held.2.2 rfl) fun journal => ?_
    have recalled : (straddling context before migration).Spec call
        (fun log now => Unblocked context before log now.world.store first journal shared ∧
          readIn PERMISSIONS_STORAGE_KEY log = none ∧
          ∀ cached ∈ now.memory.cachedPerms, cached = tree journal)
        (peek Instance.cachedPerms) fun log now value =>
          Unblocked context before log now.world.store first journal shared ∧
          readIn PERMISSIONS_STORAGE_KEY log = none ∧ ∀ cached ∈ value, cached = tree journal :=
      .read fun _ _ _ _ held => held
    refine .bind _ recalled fun _ _ _ cached => ?_
    cases cached with
    | some perms =>
      refine .pure fun log now _ _ held => ?_
      obtain ⟨-, -, unblocked, unread, fresh⟩ := held
      refine ⟨journal, journal, ⟨?_, ?_, unblocked.phase, unblocked.onward⟩, fresh perms rfl⟩
      · exact { unblocked with onward := .refl _ }
      · rw [treeReadIn, unread, unblocked.found]
        rfl
    | none =>
      refine .bind _ (straddled_get PERMISSIONS_STORAGE_KEY) fun _ _ _ stored => ?_
      refine .among (fun used log now =>
        HasTree context before log now.world.store first journal used shared ∧
        stored.getD ∅ = tree used) ?_ fun used => ?_
      · intro log now held
        obtain ⟨-, -, earlier, issued, taken, ⟨-, -, unblocked, unread, -⟩, rfl, rfl, phase,
          reaches, onward, -⟩ := held
        refine ⟨taken.world.store, ⟨⟨?_, ?_, unblocked.settled, unblocked.phase,
          unblocked.looked, unblocked.onward.trans reaches, unblocked.shared⟩, ?_, phase,
          onward⟩, rfl⟩
        · rw [readIn_append, unblocked.read, Option.some_or]
        · rw [readIn_append, unblocked.found, Option.some_or]
        · rw [treeReadIn, readIn_append, unread]
          rfl
      · have remembered : (straddling context before migration).Spec call
            (fun log now => HasTree context before log now.world.store first journal used shared ∧
              stored.getD ∅ = tree used)
            (remember fun memory => { memory with cachedPerms := some (stored.getD ∅) })
            fun log now _ => HasTree context before log now.world.store first journal used shared ∧
              stored.getD ∅ = tree used := by
          refine .modify fun log now sound _ held =>
            ⟨⟨sound.phase, ?_, sound.shared⟩, moves_memory _ _ _, held⟩
          intro settled here
          refine ⟨fun perms found => ?_, (sound.cached settled here).flag⟩
          cases found
          rw [held.2, held.1.onward.untouched settled here]
        refine .bind _ remembered fun _ _ _ _ => .pure fun _ _ _ _ held => ?_
        exact ⟨journal, used, held.2.2.1, held.2.2.2⟩

def Answers (context : PermissionMigrationContext) (before : KeyValueStore)
    (origin accountId : String) (rules : PermissionBucket) : Prop :=
  (before MIGRATION_PENDING_KEY = none ∧
      ∀ key, rules.lookup key = ((mode before).rules (tree before) origin accountId).lookup key) ∨
    ∀ key, rules.lookup key = ((mode (inherited context before).2).rules
      (tree (inherited context before).2) origin accountId).lookup key

theorem answers_none {now first : KeyValueStore} {shared : Bool} {origin accountId : String}
    (looked : Looked context before log now first) (knows : KnowsShared before now shared)
    (phase : Phase context before now)
    (none : (Mode.mk (mode first).inherits shared).activeBucket accountId = none) :
    Answers context before origin accountId ∅ := by
  right
  intro key
  have anonymous : accountId = "" := by
    unfold Mode.activeBucket at none
    split at none
    · contradiction
    · split at none
      · assumption
      · contradiction
  subst anonymous
  by_cases target : (inherited context before).2 INHERITANCE_KEY = some true
  · have inherits : (mode (inherited context before).2).inherits = true := decide_eq_true target
    simp [Mode.rules, Mode.activeBucket, inherits]
  · have legacy : (mode before).inherits = false := by
      rw [(inherited_of_failed target).2] at target
      exact decide_eq_false target
    rw [looked.phase.of_failed target, legacy,
      knows.untouched (inherited_of_failed target).1 (phase.of_failed target)] at none
    have same : mode before = ⟨false, (mode before).useGlobalDefaults⟩ := by
      rw [← legacy]
    rw [(inherited_of_failed target).2, Mode.rules, same, none]

theorem inherited_of_target (settled : before MIGRATION_PENDING_KEY = none)
    (legacy : before INHERITANCE_KEY ≠ some true)
    (target : (inherited context before).2 INHERITANCE_KEY = some true) :
    ∃ ids, migrationAccounts (tree before) context = .ok ids ∧
      tree (inherited context before).2 =
        inheritanceTree (mode before).useGlobalDefaults (tree before) ids := by
  cases accounts : migrationAccounts (tree before) context with
  | ok ids => exact ⟨ids, rfl, by rw [inherited_of_legacy settled legacy accounts]; rfl⟩
  | error message =>
    have stays : (inherited context before).2 = before := by
      simp only [inherited, settle_of_none settled, if_neg legacy, accounts]
    rw [stays] at target
    exact absurd target legacy

section Answered

variable {log : List (Entry permissionSystem)} {now first journal used last : KeyValueStore}
  {shared : Bool} {origin accountId bucket : String}

theorem rules_of_legacy (bucket : String) (legacy : before INHERITANCE_KEY ≠ some true)
    (active : (Mode.mk false (mode before).useGlobalDefaults).activeBucket accountId = some bucket) :
    (mode before).rules (tree before) origin accountId =
      originPermissionBucket (tree before) origin bucket := by
  have same : mode before = ⟨false, (mode before).useGlobalDefaults⟩ := by
    have old : (mode before).inherits = false := decide_eq_false legacy
    rw [← old]
  rw [same]
  simp only [Mode.rules, active, Bool.false_eq_true, if_false]

theorem answers_failed (has : HasTree context before log now first journal used shared)
    (phase : Phase context before last)
    (active : (Mode.mk (mode first).inherits shared).activeBucket accountId = some bucket)
    (target : (inherited context before).2 INHERITANCE_KEY ≠ some true) :
    Answers context before origin accountId
      (if (mode last).inherits then effectiveOriginPermissions (tree used) origin accountId
      else originPermissionBucket (tree used) origin bucket) := by
  obtain ⟨settled, stays⟩ := inherited_of_failed target
  have legacy : before INHERITANCE_KEY ≠ some true := by rwa [stays] at target
  have old : (mode before).inherits = false := decide_eq_false legacy
  have usedSame := has.phase.of_failed target
  have journalSame := has.unblocked.phase.of_failed target
  have firstSame : first = before := has.unblocked.looked.untouched settled journalSame
  rw [firstSame, old, has.unblocked.shared.untouched settled journalSame] at active
  left
  refine ⟨settled, fun key => ?_⟩
  rw [phase.of_failed target, usedSame, old, rules_of_legacy bucket legacy active]
  rfl

theorem answers_set (has : HasTree context before log now first journal used shared)
    (active : (Mode.mk (mode first).inherits shared).activeBucket accountId = some bucket)
    (target : (inherited context before).2 INHERITANCE_KEY = some true)
    (same : tree used = tree (inherited context before).2)
    (anonymous : accountId = "" → first INHERITANCE_KEY = some true ∨
      before MIGRATION_PENDING_KEY = none ∧ (tree before).lookup GLOBAL_RULES_SCOPE = none) :
    Answers context before origin accountId
      (effectiveOriginPermissions (tree used) origin accountId) := by
  by_cases empty : accountId = ""
  · subst empty
    have legacyFirst : (mode first).inherits = false := by
      by_contra set
      rw [Bool.not_eq_false] at set
      simp [Mode.activeBucket, set] at active
    have enabled : shared = true := by
      by_contra off
      simp [Mode.activeBucket, off] at active
    subst enabled
    obtain ⟨settled, absent⟩ := (anonymous rfl).resolve_left (of_decide_eq_false legacyFirst)
    have sharedBefore := has.unblocked.shared.enabled rfl
    have legacy : before INHERITANCE_KEY ≠ some true := by
      intro already
      have stays := inherited_of_inherits context settled already
      have journalSame : journal = before := by
        rcases has.unblocked.phase.settled has.unblocked.settled with same | same
        · exact same
        · rw [same, stays]
      have firstSame := has.unblocked.looked.untouched settled journalSame
      rw [firstSame] at legacyFirst
      exact of_decide_eq_false legacyFirst already
    obtain ⟨ids, -, written⟩ := inherited_of_target settled legacy target
    left
    refine ⟨settled, fun key => ?_⟩
    rw [same, written, sharedBefore, lookup_effective_inheritanceTree_anonymous absent,
      rules_of_legacy DEFAULT_BUCKET legacy (by rw [sharedBefore]; rfl)]
  · right
    intro key
    have set : (mode (inherited context before).2).inherits = true := decide_eq_true target
    simp [same, Mode.rules, Mode.activeBucket, set, empty]

theorem answers_unset (settled : before MIGRATION_PENDING_KEY = none)
    (legacy : before INHERITANCE_KEY ≠ some true)
    (active : (Mode.mk false (mode before).useGlobalDefaults).activeBucket accountId = some bucket)
    (target : (inherited context before).2 INHERITANCE_KEY = some true)
    (phase : Phase context before used)
    (together : tree used = tree before ∨ (mode before).useGlobalDefaults = true ∨
      (tree before).lookup GLOBAL_RULES_SCOPE = none ∧
        storageLabel (storageLabel origin) = storageLabel origin) :
    Answers context before origin accountId
      (originPermissionBucket (tree used) origin bucket) := by
  have unchanged : tree used = tree before → Answers context before origin accountId
      (originPermissionBucket (tree used) origin bucket) := by
    intro same
    exact .inl ⟨settled, fun key => by rw [same, rules_of_legacy bucket legacy active]⟩
  have trees : tree used = tree before ∨ tree used = tree (inherited context before).2 := by
    cases phase with
    | untouched => exact .inl rfl
    | complete => exact .inr rfl
    | passing passing => exact passing.tree settled
  rcases trees with same | same
  · exact unchanged same
  · obtain ⟨ids, accounts, written⟩ := inherited_of_target settled legacy target
    have proper : DEFAULT_BUCKET ∉ ids := fun member => (migrationAccounts_valid accounts member).2 rfl
    rcases together with old | shared | ⟨absent, canonical⟩
    · exact unchanged old
    · rw [shared] at active written
      cases active
      left
      refine ⟨settled, fun key => ?_⟩
      rw [same, written, rules_of_legacy DEFAULT_BUCKET legacy (by rw [shared]; rfl),
        lookup_originPermissionBucket, lookup_originPermissionBucket,
        originRule_inheritanceTree_shared, if_pos rfl]
    · cases shared : (mode before).useGlobalDefaults with
      | true =>
        rw [shared] at active written
        cases active
        left
        refine ⟨settled, fun key => ?_⟩
        rw [same, written, rules_of_legacy DEFAULT_BUCKET legacy (by rw [shared]; rfl),
          lookup_originPermissionBucket, lookup_originPermissionBucket,
          originRule_inheritanceTree_shared, if_pos rfl]
      | false =>
        have rules : (mode before).rules (tree before) origin accountId = _ :=
          rules_of_legacy bucket legacy active
        rw [shared] at active written
        obtain ⟨nonempty, rfl⟩ : accountId ≠ "" ∧ accountId = bucket := by
          simpa [Mode.activeBucket] using active
        by_cases known : accountId ∈ ids
        · right
          intro key
          have set : (mode (inherited context before).2).inherits = true := decide_eq_true target
          have after : (mode (inherited context before).2).rules
              (tree (inherited context before).2) origin accountId =
              effectiveOriginPermissions (tree (inherited context before).2) origin accountId := by
            simp [Mode.rules, Mode.activeBucket, set, nonempty]
          rw [after, same, written, lookup_effective_inheritanceTree absent known proper canonical]
        · left
          refine ⟨settled, fun key => ?_⟩
          rw [same, written, rules, lookup_originPermissionBucket, lookup_originPermissionBucket,
            originRule_inheritanceTree_other known]

theorem answers_some (has : HasTree context before log now first journal used shared)
    (phase : Phase context before last) (onward : Onward context before used last)
    (together : ReadTogether before origin accountId log last)
    (active : (Mode.mk (mode first).inherits shared).activeBucket accountId = some bucket) :
    Answers context before origin accountId
      (if (mode last).inherits then effectiveOriginPermissions (tree used) origin accountId
      else originPermissionBucket (tree used) origin bucket) := by
  by_cases target : (inherited context before).2 INHERITANCE_KEY = some true
  · have read := together used has.taken first has.unblocked.read journal has.unblocked.found
    -- without a journal, the migration was not begun or was over
    rcases has.unblocked.phase.settled has.unblocked.settled with journalSame | journalSame
    · have settled : before MIGRATION_PENDING_KEY = none := journalSame ▸ has.unblocked.settled
      by_cases set : last INHERITANCE_KEY = some true
      · have inherits : (mode last).inherits = true := decide_eq_true set
        rw [if_pos set] at read
        rw [if_pos inherits]
        refine answers_set has active target (read.1.trans ?_) read.2
        cases phase with
        | untouched => rw [inherited_of_inherits context settled set]
        | complete => rfl
        | passing passing => exact passing.inherits settled set
      · have inherits : (mode last).inherits = false := decide_eq_false set
        rw [if_neg set, journalSame] at read
        rw [inherits]
        have firstSame := has.unblocked.looked.untouched settled journalSame
        have legacy : before INHERITANCE_KEY ≠ some true := by
          intro already
          have stays := inherited_of_inherits context settled already
          have complete : last = before := by
            have ends := (has.unblocked.onward.trans onward).complete (by rw [journalSame, stays])
            rw [ends, stays]
          rw [complete] at set
          exact set already
        have old : (mode before).inherits = false := decide_eq_false legacy
        rw [firstSame, old, has.unblocked.shared.untouched settled journalSame] at active
        exact answers_unset settled legacy active target has.phase read
    · have usedSame := has.unblocked.onward.complete journalSame
      have lastSame := onward.complete usedSame
      have inherits : (mode last).inherits = true := by
        rw [lastSame]
        exact decide_eq_true target
      rw [if_pos (by rw [lastSame]; exact target)] at read
      rw [if_pos inherits]
      exact answers_set has active target (by rw [usedSame]) read.2
  · exact answers_failed has phase active target

end Answered

theorem looked_getForOrigin {origin method accountId : String} {kind : KindArgument}
    (checks : call.operation = .check origin method kind accountId) :
    (straddling context before migration).Spec call (fun log _ => log = [])
      (getForOrigin origin accountId) fun _ _ rules => Answers context before origin accountId rules := by
  refine .bind _ (looked_activeBucket accountId) fun _ _ _ bucket => ?_
  refine .among (fun (look : KeyValueStore × Bool) log now => Looked context before log now.world.store look.1 ∧
    KnowsShared before now.world.store look.2 ∧
    bucket = (Mode.mk (mode look.1).inherits look.2).activeBucket accountId) ?_ fun look => ?_
  · intro log now held
    obtain ⟨-, -, first, shared, looked⟩ := held
    exact ⟨(first, shared), looked⟩
  obtain ⟨first, shared⟩ := look
  refine .known (fun _ _ held => held.2.2) fun active => ?_
  cases bucket with
  | none =>
    refine .pure fun log now sound _ held => ?_
    exact answers_none held.1 held.2.1 sound.phase active.symm
  | some bucket =>
    have loaded : (straddling context before migration).Spec call
        (fun log now => Looked context before log now.world.store first ∧
          KnowsShared before now.world.store shared ∧
          some bucket = (Mode.mk (mode first).inherits shared).activeBucket accountId) load
        fun log now value => ∃ journal used,
          HasTree context before log now.world.store first journal used shared ∧ value = tree used :=
      (looked_load checks).weaken (fun _ _ _ _ held => ⟨held.1, held.2.1⟩) fun _ _ _ _ done => done
    refine .bind _ loaded fun _ _ _ perms => ?_
    refine .among (fun (stores : KeyValueStore × KeyValueStore) log now =>
      HasTree context before log now.world.store first stores.1 stores.2 shared ∧
        perms = tree stores.2) ?_ fun stores => ?_
    · intro log now held
      obtain ⟨-, -, journal, used, has, same⟩ := held
      exact ⟨(journal, used), has, same⟩
    obtain ⟨journal, used⟩ := stores
    refine .known (fun _ _ held => held.2) fun same => ?_
    subst same
    have second : (straddling context before migration).Spec call
        (fun log now => HasTree context before log now.world.store first journal used shared ∧
          tree used = tree used) inherits
        fun _ _ value => Answers context before origin accountId
          (if value then effectiveOriginPermissions (tree used) origin accountId
          else originPermissionBucket (tree used) origin bucket) := by
      refine .bind _ (straddled_get INHERITANCE_KEY) fun _ _ _ value => .pure ?_
      intro log now _ _ held
      obtain ⟨-, -, earlier, issued, taken, ⟨has, -⟩, -, rfl, phase, reaches, -, delivered⟩ := held
      simp only [straddling, HandsTogether, checks] at delivered
      have together := delivered.2 rfl (by rw [has.unblocked.found]; rfl)
      exact answers_some has phase (has.onward.trans reaches) together active.symm
    refine .bind _ second fun _ _ _ inheriting => ?_
    cases inheriting with
    | true => exact .pure fun _ _ _ _ held => held.2.2
    | false => exact .pure fun _ _ _ _ held => held.2.2

/-- What a check answers: the decision of the store the migration found, or of
the one it leaves. -/
def AnswersAs (context : PermissionMigrationContext) (before : KeyValueStore)
    (origin method : String) (kind : KindArgument) (accountId : String)
    (decision : PermissionDecision) : Prop :=
  before MIGRATION_PENDING_KEY = none ∧ decision = decisionAt before origin method kind accountId ∨
    decision = decisionAt (inherited context before).2 origin method kind accountId

theorem method_straddling : (straddling context before migration).Method
    fun call _ _ result => ∀ origin method kind accountId,
      call.operation = .check origin method kind accountId → ∀ decision,
      result = .decision decision → AnswersAs context before origin method kind accountId decision := by
  intro ⟨self, operation, born⟩ starts sound opened
  cases operation with
  | check origin method kind accountId =>
    have looked : (straddling context before migration).Spec
        ⟨self, .check origin method kind accountId, born⟩ (fun log _ => log = [])
        (getForOrigin origin accountId)
        fun _ _ rules => Answers context before origin accountId rules := looked_getForOrigin rfl
    refine .bind (fun _ _ decision => AnswersAs context before origin method kind accountId decision)
      ?_ fun _ _ _ decision => .pure fun log now _ _ held => ?_
    · refine .bind _ (looked.weaken (fun _ _ _ _ held => held.1) fun _ _ _ _ done => done)
        fun _ _ _ rules => .pure fun log now _ _ held => ?_
      rcases held.2.2 with ⟨settled, same⟩ | same
      · exact .inl ⟨settled, resolve_congr fun key _ => same key⟩
      · exact .inr (resolve_congr fun key _ => same key)
    · intro origin' method' kind' accountId' checks decision' same
      cases checks
      cases same
      exact held.2.2
  | migrateToInheritance other =>
    obtain ⟨own, rfl⟩ := starts
    obtain ⟨first, opens, spared⟩ := opened
    have here : born.world.store = before := (spared own).trans opens
    refine .bind (fun _ _ _ => True) ?_ fun _ _ _ _ => .pure fun _ _ _ _ _ => by simp
    refine (owned_migrateToInheritance own self).weaken (fun log now _ _ held => ?_)
      fun _ _ _ _ done => done
    rw [held.2]
    exact here
  | _ => exact starts.elim

end Check

/-! ## Runs -/

/-- The interleavings of checks and one migration, the call number `migration`. -/
def straddles (context : PermissionMigrationContext) (before : KeyValueStore) (migration : Nat)
    (config : Config permissionSystem) : Move permissionSystem → Prop
  | .start operation => (straddling context before migration).starts config.processes.length operation
  | .event .reopen => False
  | .serve _ _ | .deliver _ | .event .invalidateCache => True

/-- Every check reads its cache and the two modes together. -/
def readsTogether (before : KeyValueStore) (config : Config permissionSystem) :
    Move permissionSystem → Prop
  | .deliver self =>
    match config.processes[self]? with
    | some ⟨operation, _, log, .answered entry _⟩ =>
      HandsTogether before operation log entry config.state
    | _ => True
  | _ => True

variable {context : PermissionMigrationContext} {before : KeyValueStore}

theorem straddling_admits {migration : Nat} (config : Config permissionSystem)
    (move : Move permissionSystem)
    (allowed : straddles context before migration config move ∧ readsTogether before config move) :
    config.Admits (straddling context before migration).contract move := by
  obtain ⟨straddles, together⟩ := allowed
  cases move with
  | start operation => exact straddles
  | serve self reaction => trivial
  | deliver self =>
    intro operation born log entry resume found
    simp only [readsTogether, found] at together
    exact together
  | event event =>
    cases event with
    | reopen => exact straddles.elim
    | invalidateCache =>
      intro memory world occurred sound
      cases occurred
      have flag : (Instance.invalidateCache config.state.memory).cachedUseGlobalDefaults =
          some true → (mode before).useGlobalDefaults = true := by
        simp [Instance.invalidateCache]
      exact ⟨⟨sound.phase, fun _ _ => .invalidated _ _, flag⟩, .refl _, fun _ _ _ => rfl⟩

def OneSided (self : Nat) (context : PermissionMigrationContext) (origin method : String)
    (kind : KindArgument) (accountId : String) (state : State permissionSystem)
    (decision : PermissionDecision) : Prop :=
  (∃ last, (check origin method kind accountId).run Reaction.perform state =
    some (.ok decision, last)) ∨
  ∃ outcome migrated last,
    (migrateToInheritance self context).run Reaction.perform state = some (outcome, migrated) ∧
    (check origin method kind accountId).run Reaction.perform migrated = some (.ok decision, last)

theorem AnswersAs.oneSided {origin method accountId : String} {kind : KindArgument}
    {decision : PermissionDecision} {state : State permissionSystem} (self : Nat)
    (answers : AnswersAs context before origin method kind accountId decision)
    (rests : Rests (fun _ => []) before state) :
    OneSided self context origin method kind accountId state decision := by
  rcases answers with ⟨settled, same⟩ | same
  · obtain ⟨last, ran, -⟩ := check_runs origin method kind accountId rests settled
    exact .inl ⟨last, same ▸ ran⟩
  · obtain ⟨migrated, first, rested⟩ := migrateToInheritance_runs self context rests rfl
    obtain ⟨last, second, -⟩ :=
      check_runs origin method kind accountId rested (inherited_pending context before)
    exact .inr ⟨_, migrated, last, first, same ▸ second⟩

theorem OneSided.eq {self : Nat} {origin method accountId : String} {kind : KindArgument}
    {decision : PermissionDecision} {state : State permissionSystem}
    (oneSided : OneSided self context origin method kind accountId state decision)
    (rests : Rests (fun _ => []) before state) (settled : before MIGRATION_PENDING_KEY = none) :
    decision = decisionAt before origin method kind accountId ∨
      decision = decisionAt (inherited context before).2 origin method kind accountId := by
  rcases oneSided with ⟨last, ran⟩ | ⟨outcome, migrated, last, migrates, ran⟩
  · obtain ⟨_, alone, -⟩ := check_runs origin method kind accountId rests settled
    rw [ran] at alone
    cases alone
    exact .inl rfl
  · obtain ⟨_, migratedAlone, rested⟩ := migrateToInheritance_runs self context rests rfl
    rw [migrates] at migratedAlone
    cases migratedAlone
    obtain ⟨_, alone, -⟩ :=
      check_runs origin method kind accountId rested (inherited_pending context before)
    rw [ran] at alone
    cases alone
    exact .inr rfl

/-- A check during the migration throws, or answers as before it or as after it. -/
theorem check_straddles_migration {context : PermissionMigrationContext} {before : KeyValueStore}
    {migration self : Nat} {initial config : Config permissionSystem}
    {origin method accountId : String} {kind : KindArgument} {decision : PermissionDecision}
    {process : Process permissionSystem} (rests : Rests (fun _ => []) before initial.state)
    (idle : initial.processes = [])
    (reaches : Config.Reaches (fun config move =>
      straddles context before migration config move ∧ readsTogether before config move)
      initial config)
    (found : config.processes[self]? = some process)
    (checks : process.operation = .check origin method kind accountId)
    (answered : process.status = .settled (.ok (.decision decision))) :
    OneSided migration context origin method kind accountId initial.state decision := by
  have cached : Cached initial.state.memory before := rests.cached
  have sound : Straddled context before initial.state := by
    refine ⟨?_, fun _ _ => cached, fun shared => ?_⟩
    · rw [rests.holds]
      exact .untouched
    · exact (cached.flag true shared).symm
  have methods : (straddling context before migration).Method _ := method_straddling
  obtain ⟨kept, -⟩ := Discipline.Kept.reaches methods (.idle rests.holds sound idle)
    straddling_admits reaches
  obtain ⟨last, -, -, done⟩ := kept.settled found answered
  exact (done origin method kind accountId checks decision rfl).oneSided migration rests

section Example

variable {context : PermissionMigrationContext} {before : KeyValueStore} {migration : Nat}

instance (config : Config permissionSystem) (move : Move permissionSystem) :
    Decidable (straddles context before migration config move) :=
  match move with
  | .start (.check ..) => inferInstanceAs (Decidable (_ ≠ _))
  | .start (.migrateToInheritance other) =>
    inferInstanceAs (Decidable (config.processes.length = migration ∧ other = context))
  | .event .reopen => .isFalse id
  | .serve _ _ | .deliver _ | .event .invalidateCache => .isTrue trivial
  | .start (.getForOrigin ..) | .start (.saveDirect ..) | .start (.save ..)
  | .start (.saveRetiredKey ..) | .start (.clear ..) | .start (.clearAllForOrigin ..)
  | .start (.clearForAccount ..) | .start (.copyPermissions ..)
  | .start (.setupNewAccountPermissions ..) | .start (.setUseGlobalDefaults ..)
  | .start (.migrateToGlobalRules ..) | .start .resetAccountRules | .start (.inheritRule ..)
  | .start (.clearRuleBucket ..) | .start (.revokeAuthentication ..) => .isFalse id

instance (origin accountId : String) (log : List (Entry permissionSystem)) (last : KeyValueStore) :
    Decidable (ReadTogether before origin accountId log last) :=
  have : ∀ used first journal : KeyValueStore, Decidable (if last INHERITANCE_KEY = some true then
      tree used = tree last ∧
        (accountId = "" → first INHERITANCE_KEY = some true ∨
          before MIGRATION_PENDING_KEY = none ∧ (tree before).lookup GLOBAL_RULES_SCOPE = none)
    else
      tree used = tree journal ∨ (mode before).useGlobalDefaults = true ∨
        (tree before).lookup GLOBAL_RULES_SCOPE = none ∧
          storageLabel (storageLabel origin) = storageLabel origin) := fun _ _ _ => inferInstance
  @Option.decidableForallMem _ _ (fun used => @Option.decidableForallMem _ _
    (fun first => @Option.decidableForallMem _ _ (this used first) _) _) _

instance (entry : Entry permissionSystem) (state : State permissionSystem) :
    Decidable (CacheFresh entry state) :=
  inferInstanceAs (Decidable (_ → _))

instance (operation : Operation) (log : List (Entry permissionSystem))
    (entry : Entry permissionSystem) (state : State permissionSystem) :
    Decidable (HandsTogether before operation log entry state) :=
  match operation with
  | .check origin _ _ accountId => inferInstanceAs (Decidable (CacheFresh entry state ∧
      (entry.request.gets INHERITANCE_KEY → (readIn MIGRATION_PENDING_KEY log).isSome →
        ReadTogether before origin accountId log entry.taken.world.store)))
  | .getForOrigin .. | .saveDirect .. | .save .. | .saveRetiredKey .. | .clear ..
  | .clearAllForOrigin .. | .clearForAccount .. | .copyPermissions ..
  | .setupNewAccountPermissions .. | .setUseGlobalDefaults .. | .migrateToInheritance ..
  | .migrateToGlobalRules .. | .resetAccountRules | .inheritRule .. | .clearRuleBucket ..
  | .revokeAuthentication .. => .isTrue trivial

instance (config : Config permissionSystem) (move : Move permissionSystem) :
    Decidable (readsTogether before config move) :=
  match move with
  | .deliver self =>
    match found : config.processes[self]? with
    | some ⟨operation, _, log, .answered entry _⟩ =>
      decidable_of_iff (HandsTogether before operation log entry config.state)
        (by simp [readsTogether, found])
    | some ⟨_, _, _, .waiting _ _⟩ | some ⟨_, _, _, .settled _⟩ | none =>
      .isTrue (by simp [readsTogether, found])
  | .start _ | .serve _ _ | .event _ => .isTrue trivial

/-- Per-account rules: the site's default for the public key is dormant, and the
account has no rule. -/
def dormantSite : KeyValueStore
  | .GLOBAL_DEFAULTS_KEY => some false
  | key => allowedSite key

def onlyAccount : PermissionMigrationContext := { accountIds := ["account"] }

/-- A check waits for its second look at the mode until the migration is over. -/
def checkAroundMigration : List (Move permissionSystem) :=
  .start readKey :: answers 0 4 ++ .start (.migrateToInheritance onlyAccount) :: answers 1 10 ++
    answers 0 1

def checkAfterMigration : List (Move permissionSystem) :=
  .start readKey :: answers 0 5 ++ .start (.migrateToInheritance onlyAccount) :: answers 1 10 ++
    .start readKey :: answers 2 4

def answersReadKey (decision : PermissionDecision) (process : Process permissionSystem) : Bool :=
  match process.operation, process.status with
  | .check origin method kind accountId, .settled (.ok (.decision answer)) =>
    decide (origin = "https://a.example" ∧ method = "getPublicKey" ∧ kind = .absent ∧
      accountId = "account" ∧ answer = decision)
  | _, _ => false

theorem eq_of_answersReadKey {decision : PermissionDecision} {process : Process permissionSystem}
    (answers : answersReadKey decision process = true) :
    process.operation = .check "https://a.example" "getPublicKey" .absent "account" ∧
      process.status = .settled (.ok (.decision decision)) := by
  unfold answersReadKey at answers
  split at answers
  · next operation settled =>
    obtain ⟨rfl, rfl, rfl, rfl, rfl⟩ := of_decide_eq_true answers
    exact ⟨operation, settled⟩
  · contradiction

theorem reaches_of_answersReadKey {allowed : Config permissionSystem → Move permissionSystem → Prop}
    [∀ config move, Decidable (allowed config move)] {initial : Config permissionSystem}
    {moves : List (Move permissionSystem)} {self : Nat} {decision : PermissionDecision}
    (runs : (initial.execWhile allowed moves).any (fun config =>
      config.processes[self]?.any (answersReadKey decision)) = true) :
    ∃ config process, Config.Reaches allowed initial config ∧
      config.processes[self]? = some process ∧
      process.operation = .check "https://a.example" "getPublicKey" .absent "account" ∧
      process.status = .settled (.ok (.decision decision)) := by
  simp only [Option.any_eq_true] at runs
  obtain ⟨config, executed, process, found, answers⟩ := runs
  exact ⟨config, process, .of_execWhile executed, found, eq_of_answersReadKey answers⟩

/-- The dormant default is layered under the account and answers the check. -/
theorem check_may_straddle_migration :
    ¬ ∀ (context : PermissionMigrationContext) (before : KeyValueStore) (migration self : Nat)
      (initial config : Config permissionSystem) (origin method accountId : String)
      (kind : KindArgument) (decision : PermissionDecision) (process : Process permissionSystem),
      Rests (fun _ => []) before initial.state → initial.processes = [] →
      Config.Reaches (straddles context before migration) initial config →
      config.processes[self]? = some process →
      process.operation = .check origin method kind accountId →
      process.status = .settled (.ok (.decision decision)) →
      OneSided migration context origin method kind accountId initial.state decision := by
  intro claim
  have layered : ((opened dormantSite).execWhile (straddles onlyAccount dormantSite 1)
      checkAroundMigration).any (fun config =>
        config.processes[0]?.any (answersReadKey .allow)) = true := by
    decide
  obtain ⟨config, process, reaches, found, checks, answered⟩ := reaches_of_answersReadKey layered
  have oneSided := claim onlyAccount dormantSite 1 0 _ config _ _ _ _ .allow process
    (rests_opened dormantSite) rfl reaches found checks answered
  have neither : PermissionDecision.allow ≠
        decisionAt dormantSite "https://a.example" "getPublicKey" .absent "account" ∧
      PermissionDecision.allow ≠ decisionAt (inherited onlyAccount dormantSite).2
        "https://a.example" "getPublicKey" .absent "account" := by
    decide
  rcases oneSided.eq (rests_opened dormantSite) rfl with before | after
  · exact neither.1 before
  · exact neither.2 after

theorem check_straddles_migration_checkAfterMigration :
    ∃ config process, Config.Reaches (fun config move =>
        straddles onlyAccount dormantSite 1 config move ∧ readsTogether dormantSite config move)
        (opened dormantSite) config ∧
      (config.processes[2]? = some process ∧ process.status = .settled (.ok (.decision .ask))) ∧
      OneSided 1 onlyAccount "https://a.example" "getPublicKey" .absent "account"
        (opened dormantSite).state .ask := by
  have runs : ((opened dormantSite).execWhile (fun config move =>
      straddles onlyAccount dormantSite 1 config move ∧ readsTogether dormantSite config move)
      checkAfterMigration).any (fun config =>
        config.processes[2]?.any (answersReadKey .ask)) = true := by
    decide
  obtain ⟨config, process, reaches, found, checks, answered⟩ := reaches_of_answersReadKey runs
  exact ⟨config, process, reaches, ⟨found, answered⟩, check_straddles_migration
    (rests_opened dormantSite) rfl reaches found checks answered⟩

end Example

end NostrWot.Permissions
