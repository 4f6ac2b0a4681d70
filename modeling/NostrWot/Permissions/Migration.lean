import NostrWot.Async.Sequential
import NostrWot.Permissions.Operations

namespace NostrWot.Permissions

open NostrWot.Data NostrWot.Async StoreKey

/-! # Migrations as changes of the store

What a migration that runs by itself makes of a store, and the stores it passes
through on the way.
-/

namespace KeyValueStore

def tree (store : KeyValueStore) : PermissionMap := (store PERMISSIONS_STORAGE_KEY).getD ∅

def mode (store : KeyValueStore) : Mode where
  inherits := store INHERITANCE_KEY = some true
  useGlobalDefaults := store GLOBAL_DEFAULTS_KEY ≠ some false

/-- The store once a journal has been run to its end. -/
def replay (pending : PendingMigration) (store : KeyValueStore) : KeyValueStore
  | .PERMISSIONS_STORAGE_KEY => some pending.tree
  | .GLOBAL_DEFAULTS_KEY => some false
  | .INHERITANCE_KEY => some true
  | .GLOBAL_RULES_VERSION_KEY =>
    if pending.global then some (1 : Nat) else store .GLOBAL_RULES_VERSION_KEY
  | .MIGRATION_PENDING_KEY => none
  | .AUTHENTICATION_GRANTS_KEY => store .AUTHENTICATION_GRANTS_KEY
  | .DEFAULT_BACKEND_AUTH_KEY => store .DEFAULT_BACKEND_AUTH_KEY

def settle (store : KeyValueStore) : KeyValueStore :=
  match store MIGRATION_PENDING_KEY with
  | some pending => replay pending store
  | none => store

/-- How `migrateToInheritance` ends, and the store it leaves. -/
def inherited (context : PermissionMigrationContext) (store : KeyValueStore) :
    Except String Unit × KeyValueStore :=
  let settled := settle store
  if settled INHERITANCE_KEY = some true then (.ok (), settled)
  else
    match migrationAccounts (tree settled) context with
    | .error message => (.error message, settled)
    | .ok ids =>
      (.ok (), replay
        ⟨inheritanceTree (mode settled).useGlobalDefaults (tree settled) ids, false⟩ settled)

/-- How `consolidateRules` ends, and the store it leaves. -/
def consolidated (collation : Collation) (context : PermissionMigrationContext)
    (store : KeyValueStore) : Except String Unit × KeyValueStore :=
  let settled := settle store
  if settled GLOBAL_RULES_VERSION_KEY = some (1 : Nat) then (.ok (), settled)
  else
    match migrationAccounts (tree settled) context with
    | .error message => (.error message, settled)
    | .ok ids => (.ok (), replay ⟨globalRulesTree collation (tree settled) context ids, true⟩ settled)

/-- How `migrateToGlobalRules` ends, and the store it leaves. -/
def globalized (collation : Collation) (context : PermissionMigrationContext)
    (store : KeyValueStore) : Except String Unit × KeyValueStore :=
  match inherited context store with
  | (.ok (), half) => consolidated collation context half
  | (.error message, half) => (.error message, half)

@[simp] theorem replay_pending (pending : PendingMigration) (store : KeyValueStore) :
    replay pending store MIGRATION_PENDING_KEY = none := rfl

@[simp] theorem replay_inheritance (pending : PendingMigration) (store : KeyValueStore) :
    replay pending store INHERITANCE_KEY = some true := rfl

@[simp] theorem tree_replay (pending : PendingMigration) (store : KeyValueStore) :
    tree (replay pending store) = pending.tree := rfl

@[simp] theorem settle_pending (store : KeyValueStore) :
    settle store MIGRATION_PENDING_KEY = none := by
  cases journal : store MIGRATION_PENDING_KEY with
  | none => simp [settle, journal]
  | some pending => simp [settle, journal]

variable {store : KeyValueStore}

theorem settle_of_none (none : store MIGRATION_PENDING_KEY = none) :
    settle store = store := by
  rw [settle, none]

theorem settle_of_some {pending : PendingMigration}
    (journal : store MIGRATION_PENDING_KEY = some pending) :
    settle store = replay pending store := by
  rw [settle, journal]

variable (context : PermissionMigrationContext)

theorem inherited_pending (store : KeyValueStore) :
    (inherited context store).2 MIGRATION_PENDING_KEY = none := by
  unfold inherited
  simp only
  split
  · exact settle_pending store
  · split
    · exact settle_pending store
    · rfl

theorem inherited_inheritance {context : PermissionMigrationContext}
    (completed : (inherited context store).1 = .ok ()) :
    (inherited context store).2 INHERITANCE_KEY = some true := by
  unfold inherited at completed ⊢
  simp only at completed ⊢
  split at completed
  · next already =>
    rw [if_pos already]
    exact already
  · next legacy =>
    rw [if_neg legacy]
    split at completed
    · contradiction
    · rfl

theorem inherited_of_inherits (none : store MIGRATION_PENDING_KEY = none)
    (inherits : store INHERITANCE_KEY = some true) :
    inherited context store = (.ok (), store) := by
  rw [inherited, settle_of_none none, if_pos inherits]

theorem inherited_of_journal {pending : PendingMigration}
    (journal : store MIGRATION_PENDING_KEY = some pending) :
    inherited context store = (.ok (), replay pending store) := by
  rw [inherited, settle_of_some journal, if_pos (replay_inheritance pending store)]

end KeyValueStore

open KeyValueStore

/-- `store` with a journal in it, on the way to `target`. -/
def Journaled (target store : KeyValueStore) : Prop :=
  ∃ pending, store MIGRATION_PENDING_KEY = some pending ∧ replay pending store = target

def PendingMigration.Writes (pending : PendingMigration) : StoreKey → Prop
  | .GLOBAL_RULES_VERSION_KEY => pending.global = true
  | .AUTHENTICATION_GRANTS_KEY | .DEFAULT_BACKEND_AUTH_KEY => False
  | _ => True

theorem replay_update {pending : PendingMigration} {store : KeyValueStore} (key : StoreKey)
    (writes : pending.Writes key) (value : Option key.Value) :
    replay pending (Function.update store key value) = replay pending store := by
  funext other
  by_cases same : other = key
  · subst same
    cases other <;> simp_all [replay, PendingMigration.Writes]
  · cases other <;> simp_all [replay]

section Alone

variable {during : State permissionSystem → Prop} {state : State permissionSystem}

abbrev Performs {α : Type} (during : State permissionSystem → Prop)
    (post : Except String α → State permissionSystem → Prop) (task : Task α)
    (state : State permissionSystem) : Prop :=
  Program.Alone (S := permissionSystem) Reaction.perform during post task state

theorem store_acknowledged (state : State permissionSystem) (entry : Entry permissionSystem) :
    (state.acknowledged entry).world.store = state.world.store := by
  simp only [State.acknowledged]
  split <;> rfl

variable {key : StoreKey}

theorem performs_get {post : Except String (Option key.Value) → State permissionSystem → Prop}
    (here : during state) (next : post (.ok (state.world.store key)) state) :
    Performs during post (get key) state := by
  refine ⟨here, ?_⟩
  simpa [serveRequest, State.acknowledged, Storage.writesTree, Program.Alone] using next

theorem performs_write (request : StoreRequest) (answer : request.Reply) (storage : Storage)
    {post : Except String request.Reply → State permissionSystem → Prop} (here : during state)
    (served : serveRequest request .perform state.memory state.world =
      some (.ok answer, state.memory, storage))
    (next : ∀ last : State permissionSystem, last.memory = state.memory →
      last.world.store = storage.store → post (.ok answer) last) :
    Performs during post (NostrWot.Permissions.request request) state := by
  simp only [Performs, NostrWot.Permissions.request, Program.call, Program.Alone, served]
  exact ⟨here, next _ rfl (store_acknowledged _ _)⟩

variable {post : Except String Unit → State permissionSystem → Prop}

theorem performs_set {value : key.Value} (here : during state)
    (next : ∀ last : State permissionSystem, last.memory = state.memory →
      last.world.store = Function.update state.world.store key (some value) → post (.ok ()) last) :
    Performs during post (set key value) state :=
  performs_write (.set key value) () (state.world.put key (some value)) here rfl next

theorem performs_remove (here : during state)
    (next : ∀ last : State permissionSystem, last.memory = state.memory →
      last.world.store = Function.update state.world.store key none → post (.ok ()) last) :
    Performs during post (remove key) state :=
  performs_write (.remove key) () (state.world.put key none) here rfl next

structure Cached (memory : Instance) (store : KeyValueStore) : Prop where
  perms : ∀ cached ∈ memory.cachedPerms, cached = tree store
  flag : ∀ cached ∈ memory.cachedUseGlobalDefaults, cached = (mode store).useGlobalDefaults

theorem Cached.invalidated (memory : Instance) (store : KeyValueStore) :
    Cached memory.invalidateCache store :=
  ⟨by simp [Instance.invalidateCache], by simp [Instance.invalidateCache]⟩

structure Rests (queue : LockName → List Nat) (store : KeyValueStore)
    (state : State permissionSystem) : Prop where
  locks : state.memory.queue = queue
  holds : state.world.store = store
  cached : Cached state.memory store

variable {queue : LockName → List Nat} {store : KeyValueStore}

theorem performs_read {post : Except String (Option key.Value) → State permissionSystem → Prop}
    (rests : Rests queue store state) (here : ∀ state, Rests queue store state → during state)
    (next : post (.ok (store key)) state) : Performs during post (get key) state := by
  refine performs_get (here state rests) ?_
  rw [rests.holds]
  exact next

theorem performs_inherits {post : Except String Bool → State permissionSystem → Prop}
    (rests : Rests queue store state) (here : ∀ state, Rests queue store state → during state)
    (next : post (.ok (mode store).inherits) state) : Performs during post inherits state :=
  .bind (performs_read rests here next)

theorem performs_peek {α β : Type} {view : Instance → α} {next : α → Task β}
    {post : Except String β → State permissionSystem → Prop}
    (performs : Performs during post (next (view state.memory)) state) :
    Performs during post (peek view >>= next) state := performs

theorem performs_getUseGlobalDefaults
    {post : Except String Bool → State permissionSystem → Prop} (rests : Rests queue store state)
    (here : ∀ state, Rests queue store state → during state)
    (next : ∀ last, Rests queue store last →
      post (.ok (mode store).useGlobalDefaults) last) :
    Performs during post getUseGlobalDefaults state := by
  refine performs_peek ?_
  cases cached : state.memory.cachedUseGlobalDefaults with
  | some flag =>
    have same := rests.cached.flag flag cached
    subst same
    exact next state rests
  | none =>
    refine .bind (performs_read rests here ?_)
    refine next _ ⟨rests.locks, rests.holds, rests.cached.perms, ?_⟩
    intro flag found
    cases found
    rfl

theorem performs_activeBucket (accountId : String)
    {post : Except String (Option String) → State permissionSystem → Prop}
    (rests : Rests queue store state) (here : ∀ state, Rests queue store state → during state)
    (next : ∀ last, Rests queue store last →
      post (.ok ((mode store).activeBucket accountId)) last) :
    Performs during post (activeBucket accountId) state := by
  refine .bind (performs_inherits rests here ?_)
  unfold Mode.activeBucket at next
  cases inheriting : (mode store).inherits with
  | true =>
    simp only [inheriting, Bool.not_true, Bool.false_and, Bool.false_eq_true, if_false] at next
    exact next state rests
  | false =>
    refine .bind (performs_getUseGlobalDefaults rests here fun last rests => ?_)
    simp only [inheriting, Bool.not_false, Bool.true_and] at next
    cases shared : (mode store).useGlobalDefaults with
    | true =>
      have ended := next last rests
      simp only [shared, if_true] at ended
      exact ended
    | false =>
      have ended := next last rests
      simp only [shared, Bool.false_eq_true, if_false] at ended
      exact ended

theorem performs_load {post : Except String PermissionMap → State permissionSystem → Prop}
    (rests : Rests queue store state) (here : ∀ state, Rests queue store state → during state)
    (settled : store MIGRATION_PENDING_KEY = none)
    (next : ∀ last, Rests queue store last → post (.ok (tree store)) last) :
    Performs during post load state := by
  refine .bind (performs_read rests here ?_)
  rw [settled]
  refine performs_peek ?_
  cases cached : state.memory.cachedPerms with
  | some held =>
    have same := rests.cached.perms held cached
    subst same
    exact next state rests
  | none =>
    refine .bind (performs_read rests here ?_)
    refine next _ ⟨rests.locks, rests.holds, ?_, rests.cached.flag⟩
    intro held found
    cases found
    rfl

/-- On the way from a store with a journal to where it leads. -/
def Underway (pending : PendingMigration) (target store : KeyValueStore) : Prop :=
  store MIGRATION_PENDING_KEY = some pending ∧ replay pending store = target

variable {pending : PendingMigration}

theorem Underway.update {target : KeyValueStore} (underway : Underway pending target store)
    (key : StoreKey) (writes : pending.Writes key) (kept : key ≠ MIGRATION_PENDING_KEY)
    (value : Option key.Value) :
    Underway pending target (Function.update store key value) := by
  refine ⟨?_, ?_⟩
  · rw [Function.update_of_ne (Ne.symm kept), underway.1]
  · rw [replay_update key writes, underway.2]

theorem Underway.completed {target : KeyValueStore} (underway : Underway pending target store)
    (written : ∀ key, pending.Writes key → key ≠ MIGRATION_PENDING_KEY → store key = target key) :
    Function.update store MIGRATION_PENDING_KEY none = target := by
  have lands := underway.2
  funext key
  by_cases journal : key = MIGRATION_PENDING_KEY
  · subst journal
    rw [Function.update_self, ← lands]
    rfl
  · rw [Function.update_of_ne journal]
    by_cases writes : pending.Writes key
    · exact written key writes journal
    · rw [← lands]
      cases key <;> simp_all [replay, PendingMigration.Writes]

theorem performs_finishMigration (rests : Rests queue store state)
    (here : ∀ state, Rests queue store state → during state)
    (passes : ∀ pending state, store MIGRATION_PENDING_KEY = some pending →
      Underway pending (settle store) state.world.store → during state)
    (next : ∀ last, Rests queue (settle store) last → post (.ok ()) last) :
    Performs during post finishMigration state := by
  refine .bind (performs_read rests here ?_)
  cases journal : store MIGRATION_PENDING_KEY with
  | none =>
    rw [settle_of_none journal] at next
    exact next state rests
  | some pending =>
    have underway : Underway pending (settle store) state.world.store := by
      rw [rests.holds, settle_of_some journal]
      exact ⟨journal, rfl⟩
    have ending : ∀ last : State permissionSystem, last.memory = state.memory →
        Underway pending (settle store) last.world.store →
        (∀ key, pending.Writes key → key ≠ MIGRATION_PENDING_KEY →
          last.world.store key = settle store key) →
        Performs during (fun outcome last =>
            post outcome { last with memory := last.memory.invalidateCache })
          (remove MIGRATION_PENDING_KEY) last := by
      intro last memory underway written
      refine performs_remove (passes pending _ journal underway) fun final same stored => ?_
      rw [underway.completed written] at stored
      refine next _ ⟨?_, stored, .invalidated _ _⟩
      rw [same, memory]
      exact rests.locks
    refine .finallyDo (.bind (performs_set (passes pending _ journal underway) ?_))
    intro first memory₁ store₁
    have underway₁ : Underway pending (settle store) first.world.store := by
      rw [store₁]
      exact underway.update PERMISSIONS_STORAGE_KEY trivial (by decide) _
    refine .bind (performs_set (passes pending _ journal underway₁) ?_)
    intro second memory₂ store₂
    have underway₂ : Underway pending (settle store) second.world.store := by
      rw [store₂]
      exact underway₁.update GLOBAL_DEFAULTS_KEY trivial (by decide) _
    refine .bind (performs_set (passes pending _ journal underway₂) ?_)
    intro third memory₃ store₃
    have underway₃ : Underway pending (settle store) third.world.store := by
      rw [store₃]
      exact underway₂.update INHERITANCE_KEY trivial (by decide) _
    have memory : third.memory = state.memory := memory₃.trans (memory₂.trans memory₁)
    have written : ∀ key, pending.Writes key → key ≠ MIGRATION_PENDING_KEY →
        key ≠ GLOBAL_RULES_VERSION_KEY → third.world.store key = settle store key := by
      intro key writes journaled versioned
      rw [store₃, store₂, store₁, settle_of_some journal]
      cases key <;> simp_all [replay, PendingMigration.Writes]
    unfold markConsolidated
    cases global : pending.global with
    | false =>
      refine .bind (ending third memory underway₃ fun key writes journaled => ?_)
      refine written key writes journaled ?_
      intro versioned
      subst versioned
      simp [PendingMigration.Writes, global] at writes
    | true =>
      refine .bind ?_
      rw [if_pos rfl]
      refine performs_set (passes pending _ journal underway₃) ?_
      intro fourth memory₄ store₄
      refine ending fourth (memory₄.trans memory) ?_ fun key writes journaled => ?_
      · rw [store₄]
        exact underway₃.update GLOBAL_RULES_VERSION_KEY global (by decide) _
      · by_cases versioned : key = GLOBAL_RULES_VERSION_KEY
        · subst versioned
          rw [store₄, Function.update_self, settle_of_some journal]
          simp [replay, global]
        · rw [store₄, Function.update_of_ne versioned]
          exact written key writes journaled versioned

variable {self : Nat}

theorem performs_withLock {lock : LockName} {fn : Task Unit} (rests : Rests queue store state)
    (free : queue lock = []) (here : ∀ state, state.world.store = store → during state)
    (locked : ∀ state, Rests (Function.update queue lock [self]) store state →
      Performs during (fun outcome last => ∃ after,
        Rests (Function.update queue lock [self]) after last ∧
        ∀ last, Rests queue after last → post outcome last) fn state) :
    Performs during post (withLock lock self fn) state := by
  obtain ⟨memory, world⟩ := state
  have locks : memory.queue = queue := rests.locks
  have entered : (memory.enqueue lock self).queue = Function.update queue lock [self] := by
    simp [Instance.enqueue, locks, free]
  have held : Rests (Function.update queue lock [self]) store
      ⟨memory.enqueue lock self, world⟩ :=
    ⟨entered, rests.holds, rests.cached.perms, rests.cached.flag⟩
  refine .bind ?_
  refine .bind (performs_write (.turn lock self) () world (here _ rests.holds) ?_ ?_)
  · simp [serveRequest, entered]
  · intro last same stored
    refine .finallyDo ((locked last ?_).mono (fun _ => id) ?_)
    · refine ⟨?_, stored.trans rests.holds, ?_⟩
      · rw [same, entered]
      · rw [same]
        exact held.cached
    · intro outcome final ended
      obtain ⟨after, rests', next⟩ := ended
      refine next _ ⟨?_, rests'.holds, rests'.cached.perms, rests'.cached.flag⟩
      simp only [Instance.release, rests'.locks, Function.update_self, List.erase_cons_head,
        Function.update_idem]
      rw [← free, Function.update_eq_self]

theorem performs_journal (rests : Rests queue store state)
    (here : ∀ state, Rests queue store state → during state)
    (passes : ∀ state, Journaled (replay pending store) state.world.store → during state)
    (next : ∀ last, Rests queue (replay pending store) last → post (.ok ()) last) :
    Performs during post (set MIGRATION_PENDING_KEY pending >>= fun _ => finishMigration) state := by
  have written : settle (Function.update store MIGRATION_PENDING_KEY (some pending)) =
      replay pending store := by
    rw [settle_of_some (Function.update_self ..), replay_update MIGRATION_PENDING_KEY trivial]
  refine .bind (performs_set (here state rests) fun last memory stored => ?_)
  have cached : Cached last.memory (Function.update store MIGRATION_PENDING_KEY (some pending)) := by
    rw [memory]
    exact ⟨rests.cached.perms, rests.cached.flag⟩
  have journaled : Rests queue (Function.update store MIGRATION_PENDING_KEY (some pending)) last :=
    ⟨memory ▸ rests.locks, by rw [stored, rests.holds], cached⟩
  refine performs_finishMigration journaled (fun state rests' => passes state ?_)
    (fun other state _ underway => passes state ⟨other, underway.1, ?_⟩) fun final rests' => ?_
  · refine ⟨pending, ?_, ?_⟩
    · rw [rests'.holds, Function.update_self]
    · rw [rests'.holds, replay_update MIGRATION_PENDING_KEY trivial]
  · rw [underway.2, written]
  · exact next final (written ▸ rests')

theorem performs_liftExcept {α : Type} {result : Except String α}
    {post : Except String α → State permissionSystem → Prop} (next : post result state) :
    Performs during post (liftExcept result) state := by
  cases result with
  | ok value => exact next
  | error message => exact next

/-- Where a migration with this result can be cut off: before its first write,
with a journal that leads to its end, or at its end. -/
inductive MigrationCut (result : Except String Unit × KeyValueStore) (before : KeyValueStore) :
    KeyValueStore → Prop
  | untouched : MigrationCut result before before
  | journaled {store : KeyValueStore} (completes : result.1 = .ok ())
      (journal : Journaled result.2 store) : MigrationCut result before store
  | complete : MigrationCut result before result.2

theorem MigrationCut.settled (context : PermissionMigrationContext) (store : KeyValueStore) :
    MigrationCut (inherited context store) store (settle store) := by
  cases journal : store MIGRATION_PENDING_KEY with
  | none =>
    rw [settle_of_none journal]
    exact .untouched
  | some pending =>
    rw [inherited_of_journal context journal, settle_of_some journal]
    exact .complete

variable {context : PermissionMigrationContext}

theorem performs_migrateToInheritance (rests : Rests queue store state) (free : queue .rules = [])
    (passes : ∀ state, MigrationCut (inherited context store) store state.world.store → during state)
    (next : ∀ last, Rests queue (inherited context store).2 last →
      post (inherited context store).1 last) :
    Performs during post (migrateToInheritance self context) state := by
  refine performs_withLock rests free (fun state same => passes state (same ▸ .untouched)) ?_
  intro state rests
  have here : ∀ state, Rests (Function.update queue .rules [self]) (settle store) state →
      during state := by
    intro state rests
    refine passes state ?_
    rw [rests.holds]
    exact MigrationCut.settled context store
  refine .bind (performs_finishMigration rests
    (fun state rests => passes state (rests.holds ▸ .untouched)) ?_ ?_)
  · intro pending state journal underway
    have completes := inherited_of_journal context journal
    refine passes state (.journaled (by rw [completes]) ⟨pending, underway.1, ?_⟩)
    rw [underway.2, completes, settle_of_some journal]
  · intro state rests
    refine .bind (performs_inherits rests here ?_)
    unfold inherited at next
    simp only at next
    by_cases already : settle store INHERITANCE_KEY = some true
    · have inherits : (mode (settle store)).inherits = true := decide_eq_true already
      rw [if_pos already] at next
      simp only [inherits, if_true]
      exact ⟨settle store, rests, next⟩
    · have legacy : (mode (settle store)).inherits = false := decide_eq_false already
      rw [if_neg already] at next
      simp only [legacy, Bool.false_eq_true, if_false]
      refine .bind (performs_load rests here (settle_pending store) fun state rests => ?_)
      refine .bind (performs_liftExcept ?_)
      cases accounts : migrationAccounts (tree (settle store)) context with
      | error message =>
        rw [accounts] at next
        exact ⟨settle store, rests, next⟩
      | ok ids =>
        rw [accounts] at next
        refine .bind (performs_getUseGlobalDefaults rests here fun state rests => ?_)
        refine performs_journal rests here ?_ fun last rests => ⟨_, rests, next⟩
        intro state journaled
        have ends : inherited context store = (.ok (), replay
            ⟨inheritanceTree (mode (settle store)).useGlobalDefaults (tree (settle store)) ids,
              false⟩ (settle store)) := by
          simp only [inherited, if_neg already, accounts]
        refine passes state (.journaled ?_ ?_)
        · rw [ends]
        · rw [ends]
          exact journaled

theorem migrateToInheritance_runs (self : Nat) (context : PermissionMigrationContext)
    (rests : Rests queue store state) (free : queue .rules = []) :
    ∃ last, (migrateToInheritance self context).run Reaction.perform state =
        some ((inherited context store).1, last) ∧ Rests queue (inherited context store).2 last := by
  have performs : Performs (fun _ => True) (fun outcome last =>
      outcome = (inherited context store).1 ∧ Rests queue (inherited context store).2 last)
      (migrateToInheritance self context) state :=
    performs_migrateToInheritance rests free (fun _ _ => trivial) fun _ rests => ⟨rfl, rests⟩
  obtain ⟨outcome, last, ran, same, rests⟩ := performs.run
  exact ⟨last, same ▸ ran, rests⟩

theorem performs_consolidateRules {collation : Collation} (rests : Rests queue store state)
    (free : queue .rules = []) (settled : store MIGRATION_PENDING_KEY = none)
    (passes : ∀ state, MigrationCut (consolidated collation context store) store state.world.store →
      during state) (next : ∀ last, Rests queue (consolidated collation context store).2 last →
      post (consolidated collation context store).1 last) :
    Performs during post (consolidateRules collation self context) state := by
  refine performs_withLock rests free (fun state same => passes state (same ▸ .untouched)) ?_
  intro state rests
  have here : ∀ state, Rests (Function.update queue .rules [self]) store state → during state := by
    intro state rests
    exact passes state (rests.holds ▸ .untouched)
  unfold consolidated at next
  rw [settle_of_none settled] at next
  simp only at next
  refine .bind (performs_finishMigration rests here (fun pending state journal => ?_) ?_)
  · rw [settled] at journal
    contradiction
  · intro state rests
    rw [settle_of_none settled] at rests
    refine .bind (performs_read rests here ?_)
    by_cases already : store GLOBAL_RULES_VERSION_KEY = some (1 : Nat)
    · rw [if_pos already] at next
      simp only [already, if_true]
      exact ⟨store, rests, next⟩
    · rw [if_neg already] at next
      simp only [already, if_false]
      refine .bind (performs_load rests here settled fun state rests => ?_)
      refine .bind (performs_liftExcept ?_)
      cases accounts : migrationAccounts (tree store) context with
      | error message =>
        rw [accounts] at next
        exact ⟨store, rests, next⟩
      | ok ids =>
        rw [accounts] at next
        refine performs_journal rests here ?_ fun last rests => ⟨_, rests, next⟩
        intro state journaled
        have ends : consolidated collation context store = (.ok (), replay
            ⟨globalRulesTree collation (tree store) context ids, true⟩ store) := by
          simp only [consolidated, settle_of_none settled, if_neg already, accounts]
        refine passes state (.journaled ?_ ?_)
        · rw [ends]
        · rw [ends]
          exact journaled

/-- Where `migrateToGlobalRules` can be cut off: in either half. -/
inductive GlobalCut (collation : Collation) (context : PermissionMigrationContext)
    (before : KeyValueStore) : KeyValueStore → Prop
  | inheriting {store : KeyValueStore} (cut : MigrationCut (inherited context before) before store) :
      GlobalCut collation context before store
  | consolidating {store : KeyValueStore} (halfway : (inherited context before).1 = .ok ())
      (cut : MigrationCut (consolidated collation context (inherited context before).2)
        (inherited context before).2 store) : GlobalCut collation context before store

theorem performs_migrateToGlobalRules {collation : Collation} (rests : Rests queue store state)
    (free : queue .rules = [])
    (passes : ∀ state, GlobalCut collation context store state.world.store → during state)
    (next : ∀ last, Rests queue (globalized collation context store).2 last →
      post (globalized collation context store).1 last) :
    Performs during post (migrateToGlobalRules collation self context) state := by
  refine .bind (performs_migrateToInheritance rests free
    (fun state cut => passes state (.inheriting cut)) fun state rests => ?_)
  unfold globalized at next
  cases halfway : inherited context store with
  | mk outcome half =>
    rw [halfway] at rests next
    have pending : half MIGRATION_PENDING_KEY = none := by
      have := inherited_pending context store
      rwa [halfway] at this
    cases outcome with
    | error message => exact next state rests
    | ok =>
      refine performs_consolidateRules rests free pending (fun state cut => ?_) next
      refine passes state (.consolidating ?_ ?_)
      · rw [halfway]
      · rw [halfway]
        exact cut

theorem migrateToGlobalRules_runs (collation : Collation) (self : Nat)
    (context : PermissionMigrationContext) (rests : Rests queue store state)
    (free : queue .rules = []) :
    ∃ last, (migrateToGlobalRules collation self context).run Reaction.perform state =
        some ((globalized collation context store).1, last) ∧
      Rests queue (globalized collation context store).2 last := by
  have performs : Performs (fun _ => True) (fun outcome last =>
      outcome = (globalized collation context store).1 ∧
        Rests queue (globalized collation context store).2 last)
      (migrateToGlobalRules collation self context) state :=
    performs_migrateToGlobalRules rests free (fun _ _ => trivial) fun _ rests => ⟨rfl, rests⟩
  obtain ⟨outcome, last, ran, same, rests⟩ := performs.run
  exact ⟨last, same ▸ ran, rests⟩

end Alone

end NostrWot.Permissions
