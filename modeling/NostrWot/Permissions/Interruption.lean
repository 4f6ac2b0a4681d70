import NostrWot.Async.Discipline
import NostrWot.Permissions.Migration

namespace NostrWot.Permissions

open NostrWot.Data NostrWot.Async StoreKey KeyValueStore

/-! # Interrupted migrations

The journal is written before the first change and dropped after the last one,
so a store that was left in between blocks every check, and running its journal
again leads where the first attempt was going.
-/

namespace KeyValueStore

variable {context : PermissionMigrationContext} {collation : Collation} {store : KeyValueStore}

theorem inherited_again (context : PermissionMigrationContext) (store : KeyValueStore) :
    inherited context (inherited context store).2 = inherited context store := by
  have pending := inherited_pending context store
  cases completed : (inherited context store).1 with
  | ok =>
    rw [inherited_of_inherits context pending (inherited_inheritance completed)]
    exact Prod.ext completed.symm rfl
  | error message =>
    have legacy : settle store INHERITANCE_KEY ≠ some true := by
      intro already
      simp [inherited, if_pos already] at completed
    cases accounts : migrationAccounts (tree (settle store)) context with
    | ok ids => simp [inherited, if_neg legacy, accounts] at completed
    | error reason =>
      have stays : inherited context store = (.error reason, settle store) := by
        simp only [inherited, if_neg legacy, accounts]
      rw [stays]
      simp only [inherited, settle_of_none (settle_pending store), if_neg legacy, accounts]

theorem consolidated_cases (settled : store MIGRATION_PENDING_KEY = none) :
    consolidated collation context store = (.ok (), store) ∧
        store GLOBAL_RULES_VERSION_KEY = some (1 : Nat) ∨
      (∃ message, consolidated collation context store = (.error message, store)) ∨
      ∃ pending, pending.global = true ∧
        consolidated collation context store = (.ok (), replay pending store) := by
  unfold consolidated
  rw [settle_of_none settled]
  simp only
  by_cases already : store GLOBAL_RULES_VERSION_KEY = some (1 : Nat)
  · rw [if_pos already]
    exact .inl ⟨rfl, already⟩
  · rw [if_neg already]
    cases accounts : migrationAccounts (tree store) context with
    | error message => exact .inr (.inl ⟨message, rfl⟩)
    | ok ids => exact .inr (.inr ⟨_, rfl, rfl⟩)

theorem consolidated_of_version (settled : store MIGRATION_PENDING_KEY = none)
    (version : store GLOBAL_RULES_VERSION_KEY = some (1 : Nat)) :
    consolidated collation context store = (.ok (), store) := by
  rw [consolidated, settle_of_none settled, if_pos version]

theorem consolidated_again (settled : store MIGRATION_PENDING_KEY = none)
    (completes : (consolidated collation context store).1 = .ok ()) :
    consolidated collation context (consolidated collation context store).2 =
      consolidated collation context store := by
  rcases consolidated_cases settled with ⟨done, -⟩ | ⟨message, failed⟩ | ⟨pending, global, done⟩
  · rw [done, done]
  · rw [failed] at completes
    contradiction
  · rw [done]
    exact consolidated_of_version rfl (by simp [replay, global])

theorem globalized_of_inherits (settled : store MIGRATION_PENDING_KEY = none)
    (inherits : store INHERITANCE_KEY = some true) :
    globalized collation context store = consolidated collation context store := by
  rw [globalized, inherited_of_inherits context settled inherits]

theorem globalized_of_halfway (halfway : (inherited context store).1 = .ok ()) :
    globalized collation context store =
      consolidated collation context (inherited context store).2 := by
  unfold globalized
  cases ends : inherited context store with
  | mk outcome half =>
    rw [ends] at halfway
    cases halfway
    rfl

theorem globalized_congr {other : KeyValueStore}
    (same : inherited context other = inherited context store) :
    globalized collation context other = globalized collation context store := by
  rw [globalized, globalized, same]

end KeyValueStore

section Cuts

variable {context : PermissionMigrationContext} {collation : Collation}
  {before store : KeyValueStore}

theorem MigrationCut.inherited (cut : MigrationCut (inherited context before) before store) :
    inherited context store = inherited context before := by
  cases cut with
  | untouched => rfl
  | complete => exact inherited_again context before
  | journaled completes journal =>
    obtain ⟨pending, present, leads⟩ := journal
    rw [inherited_of_journal context present, leads]
    exact Prod.ext completes.symm rfl

theorem globalized_complete (halfway : (KeyValueStore.inherited context before).1 = .ok ()) :
    globalized collation context
        (consolidated collation context (KeyValueStore.inherited context before).2).2 =
      consolidated collation context (KeyValueStore.inherited context before).2 := by
  have settled := inherited_pending context before
  have inherits := inherited_inheritance halfway
  rcases consolidated_cases settled with ⟨done, version⟩ | ⟨message, failed⟩ | ⟨pending, global, done⟩
  · rw [done, globalized_of_inherits settled inherits, done]
  · rw [failed, globalized_of_inherits settled inherits, failed]
  · rw [done, globalized_of_inherits rfl rfl]
    exact consolidated_of_version rfl (by simp [replay, global])

theorem GlobalCut.globalized (cut : GlobalCut collation context before store) :
    globalized collation context store = globalized collation context before := by
  cases cut with
  | inheriting cut => exact globalized_congr cut.inherited
  | consolidating halfway cut =>
    rw [globalized_of_halfway halfway]
    have settled := inherited_pending context before
    have inherits := inherited_inheritance halfway
    cases cut with
    | untouched => exact globalized_of_inherits settled inherits
    | complete => exact globalized_complete halfway
    | journaled completes journal =>
      obtain ⟨pending, present, leads⟩ := journal
      have replayed : KeyValueStore.inherited context store = (.ok (),
          (consolidated collation context (KeyValueStore.inherited context before).2).2) := by
        rw [inherited_of_journal context present, leads]
      rw [KeyValueStore.globalized, replayed]
      exact consolidated_again settled completes

end Cuts

/-! ## Blocked checks -/

/-- Every call but a migration. -/
def Operation.leavesJournal : Operation → Bool
  | .migrateToInheritance .. | .migrateToGlobalRules .. => false
  | _ => true

def StoreRequest.LeavesJournal : StoreRequest → Prop
  | .set key _ | .remove key => key ≠ MIGRATION_PENDING_KEY
  | _ => True

def HoldsJournal (state : State permissionSystem) : Prop :=
  (state.world.store MIGRATION_PENDING_KEY).isSome

def blockage : Discipline permissionSystem where
  starts := fun _ operation => operation.leavesJournal
  sound := HoldsJournal
  later := fun _ _ => True
  refl := fun _ => trivial
  trans := fun _ _ _ _ _ => trivial
  may := fun _ _ _ _ => True
  delivers := fun _ _ _ _ => True

theorem blockage_moves (mover : Nat) (before after : State permissionSystem) :
    blockage.Moves mover before after := ⟨trivial, fun _ _ => trivial⟩

section Blockage

variable {call : Call permissionSystem}
  {pre : List (Entry permissionSystem) → State permissionSystem → Prop}

theorem HoldsJournal.landed {memory : Instance} {before after : Storage} {request : StoreRequest}
    (journal : HoldsJournal ⟨memory, before⟩) (leaves : request.LeavesJournal)
    (landed : Landed before request after) : HoldsJournal ⟨memory, after⟩ := by
  cases landed with
  | nothing => exact journal
  | set key value =>
    have different : MIGRATION_PENDING_KEY ≠ key := Ne.symm leaves
    simpa [HoldsJournal, Storage.put, Function.update_of_ne different] using journal
  | remove key =>
    have different : MIGRATION_PENDING_KEY ≠ key := Ne.symm leaves
    simpa [HoldsJournal, Storage.put, Function.update_of_ne different] using journal

theorem blocked_request (request : StoreRequest) (leaves : request.LeavesJournal)
    {post : request.Reply → Prop}
    (answered : ∀ reaction value (memory memory' : Instance) (earlier storage : Storage),
      HoldsJournal ⟨memory, earlier⟩ →
      serveRequest request reaction memory earlier = some (.ok value, memory', storage) → post value) :
    blockage.Spec call pre (NostrWot.Permissions.request request) fun _ _ value => post value := by
  refine Discipline.Spec.request (fun _ _ _ _ _ => trivial) ?_ ?_
  · intro log now earlier reaction answer memory world _ _ journal served
    obtain ⟨rfl, landed⟩ := serveRequest_landed served
    exact ⟨journal.landed leaves landed, blockage_moves _ _ _⟩
  · intro log now earlier reaction answer taken final _ _ journal served _ _ sound _ _
    refine ⟨?_, blockage_moves _ _ _, ?_⟩
    · show (((final.acknowledged _).world.store MIGRATION_PENDING_KEY).isSome : Prop)
      rw [store_acknowledged]
      exact sound
    · intro value same
      subst same
      exact answered reaction value _ _ _ _ journal served

theorem blocked_of_uses {α : Type} {task : Task α}
    (uses : task.Uses StoreRequest.LeavesJournal) :
    blockage.Spec call pre task fun _ _ _ => True :=
  .of_uses uses (fun _ _ journal => ⟨journal, blockage_moves _ _ _⟩) fun request leaves =>
    blocked_request request leaves fun _ _ _ _ _ _ _ _ => trivial

theorem blocked_load : blockage.Spec call pre load fun _ _ _ => False := by
  have found : blockage.Spec call pre (get MIGRATION_PENDING_KEY) fun _ _ pending =>
      pending.isSome := by
    refine blocked_request (.get _) trivial fun reaction value memory memory' earlier storage
      journal served => ?_
    obtain ⟨-, -, same⟩ := serveRequest_get served
    rw [same]
    exact journal
  refine .bind _ found fun _ _ _ pending => .known (fun _ _ held => held.2.2) fun present => ?_
  simp only [present, if_true]
  exact .throw

/-! Everything but a migration leaves the journal alone. -/

abbrev Leaves {α : Type} (task : Task α) : Prop := task.Uses StoreRequest.LeavesJournal

theorem leaves_get (key : StoreKey) : Leaves (get key) := ⟨trivial, fun _ => trivial⟩

theorem leaves_set {key : StoreKey} (different : key ≠ MIGRATION_PENDING_KEY) (value : key.Value) :
    Leaves (set key value) := ⟨different, fun _ => trivial⟩

theorem leaves_remove {key : StoreKey} (different : key ≠ MIGRATION_PENDING_KEY) :
    Leaves (remove key) := ⟨different, fun _ => trivial⟩

variable {self : Nat}

theorem leaves_withLock {lock : LockName} {fn : Task Unit} (leaves : Leaves fn) :
    Leaves (withLock lock self fn) :=
  .bind (fun _ => trivial) fun _ => .bind ⟨trivial, fun _ => trivial⟩ fun _ => .finallyDo _ leaves

theorem leaves_inherits : Leaves inherits :=
  .bind (leaves_get INHERITANCE_KEY) fun _ => trivial

theorem leaves_getUseGlobalDefaults : Leaves getUseGlobalDefaults := by
  refine .bind (fun _ => trivial) fun cached => ?_
  cases cached with
  | some flag => trivial
  | none => exact .bind (leaves_get _) fun _ => .bind (fun _ => trivial) fun _ => trivial

variable (accountId : String)

theorem leaves_activeBucket : Leaves (activeBucket accountId) := by
  refine .bind leaves_inherits fun inheriting => ?_
  split
  · trivial
  · refine .bind leaves_getUseGlobalDefaults fun shared => ?_
    split <;> trivial

theorem leaves_load : Leaves load := by
  refine .bind (leaves_get _) fun pending => ?_
  split
  · trivial
  · refine .bind (fun _ => trivial) fun cached => ?_
    cases cached with
    | some tree => trivial
    | none => exact .bind (leaves_get _) fun _ => .bind (fun _ => trivial) fun _ => trivial

theorem leaves_getForOrigin (origin accountId : String) : Leaves (getForOrigin origin accountId) := by
  refine .bind (leaves_activeBucket accountId) fun bucket => ?_
  cases bucket with
  | none => trivial
  | some bucket =>
    refine .bind leaves_load fun tree => .bind leaves_inherits fun inheriting => ?_
    split <;> trivial

theorem leaves_requireLabel (value what : String) : Leaves (requireLabel value what) := by
  unfold requireLabel
  split <;> trivial

theorem leaves_writeBucket : Leaves (writeBucket accountId) := by
  refine .bind (leaves_activeBucket accountId) fun bucket => ?_
  cases bucket <;> trivial

theorem leaves_commit (tree : PermissionMap) : Leaves (commit tree) :=
  .finallyDo _ (leaves_set (by decide) tree)

theorem leaves_edit (change : PermissionMap → PermissionMap) :
    Leaves (draft >>= fun tree => commit (change tree)) :=
  .bind leaves_load fun _ => leaves_commit _

theorem leaves_writeRule (origin key : String) (decision : PermissionDecision)
    (accountId : String) : Leaves (writeRule self origin key decision accountId) := by
  refine leaves_withLock (.bind (leaves_writeBucket accountId) fun bucket => ?_)
  refine .bind (.bind (leaves_get GLOBAL_RULES_VERSION_KEY) fun version => ?_) fun _ => leaves_edit _
  split
  · trivial
  · split <;> trivial

theorem leaves_saveDirect (origin key : String) (decision : PermissionDecision)
    (accountId : String) : Leaves (saveDirect self origin key decision accountId) := by
  refine .bind (leaves_requireLabel _ _) fun _ => .bind (leaves_requireLabel _ _) fun _ => ?_
  split
  · trivial
  · split
    · trivial
    · exact leaves_writeRule origin key decision accountId

theorem leaves_revoke (filter : AuthenticationGrantFilter) :
    Leaves (revoke self filter) := by
  have labels : ∀ (value : Option String) (what : String), Leaves (requireFilter value what) := by
    intro value what
    cases value with
    | none => trivial
    | some label => exact leaves_requireLabel label what
  refine .bind (labels _ _) fun _ => .bind (labels _ _) fun _ => .bind (labels _ _) fun _ => ?_
  refine leaves_withLock (.bind (.bind (leaves_get _) fun _ => trivial) fun grants => ?_)
  refine .bind ?_ fun _ => leaves_set (by decide) _
  unfold revokeDefaultBackend
  split
  · exact .bind (leaves_get _) fun _ => leaves_set (by decide) _
  · trivial

theorem leaves_clearForAccount :
    Leaves (clearForAccount self accountId) := by
  refine .bind (leaves_requireLabel _ _) fun _ => ?_
  split
  · trivial
  · refine .bind (leaves_revoke _) fun _ => leaves_withLock (.bind leaves_load fun tree => ?_)
    split
    · exact leaves_commit _
    · trivial

theorem leaves_clear (origin : Option String) (accountId : String) :
    Leaves (clear self origin accountId) := by
  cases origin with
  | none =>
    exact .bind (leaves_revoke _) fun _ =>
      leaves_withLock (.finallyDo _ (leaves_remove (by decide)))
  | some origin =>
    refine .bind (leaves_requireLabel _ _) fun _ => .bind (leaves_writeBucket _) fun _ => ?_
    refine .bind (leaves_revoke _) fun _ => leaves_withLock ?_
    exact .bind (leaves_writeBucket _) fun _ => leaves_edit _

theorem leaves_copyPermissions (source : Option String) (target : String) :
    Leaves (copyPermissions self source target) := by
  unfold copyPermissions
  split
  · trivial
  · refine .bind (leaves_requireLabel _ _) fun _ => leaves_withLock ?_
    refine .bind (leaves_get GLOBAL_RULES_VERSION_KEY) fun version => ?_
    simp only
    split
    · trivial
    · refine .bind leaves_load fun tree => ?_
      split
      · exact leaves_commit _
      · trivial

theorem leaves_copyDefaults (newAccountId : String) (ids : List String) :
    Leaves (copyDefaults self newAccountId ids) := by
  induction ids with
  | nil => trivial
  | cons id rest ih =>
    unfold copyDefaults
    split
    · exact .bind (leaves_copyPermissions _ _) fun _ => ih
    · exact ih

theorem leaves_setUseGlobalDefaults (enabled : Bool) : Leaves (setUseGlobalDefaults enabled) :=
  .finallyDo _ (leaves_set (by decide) enabled)

theorem leaves_setupNewAccountPermissions (newAccountId : String) (existing : List String)
    (source : Option String) :
    Leaves (setupNewAccountPermissions self newAccountId existing source) := by
  refine .bind (leaves_requireLabel _ _) fun _ => .bind leaves_inherits fun inheriting => ?_
  split
  · split
    · trivial
    · exact leaves_withLock (.bind leaves_load fun _ =>
        .bind (leaves_get GLOBAL_RULES_VERSION_KEY) fun _ => leaves_commit _)
  · refine .bind leaves_getUseGlobalDefaults fun shared => ?_
    cases shared with
    | false =>
      simp only [Bool.false_eq_true, if_false]
      split
      · exact leaves_copyPermissions _ _
      · exact leaves_clearForAccount _
    | true =>
      refine .bind (leaves_copyDefaults _ _) fun _ => .bind (leaves_setUseGlobalDefaults false)
        fun _ => ?_
      dsimp only
      split
      · exact leaves_copyPermissions _ _
      · exact leaves_clearForAccount _

theorem blocked_check (origin method : String) (kind : KindArgument) (accountId : String) :
    blockage.Spec call pre (check origin method kind accountId) fun _ _ decision =>
      decision = .ask := by
  have empty : blockage.Spec call pre (getForOrigin origin accountId) fun _ _ rules =>
      rules = ∅ := by
    refine .bind _ (blocked_of_uses (leaves_activeBucket accountId)) fun _ _ _ bucket => ?_
    cases bucket with
    | none => exact .pure fun _ _ _ _ _ => rfl
    | some bucket =>
      exact .bind _ blocked_load fun _ _ _ _ => .known (fun _ _ held => held.2.2) False.elim
  refine .bind _ empty fun _ _ _ rules => .pure fun log now _ _ held => ?_
  rw [held.2.2]
  exact resolve_empty method kind

/-- While a migration is cut off, a check can only answer ask. -/
theorem method_blockage :
    blockage.Method fun _ _ _ result => ∀ decision, result = .decision decision → decision = .ask := by
  intro ⟨self, operation, born⟩ starts _ _
  have completes : ∀ {pre} {task : Task Unit}, Leaves task →
      blockage.Spec ⟨self, operation, born⟩ pre (completed task) fun _ _ result =>
        ∀ decision, result = .decision decision → decision = .ask :=
    fun leaves => .bind _ (blocked_of_uses leaves) fun _ _ _ _ => .pure fun _ _ _ _ _ => by simp
  cases operation with
  | check origin method kind accountId =>
    refine .bind _ (blocked_check origin method kind accountId) fun _ _ _ decision => .pure ?_
    intro log now _ _ held other same
    cases same
    exact held.2.2
  | getForOrigin origin accountId =>
    exact .bind _ (blocked_of_uses (leaves_getForOrigin origin accountId)) fun _ _ _ _ =>
      .pure fun _ _ _ _ _ => by simp
  | saveDirect origin key decision accountId =>
    exact completes (leaves_saveDirect origin key decision accountId)
  | save origin method kind decision accountId =>
    refine completes ?_
    unfold save
    split
    · exact leaves_saveDirect _ _ _ _
    · trivial
  | saveRetiredKey origin key decision accountId =>
    refine completes (.bind (leaves_requireLabel _ _) fun _ => ?_)
    split
    · trivial
    · exact leaves_writeRule _ _ _ _
  | clear origin accountId => exact completes (leaves_clear origin accountId)
  | clearAllForOrigin origin =>
    exact completes (.bind (leaves_requireLabel _ _) fun _ => .bind (leaves_revoke _) fun _ =>
      leaves_withLock (leaves_edit _))
  | clearForAccount accountId => exact completes (leaves_clearForAccount accountId)
  | copyPermissions source target => exact completes (leaves_copyPermissions source target)
  | setupNewAccountPermissions newAccountId existing source =>
    exact completes (leaves_setupNewAccountPermissions newAccountId existing source)
  | setUseGlobalDefaults enabled => exact completes (leaves_setUseGlobalDefaults enabled)
  | resetAccountRules =>
    refine completes (.bind leaves_inherits fun inheriting => ?_)
    split
    · trivial
    · exact leaves_withLock (leaves_edit _)
  | inheritRule origin key accountId =>
    refine completes (.bind (leaves_requireLabel _ _) fun _ => ?_)
    refine .bind (leaves_requireLabel _ _) fun _ => .bind (leaves_requireLabel _ _) fun _ => ?_
    split
    · trivial
    · exact leaves_withLock (leaves_edit _)
  | clearRuleBucket origin accountId =>
    refine completes (.bind (leaves_requireLabel _ _) fun _ => ?_)
    exact .bind (leaves_requireLabel _ _) fun _ => leaves_withLock (leaves_edit _)
  | revokeAuthentication filter => exact completes (leaves_revoke filter)
  | migrateToInheritance context => exact Bool.noConfusion starts
  | migrateToGlobalRules collation context => exact Bool.noConfusion starts

end Blockage

/-- The moves of everything that can happen before a migration is run again. -/
def beforeRetry (_ : Config permissionSystem) : Move permissionSystem → Prop
  | .start operation => operation.leavesJournal
  | _ => True

theorem beforeRetry_admits (config : Config permissionSystem) (move : Move permissionSystem)
    (allowed : beforeRetry config move) : config.Admits blockage.contract move := by
  cases move with
  | start operation => exact allowed
  | serve self reaction => trivial
  | deliver self =>
    intro _ _ _ _ _ _
    trivial
  | event event =>
    intro memory world occurred journal
    cases occurred
    exact ⟨journal, trivial, fun _ _ => trivial⟩

/-- Whatever is called on this store short of a migration, by an instance that
may have anything cached, a check that answers says ask. -/
def Blocks (store : KeyValueStore) : Prop :=
  ∀ initial final : Config permissionSystem, initial.processes = [] →
    initial.state.world.store = store → Config.Reaches beforeRetry initial final →
    ∀ self decision, final.outcome self = some (.ok (.decision decision)) → decision = .ask

theorem blocks_of_journal {store : KeyValueStore} {pending : PendingMigration}
    (journal : store MIGRATION_PENDING_KEY = some pending) : Blocks store := by
  intro initial final idle same reaches self decision answered
  have holds : HoldsJournal initial.state := by
    rw [HoldsJournal, same, journal]
    rfl
  obtain ⟨kept, -⟩ := Discipline.Kept.reaches method_blockage (.idle trivial holds idle)
    beforeRetry_admits reaches
  obtain ⟨process, found, settled⟩ := Config.outcome_eq_some.mp answered
  obtain ⟨last, -, -, asks⟩ := kept.settled found settled
  exact asks decision rfl

/-! ## Cut off and run again -/

inductive MigrationKind where
  | toInheritance
  | toGlobalRules (collation : Collation)

namespace MigrationKind

variable {kind : MigrationKind} {context : PermissionMigrationContext}
  {before store after : KeyValueStore}

def task (self : Nat) (context : PermissionMigrationContext) : MigrationKind → Task Unit
  | .toInheritance => migrateToInheritance self context
  | .toGlobalRules collation => migrateToGlobalRules collation self context

def result (context : PermissionMigrationContext) (store : KeyValueStore) :
    MigrationKind → Except String Unit × KeyValueStore
  | .toInheritance => inherited context store
  | .toGlobalRules collation => globalized collation context store

def Cut (context : PermissionMigrationContext) (before : KeyValueStore) :
    MigrationKind → KeyValueStore → Prop
  | .toInheritance => MigrationCut (inherited context before) before
  | .toGlobalRules collation => GlobalCut collation context before

theorem performs_task {queue : LockName → List Nat} {state : State permissionSystem} {self : Nat}
    (rests : Rests queue store state) (free : queue .rules = []) :
    Performs (fun state => kind.Cut context store state.world.store)
      (fun outcome last => outcome = (kind.result context store).1 ∧
        last.world.store = (kind.result context store).2) (kind.task self context) state := by
  cases kind with
  | toInheritance =>
    exact performs_migrateToInheritance rests free (fun _ cut => cut)
      fun _ rests => ⟨rfl, rests.holds⟩
  | toGlobalRules collation =>
    exact performs_migrateToGlobalRules rests free (fun _ cut => cut)
      fun _ rests => ⟨rfl, rests.holds⟩

theorem Cut.result (cut : kind.Cut context before store) :
    kind.result context store = kind.result context before := by
  cases kind with
  | toInheritance => exact MigrationCut.inherited cut
  | toGlobalRules collation => exact GlobalCut.globalized cut

/-- A store on the way through a migration: as it was, with a journal that leads
to the end of a half, or at the end of one. -/
inductive Stage (kind : MigrationKind) (context : PermissionMigrationContext)
    (before : KeyValueStore) : KeyValueStore → Prop
  | untouched : Stage kind context before before
  | journaled {store target : KeyValueStore} (journal : Journaled target store)
      (leads : target = (inherited context before).2 ∨ target = (kind.result context before).2) :
      Stage kind context before store
  | halfway : Stage kind context before (inherited context before).2
  | complete : Stage kind context before (kind.result context before).2

theorem Stage.inherited (stage : Stage kind context before store) :
    (KeyValueStore.inherited context store).2 = (KeyValueStore.inherited context before).2 ∨
      (KeyValueStore.inherited context store).2 = (kind.result context before).2 := by
  cases stage with
  | untouched => exact .inl rfl
  | halfway => exact .inl (by rw [inherited_again])
  | journaled journal leads =>
    obtain ⟨pending, present, lands⟩ := journal
    rw [inherited_of_journal context present, lands]
    exact leads
  | complete =>
    cases kind with
    | toInheritance => exact .inl (by rw [MigrationKind.result, inherited_again])
    | toGlobalRules collation =>
      rw [MigrationKind.result]
      cases halfway : (KeyValueStore.inherited context before).1 with
      | error message =>
        have stays : globalized collation context before =
            KeyValueStore.inherited context before := by
          unfold globalized
          cases ends : KeyValueStore.inherited context before with
          | mk outcome half =>
            rw [ends] at halfway
            cases halfway
            rfl
        exact .inl (by rw [stays, inherited_again])
      | ok =>
        have settled := inherited_pending context before
        rw [globalized_of_halfway halfway]
        have cases : _ := @consolidated_cases context collation _ settled
        rcases cases with
          ⟨done, -⟩ | ⟨message, failed⟩ | ⟨pending, -, done⟩
        · exact .inl (by rw [done, inherited_again])
        · exact .inl (by rw [failed, inherited_again])
        · refine .inr ?_
          rw [done, inherited_of_inherits context rfl rfl]

theorem Stage.of_inherited (stage : Stage kind context before store) :
    Stage kind context before (KeyValueStore.inherited context store).2 := by
  rcases stage.inherited with same | same
  · exact same ▸ .halfway
  · exact same ▸ .complete

theorem Stage.cut (stage : Stage kind context before store)
    (same : kind.result context store = kind.result context before)
    (cut : kind.Cut context store after) : Stage kind context before after := by
  cases kind with
  | toInheritance =>
    cases cut with
    | untouched => exact stage
    | journaled completes journal => exact .journaled journal stage.inherited
    | complete => exact stage.of_inherited
  | toGlobalRules collation =>
    cases cut with
    | inheriting cut =>
      cases cut with
      | untouched => exact stage
      | journaled completes journal => exact .journaled journal stage.inherited
      | complete => exact stage.of_inherited
    | consolidating halfway cut =>
      have ends : consolidated collation context (KeyValueStore.inherited context store).2 =
          (toGlobalRules collation).result context before :=
        (globalized_of_halfway halfway).symm.trans same
      rw [ends] at cut
      cases cut with
      | untouched => exact stage.of_inherited
      | journaled completes journal => exact .journaled journal (.inr rfl)
      | complete => exact .complete

end MigrationKind

/-- A migration that runs over `before`, by an instance that has no other call
under way and nothing false cached, can be cut off at `after`. -/
def CutOff (kind : MigrationKind) (context : PermissionMigrationContext)
    (before after : KeyValueStore) : Prop :=
  ∃ (self : Nat) (queue : LockName → List Nat) (state cut : State permissionSystem),
    queue .rules = [] ∧ Rests queue before state ∧
      (kind.task self context).Cuts Reaction.perform state cut ∧ cut.world.store = after

theorem CutOff.cut {kind : MigrationKind} {context : PermissionMigrationContext}
    {before after : KeyValueStore} (cutOff : CutOff kind context before after) :
    kind.Cut context before after := by
  obtain ⟨self, queue, state, cut, free, rests, cuts, same⟩ := cutOff
  exact same ▸ (MigrationKind.performs_task rests free).cut cuts

/-- Run to its end over `store`, the migration has this outcome and leaves this store. -/
def Completes (kind : MigrationKind) (context : PermissionMigrationContext)
    (store : KeyValueStore) (outcome : Except String Unit) (final : KeyValueStore) : Prop :=
  ∀ (self : Nat) (queue : LockName → List Nat) (state : State permissionSystem),
    queue .rules = [] → Rests queue store state →
    ∃ last : State permissionSystem,
      (kind.task self context).run Reaction.perform state = some (outcome, last) ∧
        last.world.store = final

theorem completes_result (kind : MigrationKind) (context : PermissionMigrationContext)
    (store : KeyValueStore) :
    Completes kind context store (kind.result context store).1 (kind.result context store).2 := by
  intro self queue state free rests
  obtain ⟨outcome, last, ran, same, held⟩ := (MigrationKind.performs_task rests free).run
  exact ⟨last, same ▸ ran, held⟩

/-- However often a migration is cut off: before a retry, checks are blocked
unless the store is as it was, complete, or between the halves of
`migrateToGlobalRules`; and a retry ends as the first attempt would have. -/
theorem interrupted_migration_recovers (kind : MigrationKind)
    (context : PermissionMigrationContext) {before after : KeyValueStore}
    (interrupted : Relation.ReflTransGen (CutOff kind context) before after) :
    (Blocks after ∨ after = before ∨ after = (inherited context before).2 ∨
      after = (kind.result context before).2) ∧
    ∃ outcome, Completes kind context before outcome (kind.result context before).2 ∧
      Completes kind context after outcome (kind.result context before).2 := by
  have reached : kind.Stage context before after ∧
      kind.result context after = kind.result context before := by
    induction interrupted with
    | refl => exact ⟨.untouched, rfl⟩
    | tail _ cutOff ih =>
      exact ⟨ih.1.cut ih.2 cutOff.cut, (MigrationKind.Cut.result cutOff.cut).trans ih.2⟩
  obtain ⟨stage, same⟩ := reached
  refine ⟨?_, _, completes_result kind context before, ?_⟩
  · cases stage with
    | untouched => exact .inr (.inl rfl)
    | halfway => exact .inr (.inr (.inl rfl))
    | complete => exact .inr (.inr (.inr rfl))
    | journaled journal leads =>
      obtain ⟨pending, present, -⟩ := journal
      exact .inl (blocks_of_journal present)
  · rw [← same]
    exact completes_result kind context after

section Example

instance (config : Config permissionSystem) (move : Move permissionSystem) :
    Decidable (beforeRetry config move) :=
  match move with
  | .start operation => inferInstanceAs (Decidable (operation.leavesJournal = true))
  | .serve _ _ | .deliver _ | .event _ => .isTrue trivial

/-- Where a migration of `allowedSite` by a fresh instance stands at its request
number `count`. -/
def migrationCut (kind : MigrationKind) (count : Nat) : Option (State permissionSystem) :=
  (kind.task 0 { accountIds := ["account"] }).cutAt Reaction.perform count ⟨{}, .opened allowedSite⟩

theorem cutOff_migrationCut {kind : MigrationKind} {count : Nat} {cut : State permissionSystem}
    (stands : migrationCut kind count = some cut) :
    CutOff kind { accountIds := ["account"] } allowedSite cut.world.store :=
  ⟨0, fun _ => [], _, cut, rfl, ⟨rfl, rfl, by simp, by simp⟩, .of_cutAt stands, rfl⟩

/-- Between the halves of `migrateToGlobalRules` a check answers from the inherited tree. -/
theorem interrupted_migration_may_answer :
    ¬ ∀ (kind : MigrationKind) (context : PermissionMigrationContext)
      (before after : KeyValueStore), CutOff kind context before after → after ≠ before →
      after ≠ (kind.result context before).2 → Blocks after := by
  intro claim
  have stands : (migrationCut (.toGlobalRules .codePoints) 12).any (fun cut =>
      cut.world.store INHERITANCE_KEY = some true &&
      cut.world.store GLOBAL_RULES_VERSION_KEY = none &&
      ((opened cut.world.store).execWhile beforeRetry (.start readKey :: answers 0 4)).any
        fun final => answeredWith final 0 .allow) = true := by decide
  have ends : (MigrationKind.result { accountIds := ["account"] } allowedSite
      (.toGlobalRules .codePoints)).2 GLOBAL_RULES_VERSION_KEY = some (1 : Nat) := by decide
  simp only [Option.any_eq_true, Bool.and_eq_true, decide_eq_true_eq] at stands
  obtain ⟨cut, present, ⟨inherits, version⟩, final, executed, answered⟩ := stands
  have blocks := claim _ _ _ _ (cutOff_migrationCut present)
    (fun same => by simp [same, allowedSite] at inherits)
    (fun same => by simp [same, ends] at version)
  have asks := blocks _ _ rfl rfl (.of_execWhile executed) 0 .allow
    (outcome_of_answeredWith answered)
  contradiction

theorem interrupted_migration_recovers_allowedSite :
    ∃ after outcome, Relation.ReflTransGen
        (CutOff .toInheritance { accountIds := ["account"] }) allowedSite after ∧
      (after MIGRATION_PENDING_KEY).isSome ∧
      (Blocks after ∨ after = allowedSite ∨
        after = (inherited { accountIds := ["account"] } allowedSite).2 ∨
        after = (MigrationKind.toInheritance.result { accountIds := ["account"] } allowedSite).2) ∧
      Completes .toInheritance { accountIds := ["account"] } after outcome
        (MigrationKind.toInheritance.result { accountIds := ["account"] } allowedSite).2 := by
  have stands : (migrationCut .toInheritance 9).any (fun cut =>
      (cut.world.store MIGRATION_PENDING_KEY).isSome) = true := by decide
  obtain ⟨cut, present, journal⟩ := (Option.any_eq_true _ _).mp stands
  have interrupted := Relation.ReflTransGen.single (cutOff_migrationCut present)
  obtain ⟨answers, outcome, -, completes⟩ :=
    interrupted_migration_recovers .toInheritance { accountIds := ["account"] } interrupted
  exact ⟨_, outcome, interrupted, journal, answers, completes⟩

end Example

end NostrWot.Permissions
