import NostrWot.Async.Discipline
import NostrWot.Permissions.Operations

namespace NostrWot.Permissions

open NostrWot.Data NostrWot.Async StoreKey

/-! # Clearing everything

`clear` without an origin removes the tree and nothing else.  What it revoked
stays revoked as long as no migration journal still holds it.
-/

/-- The calls that grant nothing by themselves: everything but a save, a copy
and the setup of an account. -/
def Operation.grantsNothing : Operation → Bool
  | .saveDirect .. | .save .. | .saveRetiredKey .. | .copyPermissions ..
  | .setupNewAccountPermissions .. => false
  | _ => true

structure Storage.Revoked (storage : Storage) : Prop where
  tree : GrantsNothing storage.tree
  journal : ∀ pending ∈ storage.store MIGRATION_PENDING_KEY, GrantsNothing pending.tree

structure Revoked (state : State permissionSystem) : Prop extends
    Storage.Revoked state.world where
  cached : ∀ tree ∈ state.memory.cachedPerms, GrantsNothing tree

/-- What is revoked stays revoked, and no check answers allow. -/
def revocation : Discipline permissionSystem where
  starts := fun _ operation => operation.grantsNothing
  sound := Revoked
  later := fun _ _ => True
  refl := fun _ => trivial
  trans := fun _ _ _ _ _ => trivial
  may := fun _ _ _ _ => True
  delivers := fun _ _ _ _ => True

theorem revocation_moves (mover : Nat) (before after : State permissionSystem) :
    revocation.Moves mover before after := ⟨trivial, fun _ _ => trivial⟩

section Revocation

variable {call : Call permissionSystem}
  {pre : List (Entry permissionSystem) → State permissionSystem → Prop}

def StoreRequest.WritesNoAllow : StoreRequest → Prop
  | .set .PERMISSIONS_STORAGE_KEY tree => GrantsNothing tree
  | .set .MIGRATION_PENDING_KEY pending => GrantsNothing pending.tree
  | _ => True

theorem Storage.Revoked.landed {before after : Storage} {request : StoreRequest}
    (revoked : before.Revoked) (harmless : request.WritesNoAllow)
    (landed : Landed before request after) : after.Revoked := by
  cases landed with
  | nothing => exact revoked
  | set key value =>
    constructor
    · by_cases same : key = PERMISSIONS_STORAGE_KEY
      · subst same
        simp only [Storage.tree, Storage.put, Function.update_self, Option.getD_some]
        exact harmless
      · simpa [Storage.tree, Storage.put, Function.update_of_ne (Ne.symm same)] using revoked.tree
    · by_cases same : key = MIGRATION_PENDING_KEY
      · subst same
        simp only [Storage.put, Function.update_self, Option.mem_some_iff, forall_eq']
        exact harmless
      · simpa [Storage.put, Function.update_of_ne (Ne.symm same)] using revoked.journal
  | remove key =>
    constructor
    · by_cases same : key = PERMISSIONS_STORAGE_KEY
      · subst same
        simpa [Storage.tree, Storage.put] using GrantsNothing.empty
      · simpa [Storage.tree, Storage.put, Function.update_of_ne (Ne.symm same)] using revoked.tree
    · by_cases same : key = MIGRATION_PENDING_KEY
      · subst same
        simp [Storage.put]
      · simpa [Storage.put, Function.update_of_ne (Ne.symm same)] using revoked.journal

theorem Revoked.acknowledged {state : State permissionSystem} (revoked : Revoked state)
    (entry : Entry permissionSystem) : Revoked (state.acknowledged entry) := by
  simp only [State.acknowledged]
  split
  · exact ⟨⟨revoked.tree, revoked.journal⟩, revoked.cached⟩
  · exact revoked

variable (request : StoreRequest)

theorem revoked_request (harmless : request.WritesNoAllow) {post : request.Reply → Prop}
    (answered : ∀ reaction value (earlier : Storage) (memory memory' : Instance) (storage : Storage),
      serveRequest request reaction memory earlier = some (.ok value, memory', storage) →
      earlier.Revoked → post value) :
    revocation.Spec call pre (NostrWot.Permissions.request request) fun _ _ value => post value := by
  refine Discipline.Spec.request (fun _ _ _ _ _ => trivial) ?_ ?_
  · intro log now earlier reaction answer memory world _ _ revoked served
    obtain ⟨rfl, landed⟩ := serveRequest_landed served
    exact ⟨⟨revoked.toRevoked.landed harmless landed, revoked.cached⟩, revocation_moves _ _ _⟩
  · intro log now earlier reaction answer taken final _ _ revoked served _ _ sound _ _
    refine ⟨sound.acknowledged _, revocation_moves _ _ _, ?_⟩
    rintro value rfl
    exact answered reaction value _ _ _ _ served revoked.toRevoked

theorem revoked_get (key : StoreKey) :
    revocation.Spec call pre (get key) fun _ _ _ => True :=
  revoked_request (.get key) trivial fun _ _ _ _ _ _ _ _ => trivial

theorem revoked_get_tree :
    revocation.Spec call pre (get PERMISSIONS_STORAGE_KEY) fun _ _ value =>
      GrantsNothing (value.getD ∅) := by
  refine revoked_request (.get _) trivial fun reaction value earlier _ _ _ served revoked => ?_
  obtain ⟨-, -, rfl⟩ := serveRequest_get served
  exact revoked.tree

theorem revoked_get_pending :
    revocation.Spec call pre (get MIGRATION_PENDING_KEY) fun _ _ value =>
      ∀ pending ∈ value, GrantsNothing pending.tree := by
  refine revoked_request (.get _) trivial fun reaction value earlier _ _ _ served revoked => ?_
  obtain ⟨-, -, rfl⟩ := serveRequest_get served
  exact revoked.journal

theorem revoked_write (harmless : request.WritesNoAllow) :
    revocation.Spec call pre (NostrWot.Permissions.request request) fun _ _ _ => True :=
  revoked_request request harmless fun _ _ _ _ _ _ _ _ => trivial

theorem revoked_remember {change : Instance → Instance}
    (keeps : ∀ memory : Instance, ∀ tree ∈ (change memory).cachedPerms, tree ∈ memory.cachedPerms) :
    revocation.Spec call pre (remember change) fun _ _ _ => True :=
  .modify fun _ _ revoked _ _ =>
    ⟨⟨revoked.toRevoked, fun tree found => revoked.cached tree (keeps _ tree found)⟩,
      revocation_moves _ _ _, trivial⟩

theorem revoked_finally {task : Task Unit} {cleanup : Instance → Instance}
    (keeps : ∀ memory : Instance, ∀ tree ∈ (cleanup memory).cachedPerms, tree ∈ memory.cachedPerms)
    (spec : revocation.Spec call pre task fun _ _ _ => True) :
    revocation.Spec call pre (task.finallyDo cleanup) fun _ _ _ => True :=
  .finallyDo _ spec (fun _ revoked =>
    ⟨⟨revoked.toRevoked, fun tree found => revoked.cached tree (keeps _ tree found)⟩,
      revocation_moves _ _ _⟩) fun _ _ _ _ _ => trivial

variable {self : Nat}

theorem revoked_withLock {lock : LockName} {fn : Task Unit}
    (locked : revocation.Spec call (fun _ _ => True) fn fun _ _ _ => True) :
    revocation.Spec call pre (withLock lock self fn) fun _ _ _ => True := by
  refine .bind _ (revoked_remember fun _ _ found => found) fun _ _ _ _ => ?_
  refine .bind _ (revoked_write (.turn lock self) trivial) fun _ _ _ _ => ?_
  exact revoked_finally (fun _ _ found => found)
    (locked.weaken (fun _ _ _ _ _ => trivial) fun _ _ _ _ done => done)

/-! ## Reading -/

theorem revoked_inherits : revocation.Spec call pre inherits fun _ _ _ => True :=
  .bind _ (revoked_get _) fun _ _ _ _ => .pure fun _ _ _ _ _ => trivial

theorem revoked_getUseGlobalDefaults :
    revocation.Spec call pre getUseGlobalDefaults fun _ _ _ => True := by
  refine .bind (fun _ _ _ => True) (.read fun _ _ _ _ _ => trivial) fun _ _ _ cached => ?_
  cases cached with
  | some flag => exact .pure fun _ _ _ _ _ => trivial
  | none =>
    refine .bind _ (revoked_get _) fun _ _ _ _ => ?_
    refine .bind _ (revoked_remember fun _ _ found => found) fun _ _ _ _ => ?_
    exact .pure fun _ _ _ _ _ => trivial

variable (accountId : String)

theorem revoked_activeBucket :
    revocation.Spec call pre (activeBucket accountId) fun _ _ _ => True := by
  refine .bind _ revoked_inherits fun _ _ _ inheriting => ?_
  split
  · exact .pure fun _ _ _ _ _ => trivial
  · refine .bind _ revoked_getUseGlobalDefaults fun _ _ _ _ => ?_
    split <;> exact .pure fun _ _ _ _ _ => trivial

theorem revoked_load :
    revocation.Spec call pre load fun _ _ tree => GrantsNothing tree := by
  refine .bind _ revoked_get_pending fun _ _ _ pending => ?_
  split
  · exact .throw
  · refine .bind (fun _ _ value => ∀ tree ∈ value, GrantsNothing tree)
      (.read fun _ _ revoked _ _ => revoked.cached) fun _ _ _ cached => ?_
    cases cached with
    | some tree => exact .pure fun _ _ _ _ ⟨_, _, clean⟩ => clean tree rfl
    | none =>
      refine .bind _ revoked_get_tree fun _ _ _ stored => ?_
      refine .bind (fun _ _ _ => GrantsNothing (stored.getD ∅)) (.modify ?_)
        fun _ _ _ _ => .pure fun _ _ _ _ ⟨_, _, clean⟩ => clean
      rintro log now revoked - ⟨-, -, clean⟩
      refine ⟨⟨revoked.toRevoked, ?_⟩, revocation_moves _ _ _, clean⟩
      rintro tree ⟨⟩
      exact clean

theorem revoked_getForOrigin (origin accountId : String) :
    revocation.Spec call pre (getForOrigin origin accountId) fun _ _ bucket => NoAllow bucket := by
  refine .bind _ (revoked_activeBucket accountId) fun _ _ _ active => ?_
  cases active with
  | none => exact .pure fun _ _ _ _ _ => .empty
  | some bucket =>
    refine .bind _ revoked_load fun _ _ _ tree => ?_
    refine .known (fun _ _ ⟨_, _, clean⟩ => clean) fun clean => ?_
    refine .bind _ revoked_inherits fun _ _ _ inheriting => ?_
    split
    · exact .pure fun _ _ _ _ _ => clean.effectiveOriginPermissions origin accountId
    · exact .pure fun _ _ _ _ _ => clean.originPermissionBucket origin bucket

theorem revoked_check (origin method : String) (kind : KindArgument) (accountId : String) :
    revocation.Spec call pre (check origin method kind accountId) fun _ _ decision =>
      decision ≠ .allow :=
  .bind _ (revoked_getForOrigin origin accountId) fun _ _ _ _ =>
    .pure fun _ _ _ _ ⟨_, _, clean⟩ => clean.resolve method kind

/-! ## Writing -/

theorem revoked_edit {change : PermissionMap → PermissionMap}
    (keeps : ∀ tree, GrantsNothing tree → GrantsNothing (change tree)) :
    revocation.Spec call pre (draft >>= fun tree => commit (change tree)) fun _ _ _ => True := by
  refine .bind _ revoked_load fun _ _ _ tree => .known (fun _ _ ⟨_, _, clean⟩ => clean) fun clean => ?_
  exact revoked_finally (fun _ _ found => by simp [Instance.invalidateCache] at found)
    (revoked_write (.set _ _) (keeps tree clean))

theorem revoked_requireLabel (value what : String) :
    revocation.Spec call pre (requireLabel value what) fun _ _ _ => True := by
  unfold requireLabel
  split
  · exact .throw
  · exact .pure fun _ _ _ _ _ => trivial

theorem revoked_writeBucket :
    revocation.Spec call pre (writeBucket accountId) fun _ _ _ => True := by
  refine .bind _ (revoked_activeBucket accountId) fun _ _ _ active => ?_
  cases active with
  | none => exact .throw
  | some bucket => exact .pure fun _ _ _ _ _ => trivial

theorem revoked_requireFilter (value : Option String) (what : String) :
    revocation.Spec call pre (requireFilter value what) fun _ _ _ => True := by
  cases value with
  | none => exact .pure fun _ _ _ _ _ => trivial
  | some label => exact revoked_requireLabel label what

theorem revoked_revoke (filter : AuthenticationGrantFilter) :
    revocation.Spec call pre (revoke self filter) fun _ _ _ => True := by
  refine .bind _ (revoked_requireFilter _ _) fun _ _ _ _ => ?_
  refine .bind _ (revoked_requireFilter _ _) fun _ _ _ _ => ?_
  refine .bind _ (revoked_requireFilter _ _) fun _ _ _ _ => revoked_withLock ?_
  refine .bind (fun _ _ _ => True)
    (.bind _ (revoked_get _) fun _ _ _ _ => .pure fun _ _ _ _ _ => trivial) fun _ _ _ grants => ?_
  refine .bind (fun _ _ _ => True) ?_ fun _ _ _ _ => revoked_write (.set _ _) trivial
  unfold revokeDefaultBackend
  split
  · exact .bind _ (revoked_get _) fun _ _ _ _ => revoked_write (.set _ _) trivial
  · exact .pure fun _ _ _ _ _ => trivial

theorem revoked_clear (origin : Option String) (accountId : String) :
    revocation.Spec call pre (clear self origin accountId) fun _ _ _ => True := by
  cases origin with
  | none =>
    refine .bind _ (revoked_revoke _) fun _ _ _ _ => revoked_withLock ?_
    exact revoked_finally (fun _ _ found => by simp [Instance.invalidateCache] at found)
      (revoked_write (.remove _) trivial)
  | some origin =>
    refine .bind _ (revoked_requireLabel _ _) fun _ _ _ _ => ?_
    refine .bind _ (revoked_writeBucket _) fun _ _ _ _ => ?_
    refine .bind _ (revoked_revoke _) fun _ _ _ _ => revoked_withLock ?_
    exact .bind _ (revoked_writeBucket _) fun _ _ _ bucket =>
      revoked_edit fun _ clean => clean.clearScopes origin bucket

theorem revoked_clearAllForOrigin (origin : String) :
    revocation.Spec call pre (clearAllForOrigin self origin) fun _ _ _ => True := by
  refine .bind _ (revoked_requireLabel _ _) fun _ _ _ _ => ?_
  exact .bind _ (revoked_revoke _) fun _ _ _ _ =>
    revoked_withLock (revoked_edit fun _ clean => clean.deleteScopes origin)

theorem revoked_clearForAccount :
    revocation.Spec call pre (clearForAccount self accountId) fun _ _ _ => True := by
  refine .bind _ (revoked_requireLabel _ _) fun _ _ _ _ => ?_
  split
  · exact .pure fun _ _ _ _ _ => trivial
  · refine .bind _ (revoked_revoke _) fun _ _ _ _ => revoked_withLock ?_
    refine .bind _ revoked_load fun _ _ _ tree => .known (fun _ _ ⟨_, _, clean⟩ => clean)
      fun clean => ?_
    split
    · exact revoked_finally (fun _ _ found => by simp [Instance.invalidateCache] at found)
        (revoked_write (.set _ _) (clean.deleteAccount accountId))
    · exact .pure fun _ _ _ _ _ => trivial

/-! ## Migrating -/

theorem revoked_finishMigration :
    revocation.Spec call pre finishMigration fun _ _ _ => True := by
  refine .bind _ revoked_get_pending fun _ _ _ pending => ?_
  cases pending with
  | none => exact .pure fun _ _ _ _ _ => trivial
  | some journal =>
    refine .known (fun _ _ ⟨_, _, clean⟩ => clean journal rfl) fun clean => ?_
    refine revoked_finally (fun _ _ found => by simp [Instance.invalidateCache] at found) ?_
    refine .bind _ (revoked_write (.set _ _) clean) fun _ _ _ _ => ?_
    refine .bind _ (revoked_write (.set GLOBAL_DEFAULTS_KEY _) trivial) fun _ _ _ _ => ?_
    refine .bind _ (revoked_write (.set INHERITANCE_KEY _) trivial) fun _ _ _ _ => ?_
    refine .bind (fun _ _ _ => True) ?_ fun _ _ _ _ => revoked_write (.remove _) trivial
    unfold markConsolidated
    split
    · exact revoked_write (.set GLOBAL_RULES_VERSION_KEY _) trivial
    · exact .pure fun _ _ _ _ _ => trivial

theorem revoked_liftExcept {α : Type} (result : Except String α) :
    revocation.Spec call pre (liftExcept result) fun _ _ _ => True := by
  cases result with
  | error message => exact .throw
  | ok value => exact .pure fun _ _ _ _ _ => trivial

theorem revoked_journal {pending : PendingMigration} (clean : GrantsNothing pending.tree) :
    revocation.Spec call pre (set MIGRATION_PENDING_KEY pending >>= fun _ => finishMigration)
      fun _ _ _ => True :=
  .bind _ (revoked_write (.set MIGRATION_PENDING_KEY pending) clean) fun _ _ _ _ =>
    revoked_finishMigration

variable (context : PermissionMigrationContext)

theorem revoked_migrateToInheritance :
    revocation.Spec call pre (migrateToInheritance self context) fun _ _ _ => True := by
  refine revoked_withLock (.bind _ revoked_finishMigration fun _ _ _ _ => ?_)
  refine .bind _ revoked_inherits fun _ _ _ inheriting => ?_
  split
  · exact .pure fun _ _ _ _ _ => trivial
  · refine .bind _ revoked_load fun _ _ _ original => .known (fun _ _ ⟨_, _, clean⟩ => clean)
      fun clean => ?_
    refine .bind _ (revoked_liftExcept _) fun _ _ _ ids => ?_
    refine .bind _ revoked_getUseGlobalDefaults fun _ _ _ shared => ?_
    exact revoked_journal (clean.inheritanceTree shared ids)

theorem revoked_consolidateRules {collation : Collation} :
    revocation.Spec call pre (consolidateRules collation self context) fun _ _ _ => True := by
  refine revoked_withLock (.bind _ revoked_finishMigration fun _ _ _ _ => ?_)
  refine .bind _ (revoked_get _) fun _ _ _ version => ?_
  split
  · exact .pure fun _ _ _ _ _ => trivial
  · refine .bind _ revoked_load fun _ _ _ original => .known (fun _ _ ⟨_, _, clean⟩ => clean)
      fun clean => ?_
    refine .bind _ (revoked_liftExcept _) fun _ _ _ ids => ?_
    exact revoked_journal (clean.globalRulesTree collation context ids)

theorem revoked_completed {task : Task Unit} {post : Result → Prop} (done : post .done)
    (spec : revocation.Spec call pre task fun _ _ _ => True) :
    revocation.Spec call pre (completed task) fun _ _ result => post result :=
  .bind _ spec fun _ _ _ _ => .pure fun _ _ _ _ _ => done

theorem method_revocation :
    revocation.Method fun _ _ _ result => result ≠ .decision .allow := by
  intro ⟨self, operation, born⟩ starts _ _
  have done : Result.done ≠ .decision .allow := by simp
  cases operation with
  | check origin method kind accountId =>
    refine .bind _ (revoked_check origin method kind accountId) fun _ _ _ decision => .pure ?_
    rintro log now - - ⟨-, -, denied⟩ ⟨⟩
    exact denied rfl
  | getForOrigin origin accountId =>
    exact .bind _ (revoked_getForOrigin origin accountId) fun _ _ _ _ => .pure fun _ _ _ _ _ => by
      simp
  | clear origin accountId => exact revoked_completed done (revoked_clear origin accountId)
  | clearAllForOrigin origin => exact revoked_completed done (revoked_clearAllForOrigin origin)
  | clearForAccount accountId => exact revoked_completed done (revoked_clearForAccount accountId)
  | setUseGlobalDefaults enabled =>
    exact revoked_completed done
      (revoked_finally (fun _ _ found => by simp [Instance.invalidateCache] at found)
        (revoked_write (.set GLOBAL_DEFAULTS_KEY enabled) trivial))
  | migrateToInheritance context =>
    exact revoked_completed done (revoked_migrateToInheritance context)
  | migrateToGlobalRules collation context =>
    exact revoked_completed done (.bind _ (revoked_migrateToInheritance context) fun _ _ _ _ =>
      revoked_consolidateRules context)
  | resetAccountRules =>
    refine revoked_completed done (.bind _ revoked_inherits fun _ _ _ inheriting => ?_)
    split
    · exact .throw
    · exact revoked_withLock (revoked_edit fun _ clean => clean.keepDefaults)
  | inheritRule origin key accountId =>
    refine revoked_completed done (.bind _ (revoked_requireLabel _ _) fun _ _ _ _ => ?_)
    refine .bind _ (revoked_requireLabel _ _) fun _ _ _ _ => ?_
    refine .bind _ (revoked_requireLabel _ _) fun _ _ _ _ => ?_
    split
    · exact .throw
    · exact revoked_withLock (revoked_edit fun _ clean => clean.dropOverride origin key accountId)
  | clearRuleBucket origin accountId =>
    refine revoked_completed done (.bind _ (revoked_requireLabel _ _) fun _ _ _ _ => ?_)
    refine .bind _ (revoked_requireLabel _ _) fun _ _ _ _ => ?_
    exact revoked_withLock (revoked_edit fun _ clean => clean.dropBucket origin accountId)
  | revokeAuthentication filter => exact revoked_completed done (revoked_revoke filter)
  | _ => exact Bool.noConfusion starts

/-! ## The clear itself -/

def Operation.clearsEverything : Operation → Bool
  | .clear none _ => true
  | _ => false

/-- The journal holds no allow. -/
def JournalClean (state : State permissionSystem) : Prop :=
  ∀ pending ∈ state.world.store MIGRATION_PENDING_KEY, GrantsNothing pending.tree

structure StaysGone (before after : State permissionSystem) : Prop where
  tree : GrantsNothing before.world.tree → GrantsNothing after.world.tree
  revoked : Revoked before → Revoked after

def emptying : Discipline permissionSystem where
  starts := fun _ operation => operation.clearsEverything
  sound := JournalClean
  later := StaysGone
  refl := fun _ => ⟨id, id⟩
  trans := fun _ _ _ first second =>
    ⟨fun held => second.tree (first.tree held), fun held => second.revoked (first.revoked held)⟩
  may := fun _ _ _ _ => True
  delivers := fun _ _ _ _ => True

theorem StaysGone.moves {before after : State permissionSystem} {mover : Nat}
    (gone : StaysGone before after) : emptying.Moves mover before after :=
  ⟨gone, fun _ _ => trivial⟩

theorem StaysGone.of_world {before after : State permissionSystem}
    (tree : GrantsNothing before.world.tree → GrantsNothing after.world.tree)
    (journal : after.world.store MIGRATION_PENDING_KEY = before.world.store MIGRATION_PENDING_KEY)
    (cached : ∀ tree ∈ after.memory.cachedPerms, tree ∈ before.memory.cachedPerms) :
    StaysGone before after := by
  refine ⟨tree, fun revoked => ⟨⟨tree revoked.tree, ?_⟩, fun tree found =>
    revoked.cached tree (cached tree found)⟩⟩
  rw [journal]
  exact revoked.journal

theorem StaysGone.acknowledged (state : State permissionSystem) (entry : Entry permissionSystem) :
    StaysGone state (state.acknowledged entry) := by
  simp only [State.acknowledged]
  split
  · exact .of_world id rfl fun _ => id
  · exact ⟨id, id⟩

/-- A request of `clear`: it writes the grants or removes the tree. -/
def StoreRequest.OnlyClears : StoreRequest → Prop
  | .set key _ => key = AUTHENTICATION_GRANTS_KEY ∨ key = DEFAULT_BACKEND_AUTH_KEY
  | .remove key => key = PERMISSIONS_STORAGE_KEY
  | _ => True

theorem StaysGone.landed (memory : Instance) {before after : Storage} {request : StoreRequest}
    (clears : request.OnlyClears) (landed : Landed before request after) :
    after.store MIGRATION_PENDING_KEY = before.store MIGRATION_PENDING_KEY ∧
    StaysGone ⟨memory, before⟩ ⟨memory, after⟩ := by
  have kept : ∀ key (value : Option (StoreKey.Value key)), key ≠ MIGRATION_PENDING_KEY →
      (before.put key value).store MIGRATION_PENDING_KEY = before.store MIGRATION_PENDING_KEY :=
    fun key value different => Function.update_of_ne (Ne.symm different) _ _
  cases landed with
  | nothing => exact ⟨rfl, id, id⟩
  | set key value =>
    have different : key ≠ PERMISSIONS_STORAGE_KEY ∧ key ≠ MIGRATION_PENDING_KEY := by
      rcases clears with rfl | rfl <;> decide
    refine ⟨kept _ _ different.2, .of_world ?_ (kept _ _ different.2) fun _ => id⟩
    simp [Storage.tree, Storage.put, Function.update_of_ne (Ne.symm different.1)]
  | remove key =>
    cases clears
    refine ⟨kept _ _ (by decide), .of_world ?_ (kept _ _ (by decide)) fun _ => id⟩
    intro _
    simpa [Storage.tree, Storage.put] using GrantsNothing.empty

theorem emptying_request (clears : request.OnlyClears) {post : State permissionSystem → Prop}
    (answered : ∀ reaction value (earlier taken final : State permissionSystem),
      serveRequest request reaction earlier.memory earlier.world =
        some (.ok value, taken.memory, taken.world) →
      StaysGone taken final → post final) :
    emptying.Spec call pre (NostrWot.Permissions.request request) fun _ now _ => post now := by
  refine Discipline.Spec.request (fun _ _ _ _ _ => trivial) ?_ ?_
  · intro log now earlier reaction answer memory world _ _ journal served
    obtain ⟨rfl, landed⟩ := serveRequest_landed served
    obtain ⟨same, gone⟩ := StaysGone.landed earlier.memory clears landed
    refine ⟨?_, gone.moves⟩
    intro pending found
    rw [same] at found
    exact journal pending found
  · intro log now earlier reaction answer taken final _ _ _ served _ gone journal _ _
    have acknowledged := StaysGone.acknowledged final ⟨request, answer, taken⟩
    refine ⟨?_, acknowledged.moves, ?_⟩
    · simp only [State.acknowledged]
      split <;> exact journal
    · rintro value rfl
      exact answered reaction value earlier taken _ served (emptying.trans _ _ _ gone.later acknowledged)

theorem emptying_plain (clears : request.OnlyClears) :
    emptying.Spec call pre (NostrWot.Permissions.request request) fun _ _ _ => True :=
  emptying_request request clears fun _ _ _ _ _ _ _ => trivial

theorem emptying_memory (state : State permissionSystem) (memory : Instance)
    (cached : ∀ tree ∈ memory.cachedPerms, tree ∈ state.memory.cachedPerms)
    (journal : JournalClean state) :
    JournalClean { state with memory } ∧ StaysGone state { state with memory } :=
  ⟨journal, .of_world id rfl cached⟩

theorem emptying_cleanup {mover : Nat} (state : State permissionSystem) (memory : Instance)
    (cached : ∀ tree ∈ memory.cachedPerms, tree ∈ state.memory.cachedPerms)
    (journal : JournalClean state) :
    JournalClean { state with memory } ∧ emptying.Moves mover state { state with memory } :=
  ⟨journal, (emptying_memory state memory cached journal).2.moves⟩

theorem emptying_withLock {lock : LockName} {fn : Task Unit} {post : State permissionSystem → Prop}
    (frees : ∀ state : State permissionSystem, post state →
      post { state with memory := state.memory.release lock self })
    (locked : emptying.Spec call (fun _ _ => True) fn fun _ now _ => post now) :
    emptying.Spec call pre (withLock lock self fn) fun _ now _ => post now := by
  refine .bind (fun _ _ _ => True) (.modify fun _ now journal _ _ => ?_) fun _ _ _ _ => ?_
  · obtain ⟨sound, later⟩ := emptying_memory now (now.memory.enqueue lock self)
      (fun _ => id) journal
    exact ⟨sound, later.moves, trivial⟩
  refine .bind _ (emptying_plain (.turn lock self) trivial) fun _ _ _ _ => ?_
  refine .finallyDo _ (locked.weaken (fun _ _ _ _ _ => trivial) fun _ _ _ _ done => done)
    (fun now journal => emptying_cleanup now _ (fun _ => id) journal) fun _ now _ _ done => frees now done

theorem emptying_requireFilter (value : Option String) (what : String) :
    emptying.Spec call pre (requireFilter value what) fun _ _ _ => True := by
  unfold requireFilter requireLabel
  split
  · split
    · exact .throw
    · exact .pure fun _ _ _ _ _ => trivial
  · exact .pure fun _ _ _ _ _ => trivial

theorem emptying_revoke (filter : AuthenticationGrantFilter) :
    emptying.Spec call pre (revoke self filter) fun _ _ _ => True := by
  refine .bind _ (emptying_requireFilter _ _) fun _ _ _ _ => ?_
  refine .bind _ (emptying_requireFilter _ _) fun _ _ _ _ => ?_
  refine .bind _ (emptying_requireFilter _ _) fun _ _ _ _ =>
    emptying_withLock (fun _ _ => trivial) ?_
  refine .bind (fun _ _ _ => True) (.bind _ (emptying_plain (.get _) trivial) fun _ _ _ _ =>
    .pure fun _ _ _ _ _ => trivial) fun _ _ _ grants => ?_
  refine .bind (fun _ _ _ => True) ?_ fun _ _ _ _ => emptying_plain (.set _ _) (.inl rfl)
  unfold revokeDefaultBackend
  split
  · exact .bind _ (emptying_plain (.get _) trivial) fun _ _ _ _ =>
      emptying_plain (.set _ _) (.inr rfl)
  · exact .pure fun _ _ _ _ _ => trivial

/-- Once everything is cleared, nothing that was allowed is left but in a journal. -/
theorem emptying_clearEverything :
    emptying.Spec call pre (clearEverything self accountId) fun _ now _ => Revoked now := by
  refine .bind _ (emptying_revoke _) fun _ _ _ _ => emptying_withLock ?_ ?_
  · intro state revoked
    exact ⟨⟨revoked.tree, revoked.journal⟩, revoked.cached⟩
  · refine .finallyDo (fun _ now _ => GrantsNothing now.world.tree)
      (emptying_request (.remove PERMISSIONS_STORAGE_KEY) rfl ?_)
      (fun now journal => emptying_cleanup now _ (by simp [Instance.invalidateCache]) journal)
      fun _ now _ journal gone => ⟨⟨gone, journal⟩, by simp [Instance.invalidateCache]⟩
    intro reaction value earlier taken final served gone
    cases reaction with
    | perform =>
      simp only [serveRequest, Option.some.injEq, Prod.mk.injEq] at served
      refine gone.tree ?_
      rw [← served.2.2]
      simpa [Storage.tree, Storage.put] using GrantsNothing.empty
    | fail => simp [serveRequest] at served

theorem method_emptying : emptying.Method fun _ _ now _ => Revoked now := by
  intro ⟨self, operation, born⟩ starts _ _
  match operation with
  | .clear none accountId =>
    exact .bind _ (emptying_clearEverything accountId) fun _ _ _ _ =>
      .pure fun _ _ _ _ ⟨_, _, revoked⟩ => revoked

/-! ## Runs -/

def clearing (_ : Config permissionSystem) : Move permissionSystem → Prop
  | .start operation => operation.clearsEverything
  | _ => True

def grantless (_ : Config permissionSystem) : Move permissionSystem → Prop
  | .start operation => operation.grantsNothing
  | _ => True

theorem clearing_admits (config : Config permissionSystem) (move : Move permissionSystem)
    (clears : clearing config move) : config.Admits emptying.contract move := by
  cases move with
  | start operation => exact clears
  | serve self reaction => trivial
  | deliver self => intro _ _ _ _ _ _; trivial
  | event event =>
    rintro memory world ⟨⟩ journal
    obtain ⟨sound, gone⟩ := emptying_memory config.state (event.occur config.state.memory)
      (by cases event <;> rintro _ ⟨⟩) journal
    exact ⟨sound, gone, fun _ _ => trivial⟩

theorem grantless_admits (config : Config permissionSystem) (move : Move permissionSystem)
    (harmless : grantless config move) : config.Admits revocation.contract move := by
  cases move with
  | start operation => exact harmless
  | serve self reaction => trivial
  | deliver self => intro _ _ _ _ _ _; trivial
  | event event =>
    rintro memory world ⟨⟩ revoked
    cases event <;> exact ⟨⟨revoked.toRevoked, by rintro _ ⟨⟩⟩, trivial, fun _ _ => trivial⟩

section Example

instance (config : Config permissionSystem) (move : Move permissionSystem) :
    Decidable (clearing config move) :=
  match move with
  | .start operation => inferInstanceAs (Decidable (operation.clearsEverything = true))
  | .serve _ _ | .deliver _ | .event _ => .isTrue trivial

instance (config : Config permissionSystem) (move : Move permissionSystem) :
    Decidable (grantless config move) :=
  match move with
  | .start operation => inferInstanceAs (Decidable (operation.grantsNothing = true))
  | .serve _ _ | .deliver _ | .event _ => .isTrue trivial

/-- The store of `allowedSite` after a migration that was cut off once its
journal was written. -/
def interruptedMigration : KeyValueStore
  | .MIGRATION_PENDING_KEY =>
    some ⟨inheritanceTree true ((allowedSite .PERMISSIONS_STORAGE_KEY).getD ∅) ["account"], false⟩
  | key => allowedSite key

def settledDone (process : Process permissionSystem) : Bool :=
  match process.status with
  | .settled (.ok .done) => true
  | _ => false

/-- Everything is cleared, the inheritance migration is run in `steps` requests,
and the rules are read. -/
def clearThenMigrate (store : KeyValueStore) (steps : Nat) (decision : PermissionDecision) : Bool :=
  ((opened store).execWhile clearing (.start (.clear none "account") :: answers 0 7)).any
    fun middle =>
      (middle.processes.length = 1 && middle.processes.all settledDone) &&
      (middle.execWhile grantless
        (.start (.migrateToInheritance { accountIds := ["account"] }) :: answers 1 steps ++
          .start readKey :: answers 2 4)).any fun final => answeredWith final 2 decision

theorem clearThenMigrate_runs {store : KeyValueStore} {steps : Nat} {decision : PermissionDecision}
    (runs : clearThenMigrate store steps decision = true) :
    ∃ middle final clear, Config.Reaches clearing (opened store) middle ∧
      (middle.processes = [clear] ∧ clear.status = .settled (.ok .done)) ∧
      Config.Reaches grantless middle final ∧
      final.outcome 2 = some (.ok (.decision decision)) := by
  simp only [clearThenMigrate, Option.any_eq_true, Bool.and_eq_true, decide_eq_true_eq] at runs
  obtain ⟨middle, first, ⟨single, settled⟩, final, second, answered⟩ := runs
  obtain ⟨clear, only⟩ := List.length_eq_one_iff.mp single
  refine ⟨middle, final, clear, .of_execWhile first, ⟨only, ?_⟩, .of_execWhile second,
    outcome_of_answeredWith answered⟩
  rw [only, List.all_cons, List.all_nil, Bool.and_true, settledDone] at settled
  split at settled
  · assumption
  · exact absurd settled Bool.false_ne_true

end Example

end Revocation

end NostrWot.Permissions
