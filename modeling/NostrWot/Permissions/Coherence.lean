import NostrWot.Async.Discipline
import NostrWot.Permissions.Operations

namespace NostrWot.Permissions

open NostrWot.Data NostrWot.Async StoreKey

/-! # Coherence of the cached tree

Reads fill the cache outside the lock with whatever their own store read
returned; writes only drop it.  As long as no such reply is older than the last
resolved write, every later call works from a tree that includes that write.
-/

def Operation.readsOrEdits : Operation → Bool
  | .check .. | .getForOrigin .. | .saveDirect .. | .save .. | .clear .. | .clearAllForOrigin ..
  | .clearForAccount .. | .copyPermissions .. => true
  | _ => false

def Storage.mode (storage : Storage) : Mode where
  inherits := storage.store INHERITANCE_KEY = some true
  useGlobalDefaults := storage.store GLOBAL_DEFAULTS_KEY ≠ some false

def Storage.consolidated (storage : Storage) : Bool :=
  storage.store GLOBAL_RULES_VERSION_KEY = some (1 : Nat)

/-- The tree an operation writes when it works from `tree`. -/
def Operation.edit (mode : Mode) (consolidated : Bool) (tree : PermissionMap) :
    Operation → Option PermissionMap
  | .saveDirect origin key decision accountId =>
    (mode.activeBucket accountId).map fun bucket =>
      setRule tree (storageLabel origin) bucket key decision
  | .save origin method kind decision accountId =>
    match permissionKey method kind with
    | .ok key => (mode.activeBucket accountId).map fun bucket =>
      setRule tree (storageLabel origin) bucket key decision
    | .error _ => none
  | .clear (some origin) accountId =>
    (mode.activeBucket accountId).map fun bucket => clearScopes tree origin bucket
  | .clearAllForOrigin origin => some (deleteScopes tree origin)
  | .clearForAccount accountId => some (deleteAccount tree accountId)
  | .copyPermissions source target =>
    some (copyBucket consolidated tree (source.getD DEFAULT_BUCKET) target)
  | _ => none

/-- The store has held `tree`, and nothing before the tree numbered `landing`
counts. -/
def Storage.HeldSince (storage : Storage) (landing : Nat) (tree : PermissionMap) : Prop :=
  ∃ index, landing ≤ index ∧ storage.landed[index]? = some tree

section Coherence

def StoreKey.fixed (key : StoreKey) : Prop :=
  key = GLOBAL_DEFAULTS_KEY ∨ key = INHERITANCE_KEY ∨ key = GLOBAL_RULES_VERSION_KEY ∨
    key = MIGRATION_PENDING_KEY

structure Consistent (state : State permissionSystem) : Prop where
  latest : state.world.landed.getLast? = some state.world.tree
  acknowledged : state.world.acknowledged < state.world.landed.length
  flag : ∀ cached ∈ state.memory.cachedUseGlobalDefaults,
    cached = state.world.mode.useGlobalDefaults

structure Coherent (state : State permissionSystem) : Prop extends
    Consistent state where
  cached : ∀ tree ∈ state.memory.cachedPerms,
    state.world.HeldSince state.world.acknowledged tree

structure Later (before after : State permissionSystem) : Prop where
  landed : before.world.landed <+: after.world.landed
  acknowledged : before.world.acknowledged ≤ after.world.acknowledged
  fixed : ∀ key : StoreKey, key.fixed → after.world.store key = before.world.store key

def StoreRequest.readsTree : StoreRequest → Bool
  | .get key => key = PERMISSIONS_STORAGE_KEY
  | _ => false

def Stale (entry : Entry permissionSystem)
    (state : State permissionSystem) : Prop :=
  entry.request.readsTree ∧ entry.answer.isOk ∧
    entry.taken.world.landed.length ≤ state.world.acknowledged

instance (entry : Entry permissionSystem) (state : State permissionSystem) :
    Decidable (Stale entry state) :=
  inferInstanceAs (Decidable (_ ∧ _ ∧ _))

/-- What a call works from: a tree the store held after the writes that were
resolved when the call was made. -/
def coherence : Discipline permissionSystem where
  starts := fun _ operation => operation.readsOrEdits
  sound := Coherent
  later := Later
  refl := fun _ => ⟨List.prefix_rfl, Nat.le_refl _, fun _ _ => rfl⟩
  trans := fun _ _ _ first second =>
    ⟨first.landed.trans second.landed, first.acknowledged.trans second.acknowledged,
      fun key fixed => (second.fixed key fixed).trans (first.fixed key fixed)⟩
  may := fun call _ request now => ∀ tree, request = .set PERMISSIONS_STORAGE_KEY tree →
    ∃ base, now.world.HeldSince call.born.world.acknowledged base ∧
      call.operation.edit call.born.world.mode call.born.world.consolidated base = some tree
  delivers := fun _ _ entry now => ¬ Stale entry now

theorem Later.moves {before after : State permissionSystem} {mover : Nat}
    (later : Later before after) : coherence.Moves mover before after :=
  ⟨later, fun _ _ => trivial⟩

theorem Storage.HeldSince.later {before after : State permissionSystem} {landing : Nat}
    {tree : PermissionMap} (held : before.world.HeldSince landing tree)
    (later : Later before after) : after.world.HeldSince landing tree := by
  obtain ⟨index, recent, found⟩ := held
  obtain ⟨rest, extended⟩ := later.landed
  refine ⟨index, recent, ?_⟩
  rw [← extended, List.getElem?_append_left (List.getElem?_eq_some_iff.mp found).1, found]

theorem Storage.HeldSince.mono {storage : Storage} {landing earlier : Nat} {tree : PermissionMap}
    (held : storage.HeldSince landing tree) (before : earlier ≤ landing) :
    storage.HeldSince earlier tree := by
  obtain ⟨index, recent, found⟩ := held
  exact ⟨index, before.trans recent, found⟩

theorem Later.mode {before after : State permissionSystem}
    (later : Later before after) : after.world.mode = before.world.mode := by
  simp only [Storage.mode, later.fixed _ (.inl rfl), later.fixed _ (.inr (.inl rfl))]

theorem Later.consolidated {before after : State permissionSystem}
    (later : Later before after) : after.world.consolidated = before.world.consolidated := by
  simp only [Storage.consolidated, later.fixed _ (.inr (.inr (.inl rfl)))]

/-! ## Requests -/

variable {call : Call permissionSystem}
  {pre : List (Entry permissionSystem) → State permissionSystem → Prop}

theorem Storage.put_store_of_ne {storage : Storage} {key other : StoreKey}
    {value : Option key.Value} (different : other ≠ key) :
    (storage.put key value).store other = storage.store other :=
  Function.update_of_ne different _ _

theorem Coherent.put {state : State permissionSystem} (coherent : Coherent state)
    {key : StoreKey} (value : Option key.Value) (free : ¬ key.fixed) :
    Coherent ⟨state.memory, state.world.put key value⟩ ∧
    Later state ⟨state.memory, state.world.put key value⟩ := by
  have fixed : ∀ other : StoreKey, other.fixed →
      (state.world.put key value).store other = state.world.store other := by
    intro other fixed
    exact Storage.put_store_of_ne fun same => free (same ▸ fixed)
  have grown : state.world.landed <+: (state.world.put key value).landed := by
    simp only [Storage.put]
    split
    · exact List.prefix_append _ _
    · exact List.prefix_rfl
  have later : Later state ⟨state.memory, state.world.put key value⟩ :=
    ⟨grown, Nat.le_refl _, fixed⟩
  refine ⟨⟨⟨?_, ?_, ?_⟩, ?_⟩, later⟩
  · by_cases same : key = PERMISSIONS_STORAGE_KEY
    · subst same
      simp [Storage.put, Storage.tree]
    · simpa [Storage.put, Storage.tree, same, Function.update_of_ne (Ne.symm same)]
        using coherent.latest
  · exact Nat.lt_of_lt_of_le coherent.acknowledged grown.length_le
  · intro cached found
    rw [coherent.flag cached found, later.mode]
  · intro tree found
    exact (coherent.cached tree found).later later

def StoreRequest.FreeOfModes : StoreRequest → Prop
  | .set key _ | .remove key => ¬ key.fixed
  | _ => True

/-- What any request but a write of the fixed keys does to the state. -/
theorem Coherent.serve {request : StoreRequest} {reaction : Reaction}
    {before : State permissionSystem} {answer : Except String request.Reply}
    {memory : Instance} {world : Storage} (coherent : Coherent before)
    (free : request.FreeOfModes)
    (served : serveRequest request reaction before.memory before.world =
      some (answer, memory, world)) :
    Coherent ⟨memory, world⟩ ∧
    Later before ⟨memory, world⟩ := by
  obtain ⟨rfl, landed⟩ := serveRequest_landed served
  cases landed with
  | nothing => exact ⟨coherent, coherence.refl before⟩
  | set key value => exact coherent.put _ free
  | remove key => exact coherent.put _ free

theorem acknowledged_of_not_writesTree {state : State permissionSystem}
    {entry : Entry permissionSystem} (other : Storage.writesTree entry.request = false) :
    state.acknowledged entry = state := by
  simp [State.acknowledged, other]

/-- A request that neither writes the tree nor a fixed key, and how it is
answered. -/
theorem spec_request (request : StoreRequest) (free : request.FreeOfModes)
    (other : Storage.writesTree request = false)
    {post : List (Entry permissionSystem) → State permissionSystem → request.Reply → Prop}
    (answered : ∀ log reaction value (earlier taken final : State permissionSystem),
      serveRequest request reaction earlier.memory earlier.world =
        some (.ok value, taken.memory, taken.world) →
      Coherent taken → Later earlier taken → Later taken final → Coherent final →
      Later call.born final → ¬ Stale ⟨request, .ok value, taken⟩ final → post log final value) :
    coherence.Spec call pre (NostrWot.Permissions.request request) post := by
  refine Discipline.Spec.request ?_ ?_ ?_
  · rintro log now - - - tree rfl
    simp [Storage.writesTree] at other
  · intro log now earlier reaction answer memory world _ _ coherent served
    obtain ⟨sound, later⟩ := coherent.serve free served
    exact ⟨sound, later.moves⟩
  · intro log now earlier reaction answer taken final _ _ coherent served sound later sound' born fresh
    rw [acknowledged_of_not_writesTree other]
    refine ⟨sound', .refl _ final, ?_⟩
    rintro value rfl
    exact answered _ reaction value earlier taken final served sound (coherent.serve free served).2
      later.later sound' born fresh

theorem spec_get_fixed {key : StoreKey} (fixed : key.fixed) :
    coherence.Spec call pre (get key) fun _ _ value => value = call.born.world.store key := by
  refine spec_request (.get key) trivial rfl ?_
  intro log reaction value earlier taken final served _ _ later _ born _
  obtain ⟨-, same, rfl⟩ := serveRequest_get served
  rw [← born.fixed key fixed, later.fixed key fixed, same]

theorem spec_get_other {key : StoreKey} :
    coherence.Spec call pre (get key) fun _ _ _ => True :=
  spec_request (.get key) trivial rfl fun _ _ _ _ _ _ _ _ _ _ _ _ _ => trivial

theorem spec_get_tree :
    coherence.Spec call pre (get PERMISSIONS_STORAGE_KEY) fun _ now value =>
      now.world.HeldSince now.world.acknowledged (value.getD ∅) := by
  refine spec_request (.get PERMISSIONS_STORAGE_KEY) trivial rfl ?_
  intro log reaction value earlier taken final served coherent _ later _ _ fresh
  obtain ⟨-, same, rfl⟩ := serveRequest_get served
  have recent : final.world.acknowledged < taken.world.landed.length := by
    by_contra stale
    exact fresh ⟨rfl, rfl, Nat.le_of_not_lt stale⟩
  have held : taken.world.HeldSince final.world.acknowledged
      ((earlier.world.store PERMISSIONS_STORAGE_KEY).getD ∅) := by
    refine ⟨taken.world.landed.length - 1, by omega, ?_⟩
    rw [← List.getLast?_eq_getElem?, coherent.latest, same, Storage.tree]
  exact held.later later

theorem spec_turn {lock : LockName} {self : Nat} :
    coherence.Spec call pre (request (.turn lock self)) fun _ _ _ => True :=
  spec_request (.turn lock self) trivial rfl fun _ _ _ _ _ _ _ _ _ _ _ _ _ => trivial

theorem Coherent.of_caches {state : State permissionSystem} (coherent : Coherent state)
    {memory : Instance} (perms : memory.cachedPerms = state.memory.cachedPerms)
    (flag : memory.cachedUseGlobalDefaults = state.memory.cachedUseGlobalDefaults) :
    Coherent { state with memory } :=
  ⟨⟨coherent.latest, coherent.acknowledged, fun cached found =>
    coherent.flag cached (by rw [← flag]; exact found)⟩, fun tree found =>
    coherent.cached tree (by rw [← perms]; exact found)⟩

theorem later_memory (state : State permissionSystem) (memory : Instance) :
    Later state { state with memory } :=
  ⟨List.prefix_rfl, Nat.le_refl _, fun _ _ => rfl⟩

theorem spec_withLock {lock : LockName} {self : Nat} {fn : Task Unit}
    (locked : coherence.Spec call (fun _ _ => True) fn fun _ _ _ => True) :
    coherence.Spec call pre (withLock lock self fn) fun _ _ _ => True := by
  refine .bind (fun _ _ _ => True) (.modify ?_) fun _ _ _ _ => ?_
  · intro log now coherent _ _
    exact ⟨coherent.of_caches rfl rfl, (later_memory _ _).moves, trivial⟩
  refine .bind _ spec_turn fun _ _ _ _ => ?_
  refine .finallyDo _ (locked.weaken (fun _ _ _ _ _ => trivial) fun _ _ _ _ done => done) ?_
    fun _ _ _ _ done => done
  intro state coherent
  exact ⟨coherent.of_caches rfl rfl, (later_memory _ _).moves⟩

/-! ## Reading -/

theorem spec_inherits :
    coherence.Spec call pre inherits fun _ _ value => value = call.born.world.mode.inherits := by
  refine .bind _ (spec_get_fixed (.inr (.inl rfl))) fun _ _ _ value => .pure ?_
  rintro log now - - ⟨-, -, rfl⟩
  rfl

theorem spec_getUseGlobalDefaults :
    coherence.Spec call pre getUseGlobalDefaults fun _ _ value =>
      value = call.born.world.mode.useGlobalDefaults := by
  refine .bind (fun _ _ value => ∀ cached ∈ value,
    cached = call.born.world.mode.useGlobalDefaults) (.read ?_) fun _ _ _ value => ?_
  · intro log now coherent born _ cached found
    rw [coherent.flag cached found, born.mode]
  · cases value with
    | some cached => exact .pure fun _ _ _ _ ⟨_, _, flag⟩ => flag cached rfl
    | none =>
      refine .bind _ (spec_get_fixed (.inl rfl)) fun _ _ _ stored => ?_
      refine .bind (fun _ _ _ =>
        decide (stored ≠ some false) = call.born.world.mode.useGlobalDefaults)
        (.modify ?_) fun _ _ _ _ => .pure fun _ _ _ _ ⟨_, _, flag⟩ => flag
      rintro log now coherent born ⟨-, -, rfl⟩
      refine ⟨⟨⟨coherent.latest, coherent.acknowledged, ?_⟩, coherent.cached⟩,
        (later_memory _ _).moves, ?_⟩
      · rintro cached ⟨⟩
        exact born.mode.symm ▸ rfl
      · rfl

theorem spec_activeBucket (accountId : String) :
    coherence.Spec call pre (activeBucket accountId) fun _ _ value =>
      value = call.born.world.mode.activeBucket accountId := by
  refine .bind _ spec_inherits fun _ _ _ inheriting => ?_
  cases inheriting with
  | true =>
    refine .pure fun log now _ _ ⟨_, _, flag⟩ => ?_
    simp [Mode.activeBucket, ← flag]
  | false =>
    refine .bind _ spec_getUseGlobalDefaults fun _ _ ⟨_, _, inheriting⟩ useGlobalDefaults => ?_
    cases useGlobalDefaults with
    | true =>
      refine .pure fun log now _ _ ⟨_, _, flag⟩ => ?_
      simp [Mode.activeBucket, ← flag, ← inheriting]
    | false =>
      refine .pure fun log now _ _ ⟨_, _, flag⟩ => ?_
      simp [Mode.activeBucket, ← flag, ← inheriting]

theorem spec_load :
    coherence.Spec call pre load fun _ now tree =>
      now.world.HeldSince call.born.world.acknowledged tree := by
  refine .bind _ (spec_get_fixed (.inr (.inr (.inr rfl)))) fun _ _ _ pending => ?_
  cases pending with
  | some journal => exact .throw
  | none =>
    refine .bind (fun _ now value => ∀ tree ∈ value,
      now.world.HeldSince call.born.world.acknowledged tree) (.read ?_) fun _ _ _ value => ?_
    · intro log now coherent born _ tree found
      exact (coherent.cached tree found).mono born.acknowledged
    · cases value with
      | some cached => exact .pure fun _ _ _ _ ⟨_, _, held⟩ => held cached rfl
      | none =>
        refine .bind _ spec_get_tree fun _ _ _ stored => ?_
        refine .bind (fun _ now _ =>
          now.world.HeldSince call.born.world.acknowledged (stored.getD ∅)) (.modify ?_)
          fun _ _ _ _ => .pure fun _ _ _ _ ⟨_, _, held⟩ => held
        rintro log now coherent born ⟨-, -, held⟩
        refine ⟨⟨⟨coherent.latest, coherent.acknowledged, coherent.flag⟩, ?_⟩,
          (later_memory _ _).moves, held.mono born.acknowledged⟩
        rintro tree ⟨⟩
        exact held

theorem spec_getForOrigin (origin accountId : String) :
    coherence.Spec call pre (getForOrigin origin accountId) fun _ now bucket =>
      ∃ tree, now.world.HeldSince call.born.world.acknowledged tree ∧
        bucket = call.born.world.mode.rules tree origin accountId := by
  refine .bind _ (spec_activeBucket accountId) fun _ _ _ active => ?_
  cases active with
  | none =>
    refine .pure fun log now coherent born ⟨_, _, chosen⟩ => ?_
    refine ⟨now.world.tree, ⟨now.world.landed.length - 1, ?_, ?_⟩, ?_⟩
    · have := born.acknowledged
      have := coherent.acknowledged
      omega
    · rw [← List.getLast?_eq_getElem?, coherent.latest]
    · rw [Mode.rules, ← chosen]
  | some bucket =>
    refine .bind _ spec_load fun _ _ ⟨_, _, chosen⟩ tree => ?_
    refine .bind _ spec_inherits fun _ _ ⟨_, _, held⟩ inheriting => ?_
    cases inheriting with
    | true =>
      refine .pure fun log now _ _ ⟨later, _, flag⟩ => ⟨tree, held.later later, ?_⟩
      simp [Mode.rules, ← chosen, ← flag]
    | false =>
      refine .pure fun log now _ _ ⟨later, _, flag⟩ => ⟨tree, held.later later, ?_⟩
      simp [Mode.rules, ← chosen, ← flag]

theorem spec_check (origin method : String) (kind : KindArgument) (accountId : String) :
    coherence.Spec call pre (check origin method kind accountId) fun _ now decision =>
      ∃ tree, now.world.HeldSince call.born.world.acknowledged tree ∧
        decision = resolve (call.born.world.mode.rules tree origin accountId) method kind := by
  refine .bind _ (spec_getForOrigin origin accountId) fun _ _ _ bucket => .pure ?_
  rintro log now - - ⟨-, -, tree, held, rfl⟩
  exact ⟨tree, held, rfl⟩

/-! ## Writing -/

theorem Coherent.acknowledged_invalidate {taken final : State permissionSystem}
    {request : StoreRequest} (answer : Except String request.Reply) (coherent : Coherent final)
    (sound : Coherent taken) (later : Later taken final) :
    let received := final.acknowledged ⟨request, answer, taken⟩
    Coherent { received with memory := received.memory.invalidateCache } ∧
    Later final { received with memory := received.memory.invalidateCache } := by
  have known : taken.world.landed.length - 1 < final.world.landed.length := by
    have := sound.acknowledged
    have := later.landed.length_le
    omega
  have acknowledged := coherent.acknowledged
  simp only [State.acknowledged]
  split
  · refine ⟨⟨⟨coherent.latest, ?_, by simp [Instance.invalidateCache]⟩,
      by simp [Instance.invalidateCache]⟩, List.prefix_rfl, ?_, fun _ _ => rfl⟩
    · exact Nat.max_lt.mpr ⟨acknowledged, known⟩
    · exact Nat.le_max_left _ _
  · exact ⟨⟨⟨coherent.latest, acknowledged, by simp [Instance.invalidateCache]⟩,
      by simp [Instance.invalidateCache]⟩, List.prefix_rfl, Nat.le_refl _, fun _ _ => rfl⟩

theorem spec_write (request : StoreRequest) (free : request.FreeOfModes)
    (permitted : ∀ log now, pre log now → coherence.may call log request now) :
    coherence.Spec call pre
      ((NostrWot.Permissions.request request).finallyDo Instance.invalidateCache)
      fun _ _ _ => True := by
  intro log since now coherent later _ held
  refine ⟨⟨coherent, permitted log now held⟩, Discipline.moved coherent later, ?_⟩
  intro earlier relied reaction answer memory world served
  obtain ⟨soundEarlier, toEarlier⟩ := Discipline.rely relied coherent
  obtain ⟨soundTaken, toTaken⟩ := Coherent.serve soundEarlier free served
  refine ⟨Discipline.moved soundTaken toTaken.moves, fun final relied' _ => ?_⟩
  obtain ⟨soundFinal, toFinal⟩ := Discipline.rely relied' soundTaken
  obtain ⟨sound, dropped⟩ :=
    Coherent.acknowledged_invalidate answer soundFinal soundTaken toFinal.later
  exact ⟨sound, dropped.moves, coherence.trans _ _ _ (coherence.trans _ _ _ toEarlier.later toTaken)
    (coherence.trans _ _ _ toFinal.later dropped), List.prefix_append _ _, fun _ _ => trivial⟩

theorem spec_commit {perms : PermissionMap}
    (based : ∀ log now, pre log now → ∃ base,
      now.world.HeldSince call.born.world.acknowledged base ∧
      call.operation.edit call.born.world.mode call.born.world.consolidated base = some perms) :
    coherence.Spec call pre (commit perms) fun _ _ _ => True := by
  refine spec_write (.set PERMISSIONS_STORAGE_KEY perms)
    (by simp [StoreRequest.FreeOfModes, StoreKey.fixed]) ?_
  rintro log now held tree ⟨⟩
  exact based log now held

theorem spec_edit {change : PermissionMap → PermissionMap}
    (edits : ∀ tree, call.operation.edit call.born.world.mode call.born.world.consolidated tree =
      some (change tree)) :
    coherence.Spec call pre (draft >>= fun perms => commit (change perms)) fun _ _ _ => True :=
  .bind _ spec_load fun _ _ _ tree => spec_commit fun _ _ ⟨_, _, based⟩ =>
    ⟨tree, based, edits tree⟩

/-- The same where nothing is written back unless `changed` says so. -/
theorem spec_editIf {changed : PermissionMap → Bool} {change : PermissionMap → PermissionMap}
    (edits : ∀ tree, call.operation.edit call.born.world.mode call.born.world.consolidated tree =
      some (change tree)) :
    coherence.Spec call pre
      (draft >>= fun perms => if changed perms then commit (change perms) else pure ())
      fun _ _ _ => True := by
  refine .bind _ spec_load fun _ _ _ tree => ?_
  split
  · exact spec_commit fun _ _ ⟨_, _, based⟩ => ⟨tree, based, edits tree⟩
  · exact .pure fun _ _ _ _ _ => trivial

theorem spec_requireLabel (value what : String) :
    coherence.Spec call pre (requireLabel value what) fun _ _ _ => True := by
  unfold requireLabel
  split
  · exact .throw
  · exact .pure fun _ _ _ _ _ => trivial

theorem spec_writeBucket (accountId : String) :
    coherence.Spec call pre (writeBucket accountId) fun _ _ bucket =>
      call.born.world.mode.activeBucket accountId = some bucket := by
  refine .bind _ (spec_activeBucket accountId) fun _ _ _ active => ?_
  cases active with
  | none => exact .throw
  | some bucket => exact .pure fun _ _ _ _ ⟨_, _, chosen⟩ => chosen.symm

theorem spec_assertRuleScope (origin bucket : String) :
    coherence.Spec call pre (assertRuleScope origin bucket) fun _ _ _ => True := by
  refine .bind _ spec_get_other fun _ _ _ version => ?_
  split
  · exact .pure fun _ _ _ _ _ => trivial
  · split
    · exact .throw
    · exact .pure fun _ _ _ _ _ => trivial

theorem spec_writeRule {self : Nat} {origin key : String} {decision : PermissionDecision}
    {accountId : String}
    (edits : ∀ tree bucket, call.born.world.mode.activeBucket accountId = some bucket →
      call.operation.edit call.born.world.mode call.born.world.consolidated tree =
        some (setRule tree (storageLabel origin) bucket key decision)) :
    coherence.Spec call pre (writeRule self origin key decision accountId) fun _ _ _ => True := by
  refine spec_withLock (.bind _ (spec_writeBucket accountId) fun _ _ _ bucket => ?_)
  refine .known (fun _ _ ⟨_, _, chosen⟩ => chosen) fun chosen => ?_
  exact .bind _ (spec_assertRuleScope _ bucket) fun _ _ _ _ =>
    spec_edit fun tree => edits tree bucket chosen

theorem spec_saveDirect {self : Nat} {origin key : String} {decision : PermissionDecision}
    {accountId : String}
    (edits : ∀ tree bucket, call.born.world.mode.activeBucket accountId = some bucket →
      call.operation.edit call.born.world.mode call.born.world.consolidated tree =
        some (setRule tree (storageLabel origin) bucket key decision)) :
    coherence.Spec call pre (saveDirect self origin key decision accountId) fun _ _ _ => True := by
  refine .bind _ (spec_requireLabel origin _) fun _ _ _ _ => ?_
  refine .bind _ (spec_requireLabel key _) fun _ _ _ _ => ?_
  split
  · exact .throw
  · split
    · exact .throw
    · exact spec_writeRule edits

theorem spec_requireFilter (value : Option String) (what : String) :
    coherence.Spec call pre (requireFilter value what) fun _ _ _ => True := by
  cases value with
  | none => exact .pure fun _ _ _ _ _ => trivial
  | some label => exact spec_requireLabel label what

theorem spec_set_grants {key : StoreKey} {value : key.Value}
    (grants : key = AUTHENTICATION_GRANTS_KEY ∨ key = DEFAULT_BACKEND_AUTH_KEY) :
    coherence.Spec call pre (set key value) fun _ _ _ => True := by
  refine spec_request (.set key value) ?_ ?_ fun _ _ _ _ _ _ _ _ _ _ _ _ _ => trivial
  · rcases grants with rfl | rfl <;> simp [StoreRequest.FreeOfModes, StoreKey.fixed]
  · rcases grants with rfl | rfl <;> rfl

theorem spec_revokeDefaultBackend (filter : AuthenticationGrantFilter) :
    coherence.Spec call pre (revokeDefaultBackend filter) fun _ _ _ => True := by
  unfold revokeDefaultBackend
  split
  · exact .bind _ spec_get_other fun _ _ _ _ => spec_set_grants (.inr rfl)
  · exact .pure fun _ _ _ _ _ => trivial

theorem spec_listGrants : coherence.Spec call pre listGrants fun _ _ _ => True :=
  .bind _ spec_get_other fun _ _ _ _ => .pure fun _ _ _ _ _ => trivial

theorem spec_revoke {self : Nat} (filter : AuthenticationGrantFilter) :
    coherence.Spec call pre (revoke self filter) fun _ _ _ => True := by
  refine .bind _ (spec_requireFilter _ _) fun _ _ _ _ => ?_
  refine .bind _ (spec_requireFilter _ _) fun _ _ _ _ => ?_
  refine .bind _ (spec_requireFilter _ _) fun _ _ _ _ => ?_
  refine spec_withLock (.bind _ spec_listGrants fun _ _ _ grants => ?_)
  exact .bind _ (spec_revokeDefaultBackend filter) fun _ _ _ _ => spec_set_grants (.inl rfl)

theorem spec_clearEverything {self : Nat} (accountId : String) :
    coherence.Spec call pre (clearEverything self accountId) fun _ _ _ => True := by
  refine .bind _ (spec_revoke _) fun _ _ _ _ => spec_withLock ?_
  exact spec_write (.remove PERMISSIONS_STORAGE_KEY)
    (by simp [StoreRequest.FreeOfModes, StoreKey.fixed]) (by rintro _ _ _ _ ⟨⟩)

theorem spec_clearOrigin {self : Nat} {origin accountId : String}
    (edits : ∀ tree bucket, call.born.world.mode.activeBucket accountId = some bucket →
      call.operation.edit call.born.world.mode call.born.world.consolidated tree =
        some (clearScopes tree origin bucket)) :
    coherence.Spec call pre (clearOrigin self origin accountId) fun _ _ _ => True := by
  refine .bind _ (spec_requireLabel _ _) fun _ _ _ _ => ?_
  refine .bind _ (spec_writeBucket accountId) fun _ _ _ _ => ?_
  refine .bind _ (spec_revoke _) fun _ _ _ _ => ?_
  refine spec_withLock (.bind _ (spec_writeBucket accountId) fun _ _ _ bucket => ?_)
  exact .known (fun _ _ ⟨_, _, chosen⟩ => chosen) fun chosen =>
    spec_edit fun tree => edits tree bucket chosen

theorem spec_clearAllForOrigin {self : Nat} {origin : String}
    (edits : ∀ tree, call.operation.edit call.born.world.mode call.born.world.consolidated tree =
      some (deleteScopes tree origin)) :
    coherence.Spec call pre (clearAllForOrigin self origin) fun _ _ _ => True := by
  refine .bind _ (spec_requireLabel _ _) fun _ _ _ _ => ?_
  exact .bind _ (spec_revoke _) fun _ _ _ _ => spec_withLock (spec_edit edits)

theorem spec_clearForAccount {self : Nat} {accountId : String}
    (edits : ∀ tree, call.operation.edit call.born.world.mode call.born.world.consolidated tree =
      some (deleteAccount tree accountId)) :
    coherence.Spec call pre (clearForAccount self accountId) fun _ _ _ => True := by
  refine .bind _ (spec_requireLabel _ _) fun _ _ _ _ => ?_
  split
  · exact .pure fun _ _ _ _ _ => trivial
  · exact .bind _ (spec_revoke _) fun _ _ _ _ => spec_withLock (spec_editIf edits)

theorem spec_copyPermissions {self : Nat} {source : Option String} {target : String}
    (edits : ∀ tree, call.operation.edit call.born.world.mode call.born.world.consolidated tree =
      some (copyBucket call.born.world.consolidated tree (source.getD DEFAULT_BUCKET) target)) :
    coherence.Spec call pre (copyPermissions self source target) fun _ _ _ => True := by
  unfold copyPermissions
  split
  · exact .throw
  · refine .bind _ (spec_requireLabel _ _) fun _ _ _ _ => ?_
    refine spec_withLock (.bind _ (spec_get_fixed (.inr (.inr (.inl rfl)))) fun _ _ _ version => ?_)
    refine .known (fun _ _ ⟨_, _, found⟩ => found) ?_
    rintro rfl
    dsimp only
    split
    · exact .throw
    · exact spec_editIf edits

theorem spec_completed {task : Task Unit} {post : Result → Prop} (done : post .done)
    (spec : coherence.Spec call pre task fun _ _ _ => True) :
    coherence.Spec call pre (completed task) fun _ _ result => post result :=
  .bind _ spec fun _ _ _ _ => .pure fun _ _ _ _ _ => done

/-- A read answered from a tree that was stored once every write resolved before
the read was made had landed. -/
def AnsweredFrom (call : Call permissionSystem) (state : State permissionSystem)
    (result : Result) : Prop :=
  match call.operation, result with
  | .check origin method kind accountId, .decision decision =>
    ∃ tree, state.world.HeldSince call.born.world.acknowledged tree ∧
      decision = resolve (call.born.world.mode.rules tree origin accountId) method kind
  | .getForOrigin origin accountId, .bucket bucket =>
    ∃ tree, state.world.HeldSince call.born.world.acknowledged tree ∧
      bucket = call.born.world.mode.rules tree origin accountId
  | _, _ => True

theorem method_coherence : coherence.Method fun call _ now => AnsweredFrom call now := by
  intro ⟨self, operation, born⟩ starts _ _
  cases operation with
  | check origin method kind accountId =>
    refine .bind _ (spec_check origin method kind accountId) fun _ _ _ _ => .pure ?_
    rintro log now - - ⟨-, -, answered⟩
    exact answered
  | getForOrigin origin accountId =>
    refine .bind _ (spec_getForOrigin origin accountId) fun _ _ _ _ => .pure ?_
    rintro log now - - ⟨-, -, answered⟩
    exact answered
  | saveDirect origin key decision accountId =>
    refine spec_completed trivial (spec_saveDirect fun tree bucket chosen => ?_)
    simp [Operation.edit, chosen]
  | save origin method kind decision accountId =>
    refine spec_completed trivial ?_
    unfold save
    split
    · next key named =>
      refine spec_saveDirect fun tree bucket chosen => ?_
      simp [Operation.edit, named, chosen]
    · exact .throw
  | clear origin accountId =>
    cases origin with
    | none => exact spec_completed trivial (spec_clearEverything accountId)
    | some origin =>
      refine spec_completed trivial (spec_clearOrigin fun tree bucket chosen => ?_)
      simp [Operation.edit, chosen]
  | clearAllForOrigin origin =>
    exact spec_completed trivial (spec_clearAllForOrigin fun _ => rfl)
  | clearForAccount accountId =>
    exact spec_completed trivial (spec_clearForAccount fun _ => rfl)
  | copyPermissions source target =>
    exact spec_completed trivial (spec_copyPermissions fun _ => rfl)
  | _ => exact Bool.noConfusion starts

/-! ## Runs -/

/-- The interleavings of reads and edits in which no reply to a tree read is
older than the last resolved write when it arrives. -/
def freshReplies (config : Config permissionSystem) : Move permissionSystem → Prop
  | .start operation => operation.readsOrEdits
  | .deliver self =>
    match config.processes[self]? with
    | some ⟨_, _, _, .answered entry _⟩ => ¬ Stale entry config.state
    | _ => True
  | .event .reopen => False
  | .serve _ _ | .event .invalidateCache => True

instance (config : Config permissionSystem) (move : Move permissionSystem) :
    Decidable (freshReplies config move) :=
  match move with
  | .start operation => inferInstanceAs (Decidable (operation.readsOrEdits = true))
  | .deliver self =>
    match found : config.processes[self]? with
    | some ⟨_, _, _, .answered entry _⟩ =>
      decidable_of_iff (¬ Stale entry config.state) (by simp [freshReplies, found])
    | some ⟨_, _, _, .waiting _ _⟩ | some ⟨_, _, _, .settled _⟩ | none =>
      .isTrue (by simp [freshReplies, found])
  | .event .reopen => .isFalse id
  | .serve _ _ | .event .invalidateCache => .isTrue trivial

theorem freshReplies_admits (config : Config permissionSystem) (move : Move permissionSystem)
    (fresh : freshReplies config move) : config.Admits coherence.contract move := by
  cases move with
  | start operation => exact fresh
  | serve self reaction => trivial
  | deliver self =>
    intro operation born log entry resume found
    simp only [freshReplies, found] at fresh
    exact fresh
  | event event =>
    cases event with
    | reopen => exact fresh.elim
    | invalidateCache =>
      rintro memory world ⟨⟩ coherent
      exact ⟨⟨⟨coherent.latest, coherent.acknowledged, by rintro _ ⟨⟩⟩, by rintro _ ⟨⟩⟩,
        later_memory _ _, fun _ _ => trivial⟩

/-- The number of the tree that an answered write stored. -/
def landing (entry : Entry permissionSystem) : Nat := entry.taken.world.landed.length - 1

def Resolved (entry : Entry permissionSystem) : Prop :=
  Storage.writesTree entry.request ∧ entry.answer.isOk

theorem serve_acknowledged {request : StoreRequest} {reaction : Reaction} {memory memory' : Instance}
    {storage storage' : Storage} {answer : Except String request.Reply}
    (served : serveRequest request reaction memory storage = some (answer, memory', storage')) :
    storage'.acknowledged = storage.acknowledged := by
  obtain ⟨-, landed⟩ := serveRequest_landed served
  cases landed <;> rfl

theorem acknowledged_le (state : State permissionSystem) (entry : Entry permissionSystem) :
    state.world.acknowledged ≤ (state.acknowledged entry).world.acknowledged := by
  simp only [State.acknowledged]
  split
  · exact Nat.le_max_left _ _
  · exact Nat.le_refl _

theorem landing_le_acknowledged (state : State permissionSystem) {entry : Entry permissionSystem}
    (resolved : Resolved entry) : landing entry ≤ (state.acknowledged entry).world.acknowledged := by
  simp only [State.acknowledged, resolved.1, resolved.2, Bool.and_self, if_true]
  exact Nat.le_max_right _ _

instance (entry : Entry permissionSystem) : Decidable (Resolved entry) :=
  inferInstanceAs (Decidable (_ ∧ _))

structure Acknowledges (before after : Config permissionSystem) : Prop where
  grows : before.state.world.acknowledged ≤ after.state.world.acknowledged
  resolved : (∀ process ∈ before.processes, ∀ entry ∈ process.log, Resolved entry →
      landing entry ≤ before.state.world.acknowledged) →
    ∀ process ∈ after.processes, ∀ entry ∈ process.log, Resolved entry →
      landing entry ≤ after.state.world.acknowledged

theorem step_acknowledges {config next : Config permissionSystem} {move : Move permissionSystem}
    (stepped : config.step move = some next) : Acknowledges config next := by
  cases move with
  | start operation =>
    cases stepped
    refine ⟨Nat.le_refl _, fun known process member entry logged resolved => ?_⟩
    simp only [Config.start, List.mem_append, List.mem_singleton] at member
    rcases member with member | rfl
    · exact known process member entry logged resolved
    · simp at logged
  | serve self reaction =>
    obtain ⟨operation, born, log, request, resume, answer, memory, world, found, served, rfl⟩ :=
      Config.serve_inv stepped
    have same : world.acknowledged = config.state.world.acknowledged := serve_acknowledged served
    refine ⟨Nat.le_of_eq same.symm, fun known process member entry logged resolved => ?_⟩
    simp only at member ⊢
    rw [same]
    rcases List.mem_or_eq_of_mem_set member with member | rfl
    · exact known process member entry logged resolved
    · exact known _ (List.mem_of_getElem? found) entry logged resolved
  | deliver self =>
    obtain ⟨operation, born, log, entry, resume, found, rfl⟩ := Config.deliver_inv stepped
    have grows := acknowledged_le config.state entry
    refine ⟨grows, fun known process member logged among resolved => ?_⟩
    simp only at member ⊢
    rcases List.mem_or_eq_of_mem_set member with member | rfl
    · exact (known process member logged among resolved).trans grows
    · simp only [List.mem_append, List.mem_singleton] at among
      rcases among with among | rfl
      · exact (known _ (List.mem_of_getElem? found) logged among resolved).trans grows
      · exact landing_le_acknowledged config.state resolved
  | event event =>
    obtain ⟨memory, world, occurred, rfl⟩ := Config.event_inv stepped
    cases occurred
    exact ⟨Nat.le_refl _, fun known => known⟩

theorem reaches_acknowledges {allowed : Config permissionSystem → Move permissionSystem → Prop}
    {first last : Config permissionSystem} (reaches : Config.Reaches allowed first last) :
    Acknowledges first last := by
  induction reaches with
  | refl => exact ⟨Nat.le_refl _, fun known => known⟩
  | step move _ _ stepped ih =>
    have stepped := step_acknowledges stepped
    exact ⟨ih.grows.trans stepped.grows, fun known => stepped.resolved (ih.resolved known)⟩

/-- A call works from trees the store held at `landing` or after: the one it
answers from, and the ones it writes an edit of. -/
structure WorksFrom (landing : Nat) (state : State permissionSystem)
    (process : Process permissionSystem) : Prop where
  decision : ∀ origin method kind accountId answer,
    process.operation = .check origin method kind accountId →
    process.status = .settled (.ok (.decision answer)) →
    ∃ tree, state.world.HeldSince landing tree ∧
      answer = resolve (state.world.mode.rules tree origin accountId) method kind
  bucket : ∀ origin accountId answer, process.operation = .getForOrigin origin accountId →
    process.status = .settled (.ok (.bucket answer)) →
    ∃ tree, state.world.HeldSince landing tree ∧
      answer = state.world.mode.rules tree origin accountId
  edit : ∀ log tree, process.Asked log (.set PERMISSIONS_STORAGE_KEY tree) →
    ∃ base, state.world.HeldSince landing base ∧
      process.operation.edit state.world.mode state.world.consolidated base = some tree

def anyReplies (_ : Config permissionSystem) : Move permissionSystem → Prop
  | .start operation => operation.readsOrEdits
  | .event .reopen => False
  | .serve _ _ | .deliver _ | .event .invalidateCache => True

instance (config : Config permissionSystem) (move : Move permissionSystem) :
    Decidable (anyReplies config move) :=
  match move with
  | .start operation => inferInstanceAs (Decidable (operation.readsOrEdits = true))
  | .event .reopen => .isFalse id
  | .serve _ _ | .deliver _ | .event .invalidateCache => .isTrue trivial

theorem coherent_opened (store : KeyValueStore) : Coherent (opened store).state :=
  ⟨⟨rfl, Nat.zero_lt_one, by rintro _ ⟨⟩⟩, by rintro _ ⟨⟩⟩

section Example

def clearThenCheck : List (Move permissionSystem) × List (Move permissionSystem) :=
  (.start (.clear none "account") :: answers 0 7, .start readKey :: answers 1 5)

def clearUnderCheck : List (Move permissionSystem) × List (Move permissionSystem) :=
  (.start readKey :: answers 0 3 ++ .serve 0 .perform :: .start (.clear none "account") ::
      answers 1 7,
    .deliver 0 :: answers 0 1 ++ .start readKey :: answers 2 4)

/-- What the second half of a run says once the clear of call `writer` is resolved. -/
def afterClear (allowed : Config permissionSystem → Move permissionSystem → Prop)
    [∀ config move, Decidable (allowed config move)] (writer : Nat)
    (run : List (Move permissionSystem) × List (Move permissionSystem))
    (shows : Config permissionSystem → Config permissionSystem → Bool) : Bool :=
  ((opened allowedSite).execWhile allowed run.1).any fun middle =>
    (middle.execWhile allowed run.2).any fun final =>
      ((middle.processes[writer]?.bind fun process => process.log.getLast?).any fun entry =>
        decide (Resolved entry) && decide (landing entry = 1)) &&
      decide (middle.processes.length = writer + 1) && shows middle final

theorem afterClear_iff {allowed : Config permissionSystem → Move permissionSystem → Prop}
    [∀ config move, Decidable (allowed config move)] {writer : Nat}
    {run : List (Move permissionSystem) × List (Move permissionSystem)}
    {shows : Config permissionSystem → Config permissionSystem → Bool}
    (holds : afterClear allowed writer run shows = true) :
    ∃ middle final process entry,
      Config.Reaches allowed (opened allowedSite) middle ∧ Config.Reaches allowed middle final ∧
      (process ∈ middle.processes ∧ entry ∈ process.log ∧ Resolved entry) ∧ landing entry = 1 ∧
      middle.processes.length = writer + 1 ∧ shows middle final = true := by
  simp only [afterClear, Option.any_eq_true, Bool.and_eq_true, decide_eq_true_eq] at holds
  obtain ⟨middle, first, final, second, ⟨⟨entry, found, resolved, landed⟩, made⟩, said⟩ := holds
  obtain ⟨process, present, last⟩ := Option.bind_eq_some_iff.mp found
  exact ⟨middle, final, process, entry, .of_execWhile first, .of_execWhile second,
    ⟨List.mem_of_getElem? present, List.mem_of_getLast? last, resolved⟩, landed, made, said⟩

def answersRevoked (self : Nat) (_ final : Config permissionSystem) : Bool :=
  final.processes[self]?.any fun reader =>
    match reader.operation, reader.status with
    | .check origin method kind accountId, .settled (.ok (.decision .allow)) =>
      (final.state.world.landed.drop 1).all fun tree =>
        resolve (final.state.world.mode.rules tree origin accountId) method kind ≠ .allow
    | _, _ => false

theorem not_worksFrom_of_answersRevoked {self : Nat} {middle final : Config permissionSystem}
    (revoked : answersRevoked self middle final = true) :
    ∃ reader, final.processes[self]? = some reader ∧ ¬ WorksFrom 1 final.state reader := by
  simp only [answersRevoked, Option.any_eq_true] at revoked
  obtain ⟨reader, found, revoked⟩ := revoked
  refine ⟨reader, found, fun works => ?_⟩
  split at revoked
  · next origin method kind accountId operation settled =>
    obtain ⟨tree, ⟨index, recent, held⟩, answer⟩ :=
      works.decision origin method kind accountId .allow operation settled
    have member : tree ∈ final.state.world.landed.drop 1 := by
      refine List.mem_of_getElem? (i := index - 1) ?_
      rw [List.getElem?_drop, Nat.add_sub_cancel' recent, held]
    simpa [← answer] using List.all_eq_true.mp revoked tree member
  · contradiction

end Example

end Coherence

end NostrWot.Permissions
