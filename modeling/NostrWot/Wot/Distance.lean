import NostrWot.Data.Value
import NostrWot.Traverse.Search
import NostrWot.Wot.Storage

namespace NostrWot.Wot

open NostrWot.Data NostrWot.Sync NostrWot.Traverse

/-! # Distances

One traversal of the graph in memory is kept for a root, with the revision of the storage that it
was made at.
-/

variable {Value : Type}

structure DistanceInfo where
  hops : Nat
  paths : Nat
  deriving DecidableEq

/-- The typed arrays hold zero where nothing was written. -/
structure BfsCache where
  rootId : Nat
  hops : Nat → Nat
  paths : Nat → Nat
  maxId : Nat
  maxHops : Nat
  revision : Nat

structure LocalGraph (Value : Type) where
  storage : GraphStorage Value
  revision : Nat
  /-- The calls of `loadAll` whose rows are not there yet. -/
  loads : Nat
  cache : Option BfsCache
  cachedRoot : Option String

def MAX_SAFE_INTEGER : Nat := 2 ^ 53 - 1

def hopLimit : Number → Option Nat
  | .finite value =>
    if value.den = 1 ∧ 0 ≤ value ∧ value ≤ MAX_SAFE_INTEGER then some value.num.toNat else none
  | _ => none

inductive Answer where
  | rangeError
  | distance (info : Option DistanceInfo)
  deriving DecidableEq

namespace Graph

def getMaxId (graph : Graph Value) : Nat := graph.nextId - 1

def getFollowIdsSync (graph : Graph Value) (id : Nat) : List Nat := (graph.graphCache.get id).getD []

/-- The follows that a traversal has room for. -/
def followIdsTo (graph : Graph Value) (maxId id : Nat) : List Nat :=
  (graph.getFollowIdsSync id).filter (· ≤ maxId)

def follows (graph : Graph Value) (pubkey : String) : List String :=
  match graph.pubkeyToId.get pubkey with
  | none => []
  | some id => (graph.getFollowIdsSync id).filterMap graph.idToPubkey.get

end Graph

namespace LocalGraph

def invalidateCache (state : LocalGraph Value) : LocalGraph Value :=
  { state with cache := none, cachedRoot := none }

def buildCache (state : LocalGraph Value) (root : String) (maxHops : Nat) : LocalGraph Value :=
  let graph := state.storage.graph
  match graph.pubkeyToId.get root with
  | none => { state with cache := none, cachedRoot := none }
  | some rootId =>
    let maxId := graph.getMaxId
    let found := (Search.begin_ rootId).run (graph.followIdsTo maxId) MAX_SAFE_INTEGER maxHops
      (maxId + 1)
    { state with
      cache := some ⟨rootId, found.hops, found.paths, maxId, maxHops, state.revision⟩
      cachedRoot := some root }

/-- Whether the cache answers for the root, as far as is asked. -/
def cacheServes (state : LocalGraph Value) (root : String) (maxHops : Nat) : Bool :=
  match state.cache with
  | none => false
  | some cache =>
    state.cachedRoot = some root && maxHops ≤ cache.maxHops && cache.revision = state.revision

def ensureCache (state : LocalGraph Value) (root : String) (maxHops : Nat) : LocalGraph Value :=
  if state.cacheServes root maxHops then state else state.buildCache root maxHops

/-- What is read of a cache that was ensured. -/
def lookup (state : LocalGraph Value) (root pubkey : String) (maxHops : Nat) :
    Option DistanceInfo :=
  match state.cache with
  | none => none
  | some cache =>
    if state.cachedRoot ≠ some root then none
    else
      match state.storage.graph.pubkeyToId.get pubkey with
      | none => none
      | some toId =>
        if cache.maxId < toId then none
        else
          let hops := cache.hops toId
          if hops = 0 ∨ maxHops < hops - 1 then none
          else some ⟨hops - 1, cache.paths toId⟩

def getDistance (state : LocalGraph Value) (root pubkey : String) (maxHops : Number) :
    Answer × LocalGraph Value :=
  match hopLimit maxHops with
  | none => (.rangeError, state)
  | some limit =>
    if root = pubkey then (.distance (some ⟨0, 1⟩), state)
    else
      let ensured := state.ensureCache root limit
      (.distance (ensured.lookup root pubkey limit), ensured)

/-- Whether `saveFollows` puts another row in memory. -/
def saveChanges (storage : GraphStorage Value) (pubkey : String) (follows : List String)
    (version : Option FollowVersion) : Bool :=
  let (id, minted) := storage.getOrCreateId pubkey
  if GraphStorage.stale version (minted.graph.versions.get id) then false
  else
    let (ids, all) := minted.getOrCreateIds follows.eraseDups
    all.graph.graphCache.get id ≠ some (sortIds ids)

end LocalGraph

structure StoredGraph (Value : Type) where
  disk : Disk Value
  readable : GraphStorage.Readable disk
  rows : ∀ id row ids, disk.follows.get id = some row → row.data.decode = some ids →
    ids.Nodup ∧ (∃ pubkey, disk.pubkeys.get id = some pubkey) ∧
      ∀ other ∈ ids, ∃ pubkey, disk.pubkeys.get other = some pubkey

inductive Call (Value : Type) where
  | getDistance (root pubkey : String) (maxHops : Number)
  | invalidateCache
  | getOrCreateId (pubkey : String)
  | saveFollows (pubkey : String) (follows : List String) (version : Option FollowVersion)
  | loadAll
  /-- What the database holds reaches the first `loadAll` that waits. -/
  | loaded (stored : StoredGraph Value)
  | clear

namespace LocalGraph

def step (state : LocalGraph Value) : Call Value → Option (LocalGraph Value)
  | .getDistance root pubkey maxHops => some (state.getDistance root pubkey maxHops).2
  | .invalidateCache => some state.invalidateCache
  | .getOrCreateId pubkey => some { state with storage := (state.storage.getOrCreateId pubkey).2 }
  | .saveFollows pubkey follows version =>
    some { state with
      storage := state.storage.saveFollows pubkey follows version
      revision := if saveChanges state.storage pubkey follows version then state.revision + 1
        else state.revision }
  | .loadAll =>
    some { state with
      storage := { state.storage with graph := Graph.blank }
      revision := state.revision + 1
      loads := state.loads + 1 }
  | .loaded stored =>
    if state.loads = 0 then none
    else
      some { state with
        storage := { state.storage with graph := (state.storage.graph.load stored.disk).1 }
        loads := state.loads - 1 }
  | .clear => some { state with storage := state.storage.wipe, revision := state.revision + 1 }

def begun : LocalGraph Value := ⟨GraphStorage.begun Disk.blank, 0, 0, none, none⟩

/-- The rows that arrive contradict no interning in memory, and they change nothing that a
traversal of this revision has read. -/
structure Timely (state : LocalGraph Value) (stored : StoredGraph Value) : Prop where
  ids : ∀ id pubkey, stored.disk.pubkeys.get id = some pubkey →
    ∀ other, state.storage.graph.pubkeyToId.get pubkey = some other → other = id
  pubkeys : ∀ id pubkey, stored.disk.pubkeys.get id = some pubkey →
    ∀ other, state.storage.graph.idToPubkey.get id = some other → other = pubkey
  rows : ∀ cache, state.cache = some cache → cache.revision = state.revision →
    ∀ id row, stored.disk.follows.get id = some row →
      state.storage.graph.graphCache.get id = row.data.decode

def Orderly (state : LocalGraph Value) : Call Value → Prop
  | .loaded stored => state.Timely stored
  | .saveFollows pubkey follows version =>
    GraphStorage.Orderly state.storage (.saveFollows pubkey follows version)
  | .getDistance _ _ _ | .invalidateCache | .getOrCreateId _ | .loadAll | .clear => True

/-- What `getDistance` is to answer. -/
inductive Shortest (follows : String → List String) (root pubkey : String) (limit : Nat) :
    Option DistanceInfo → Prop
  | reached (hops : Nat) : hops ≤ limit → At follows root hops pubkey →
      Shortest follows root pubkey limit
        (some ⟨hops, min MAX_SAFE_INTEGER (count follows root hops pubkey)⟩)
  | unreached : (∀ hops ≤ limit, ¬(walks follows root hops pubkey).Nonempty) →
      Shortest follows root pubkey limit none

end LocalGraph

/-! ## The graph in memory -/

namespace Graph

def Known (graph : Graph Value) (id : Nat) : Prop := ∃ pubkey, graph.idToPubkey.get id = some pubkey

def nameOf (graph : Graph Value) (id : Nat) : String := (graph.idToPubkey.get id).getD ""

structure Whole (graph : Graph Value) : Prop where
  interned : GraphStorage.Interned graph
  rows : ∀ id ids, graph.graphCache.get id = some ids →
    ids.Nodup ∧ graph.Known id ∧ ∀ other ∈ ids, graph.Known other

variable {graph : Graph Value}

theorem Whole.nodup (whole : graph.Whole) (id : Nat) : (graph.getFollowIdsSync id).Nodup := by
  unfold getFollowIdsSync
  cases held : graph.graphCache.get id with
  | none => exact List.nodup_nil
  | some ids => exact (whole.rows id ids held).1

theorem Whole.known (whole : graph.Whole) {id other : Nat} (listed : other ∈ graph.getFollowIdsSync id) :
    graph.Known other := by
  unfold getFollowIdsSync at listed
  cases held : graph.graphCache.get id with
  | none =>
    rw [held] at listed
    contradiction
  | some ids =>
    rw [held] at listed
    exact (whole.rows id ids held).2.2 other listed

theorem Whole.le_maxId (whole : graph.Whole) {id : Nat} (known : graph.Known id) :
    id ≤ graph.getMaxId := by
  obtain ⟨pubkey, named⟩ := known
  have bound := whole.interned.minted id pubkey named
  unfold getMaxId
  omega

theorem Whole.followIdsTo (whole : graph.Whole) :
    graph.followIdsTo graph.getMaxId = graph.getFollowIdsSync := by
  funext id
  unfold Graph.followIdsTo
  rw [List.filter_eq_self]
  intro other listed
  simpa using whole.le_maxId (whole.known listed)

theorem nameOf_of_get {id : Nat} {pubkey : String} (named : graph.idToPubkey.get id = some pubkey) :
    graph.nameOf id = pubkey := by
  unfold nameOf
  rw [named]
  rfl

theorem Whole.renames (whole : graph.Whole) :
    Renames graph.getFollowIdsSync graph.follows graph.nameOf graph.Known where
  injective first second one two same := by
    obtain ⟨pubkey, named⟩ := one
    obtain ⟨other, named'⟩ := two
    rw [nameOf_of_get named, nameOf_of_get named'] at same
    subst same
    have held := (whole.interned.inverse pubkey first).mpr named
    have also := (whole.interned.inverse pubkey second).mpr named'
    rw [held] at also
    exact Option.some.inj also
  closed id _ other listed := whole.known listed
  next id known := by
    obtain ⟨pubkey, named⟩ := known
    have held := (whole.interned.inverse pubkey id).mpr named
    unfold follows
    rw [nameOf_of_get named, held]
    have all : ∀ other ∈ graph.getFollowIdsSync id,
        graph.idToPubkey.get other = some (graph.nameOf other) := by
      intro other listed
      obtain ⟨name, here⟩ := whole.known listed
      rw [nameOf_of_get here, here]
    dsimp only
    rw [List.filterMap_congr all]
    exact List.filterMap_eq_map ▸ rfl

end Graph

namespace LocalGraph

/-- What a cache holds of the rows. -/
structure Covers (graph : Graph Value) (root : String) (cache : BfsCache) : Prop where
  named : graph.pubkeyToId.get root = some cache.rootId
  spans : Search.Spans graph.getFollowIdsSync cache.rootId MAX_SAFE_INTEGER cache.maxHops
    ⟨cache.hops, cache.paths, []⟩
  inside : ∀ id distance, At graph.getFollowIdsSync cache.rootId distance id → id ≤ cache.maxId

variable {graph : Graph Value} {state next : LocalGraph Value} {root pubkey : String}

theorem covers_build (whole : graph.Whole) {rootId : Nat}
    (named : graph.pubkeyToId.get root = some rootId) (limit revision : Nat) :
    let found := (Search.begin_ rootId).run (graph.followIdsTo graph.getMaxId) MAX_SAFE_INTEGER
      limit (graph.getMaxId + 1)
    Covers graph root ⟨rootId, found.hops, found.paths, graph.getMaxId, limit, revision⟩ := by
  have known : graph.Known rootId := ⟨root, (whole.interned.inverse root rootId).mp named⟩
  have inside : ∀ id distance, At graph.getFollowIdsSync rootId distance id →
      id ≤ graph.getMaxId := by
    intro id distance nearest
    obtain ⟨⟨steps, _, walked⟩, _⟩ := nearest
    exact whole.le_maxId (walked.closed (fun _ _ _ => whole.known) known)
  have spans := @Search.run_spans Nat _ graph.getFollowIdsSync rootId MAX_SAFE_INTEGER limit
    (Finset.range (graph.getMaxId + 1)) whole.nodup
    (fun id distance nearest => Finset.mem_range_succ_iff.mpr (inside id distance nearest))
    (by decide) (graph.getMaxId + 1) (by simp)
  rw [whole.followIdsTo]
  exact ⟨named, spans.congr rfl rfl, inside⟩

theorem shortest_unknown (unnamed : graph.pubkeyToId.get root = none) (differ : root ≠ pubkey)
    (limit : Nat) : Shortest graph.follows root pubkey limit none := by
  refine .unreached fun hops _ found => ?_
  obtain ⟨steps, _, walked⟩ := found
  cases steps with
  | nil => exact differ walked
  | cons step rest =>
    have listed := walked.1
    unfold Graph.follows at listed
    rw [unnamed] at listed
    contradiction

theorem Covers.lookup {cache : BfsCache} {limit : Nat} (covers : Covers graph root cache)
    (whole : graph.Whole) (held : state.cache = some cache) (rooted : state.cachedRoot = some root)
    (memory : state.storage.graph = graph) (enough : limit ≤ cache.maxHops) :
    Shortest graph.follows root pubkey limit (state.lookup root pubkey limit) := by
  have renames := whole.renames
  have rootName := (whole.interned.inverse root cache.rootId).mp covers.named
  have rootKnown : graph.Known cache.rootId := ⟨root, rootName⟩
  have here : graph.nameOf cache.rootId = root := Graph.nameOf_of_get rootName
  unfold LocalGraph.lookup
  simp only [held, rooted, memory, ne_eq, not_true_eq_false, if_false]
  cases found : graph.pubkeyToId.get pubkey with
  | none =>
    refine .unreached fun hops _ reached => ?_
    rw [← here] at reached
    obtain ⟨id, ⟨name, named⟩, same⟩ := renames.known_of_walk rootKnown reached
    rw [Graph.nameOf_of_get named] at same
    rw [same, (whole.interned.inverse name id).mpr named] at found
    contradiction
  | some toId =>
    have name := (whole.interned.inverse pubkey toId).mp found
    have known : graph.Known toId := ⟨pubkey, name⟩
    have there : graph.nameOf toId = pubkey := Graph.nameOf_of_get name
    have reaches : ∀ hops, At graph.follows root hops pubkey ↔
        At graph.getFollowIdsSync cache.rootId hops toId := by
      intro hops
      rw [← here, ← there]
      exact renames.at rootKnown known
    have hops := covers.spans.hops toId
    have none_ : (∀ hops ≤ limit, ¬At graph.getFollowIdsSync cache.rootId hops toId) →
        Shortest graph.follows root pubkey limit none := by
      intro far
      refine .unreached fun hops bound walked => ?_
      obtain ⟨nearest, less, reached⟩ := exists_at_of_walk walked
      exact far nearest (less.trans bound) ((reaches nearest).mp reached)
    dsimp only
    split
    · rename_i beyond
      exact none_ fun hops _ nearest =>
        Nat.not_lt.mpr (covers.inside toId hops nearest) beyond
    · split
      · rename_i out
        refine none_ fun distance bound nearest => ?_
        have stored := (hops distance).mpr ⟨nearest, bound.trans enough⟩
        dsimp only at stored
        omega
      · rename_i within
        have stored : cache.hops toId = (cache.hops toId - 1) + 1 := by omega
        obtain ⟨nearest, bound⟩ := (hops _).mp stored
        have paths := covers.spans.paths toId _ bound nearest
        dsimp only at paths
        have counted : count graph.follows root (cache.hops toId - 1) pubkey =
            count graph.getFollowIdsSync cache.rootId (cache.hops toId - 1) toId := by
          rw [← here, ← there]
          exact renames.count rootKnown known
        rw [paths, ← counted]
        exact .reached _ (by omega) ((reaches _).mpr nearest)

/-! ## Runs -/

structure Sound (state : LocalGraph Value) : Prop where
  whole : state.storage.graph.Whole
  past : ∀ cache, state.cache = some cache → cache.revision ≤ state.revision
  covers : ∀ cache root, state.cache = some cache → state.cachedRoot = some root →
    cache.revision = state.revision → Covers state.storage.graph root cache

theorem Sound.build (sound : Sound state) (root : String) (limit : Nat) :
    Sound (state.buildCache root limit) := by
  unfold buildCache
  dsimp only
  cases named : state.storage.graph.pubkeyToId.get root with
  | none => exact ⟨sound.whole, fun _ absurd => (nomatch absurd), fun _ _ absurd => (nomatch absurd)⟩
  | some rootId =>
    refine ⟨sound.whole, fun cache held => ?_, fun cache other held rooted _ => ?_⟩
    · cases held
      exact Nat.le_refl _
    · cases held
      cases rooted
      exact covers_build sound.whole named limit state.revision

theorem Sound.ensure (sound : Sound state) (root : String) (limit : Nat) :
    Sound (state.ensureCache root limit) := by
  unfold ensureCache
  split
  · exact sound
  · exact sound.build root limit

theorem Sound.lookup (sound : Sound state) (differ : root ≠ pubkey) (limit : Nat) :
    Shortest state.storage.graph.follows root pubkey limit
      ((state.ensureCache root limit).lookup root pubkey limit) := by
  by_cases serves : state.cacheServes root limit
  · unfold ensureCache
    rw [if_pos serves]
    unfold cacheServes at serves
    cases held : state.cache with
    | none =>
      rw [held] at serves
      contradiction
    | some cache =>
      rw [held] at serves
      simp only [Bool.and_eq_true, decide_eq_true_eq] at serves
      obtain ⟨⟨rooted, enough⟩, current⟩ := serves
      exact (sound.covers cache root held rooted current).lookup sound.whole held rooted rfl enough
  · unfold ensureCache
    rw [if_neg serves]
    cases named : state.storage.graph.pubkeyToId.get root with
    | none =>
      have nothing : (state.buildCache root limit).lookup root pubkey limit = none := by
        unfold buildCache
        simp only [named]
        rfl
      rw [nothing]
      exact shortest_unknown named differ limit
    | some rootId =>
      have built := covers_build sound.whole named limit state.revision
      refine built.lookup sound.whole ?_ ?_ ?_ (Nat.le_refl _)
      all_goals
        unfold buildCache
        simp only [named]

theorem Sound.revised (sound : Sound state) (whole : next.storage.graph.Whole)
    (cache : next.cache = state.cache) (later : next.revision = state.revision + 1) : Sound next := by
  refine ⟨whole, fun held here => ?_, fun held _ here _ current => ?_⟩
  all_goals
    rw [cache] at here
    have past := sound.past held here
    omega

theorem Sound.kept (sound : Sound state) (whole : next.storage.graph.Whole)
    (cache : next.cache = state.cache) (root : next.cachedRoot = state.cachedRoot)
    (revision : next.revision = state.revision)
    (ids : ∀ pubkey id, state.storage.graph.pubkeyToId.get pubkey = some id →
      next.storage.graph.pubkeyToId.get pubkey = some id)
    (rows : ∀ cache, state.cache = some cache → cache.revision = state.revision →
      next.storage.graph.getFollowIdsSync = state.storage.graph.getFollowIdsSync) : Sound next := by
  refine ⟨whole, fun held here => ?_, fun held name here rooted current => ?_⟩
  · rw [cache] at here
    rw [revision]
    exact sound.past held here
  · rw [cache] at here
    rw [root] at rooted
    rw [revision] at current
    obtain ⟨named, spans, inside⟩ := sound.covers held name here rooted current
    have same := rows held here current
    exact ⟨ids _ _ named, same ▸ spans, same ▸ inside⟩

/-! ### Saving -/

variable {storage minted : GraphStorage Value} {count : Nat}

theorem mints_whole (whole : storage.graph.Whole) (mints : GraphStorage.Mints count storage minted) :
    minted.graph.Whole ∧ minted.graph.graphCache = storage.graph.graphCache ∧
      ∀ id, storage.graph.Known id → minted.graph.Known id := by
  obtain ⟨_, _, _, _, same, kept⟩ := mints.made
  have known : ∀ id, storage.graph.Known id → minted.graph.Known id := by
    intro id known
    obtain ⟨pubkey, named⟩ := known
    rw [same]
    exact ⟨pubkey, (kept id pubkey).mpr (.inl named)⟩
  have cache : minted.graph.graphCache = storage.graph.graphCache := by rw [same]
  refine ⟨⟨mints.interned, fun id ids held => ?_⟩, cache, known⟩
  rw [cache] at held
  obtain ⟨nodup, here, others⟩ := whole.rows id ids held
  exact ⟨nodup, known id here, fun other listed => known other (others other listed)⟩

theorem saveFollows_whole (whole : storage.graph.Whole) (pubkey : String) (follows : List String)
    (version : Option FollowVersion) :
    (storage.saveFollows pubkey follows version).graph.Whole ∧
      (∀ other id, storage.graph.pubkeyToId.get other = some id →
        (storage.saveFollows pubkey follows version).graph.pubkeyToId.get other = some id) ∧
      (saveChanges storage pubkey follows version = false →
        (storage.saveFollows pubkey follows version).graph.graphCache = storage.graph.graphCache) := by
  obtain ⟨one, named⟩ := GraphStorage.getOrCreateId_mints whole.interned pubkey
  obtain ⟨wholeOne, cacheOne, _⟩ := mints_whole whole one
  unfold GraphStorage.saveFollows saveChanges
  generalize storage.getOrCreateId pubkey = made at one named wholeOne cacheOne
  obtain ⟨id, minted⟩ := made
  dsimp only at one named wholeOne cacheOne ⊢
  by_cases old : GraphStorage.stale version (minted.graph.versions.get id)
  · simp only [if_pos old]
    exact ⟨wholeOne, one.kept, fun _ => cacheOne⟩
  · simp only [if_neg old]
    obtain ⟨all, others⟩ := @GraphStorage.getOrCreateIds_mints _ follows.eraseDups minted one.interned
    obtain ⟨wholeAll, cacheAll, _⟩ := mints_whole wholeOne all
    generalize minted.getOrCreateIds follows.eraseDups = made at all others wholeAll cacheAll
    obtain ⟨ids, saved⟩ := made
    dsimp only at all others wholeAll cacheAll ⊢
    have nodup := (GraphStorage.ids_nodup all.interned
      (nodup_eraseDups _ _ (Nat.le_refl _)) others).1
    have sorted : (sortIds ids).Perm ids := List.perm_insertionSort _ _
    have listed : ∀ other ∈ sortIds ids, saved.graph.Known other := by
      intro other member
      obtain ⟨name, _, held⟩ := GraphStorage.named_of_mem others (sorted.mem_iff.mp member)
      exact ⟨name, (all.interned.inverse name other).mp held⟩
    have here : saved.graph.Known id :=
      ⟨pubkey, (all.interned.inverse pubkey id).mp (all.kept _ _ named)⟩
    refine ⟨⟨⟨all.interned.inverse, all.interned.minted⟩, fun other row held => ?_⟩,
      fun other id held => all.kept _ _ (one.kept _ _ held), fun unchanged => ?_⟩
    · have cases_ : row = sortIds ids ∧ other = id ∨ saved.graph.graphCache.get other = some row := by
        unfold GraphStorage.putRow at held
        dsimp only at held
        split at held
        · rw [OrderedMap.get_set] at held
          split at held
          · rename_i same
            exact .inl ⟨(Option.some.inj held).symm, same⟩
          · exact .inr held
        · exact .inr held
      rcases cases_ with ⟨same, this⟩ | before
      · rw [same, this]
        exact ⟨sorted.nodup_iff.mpr nodup, here, listed⟩
      · exact wholeAll.rows other row before
    · unfold GraphStorage.putRow
      dsimp only
      rw [unchanged]
      exact cacheAll.trans cacheOne

/-! ### Loading -/

theorem loadFollows_rows {records : List (Nat × StoredRow)} : ∀ {graph : Graph Value},
    (records.map Prod.fst).Nodup → (∀ record ∈ records, ∃ ids, record.2.data.decode = some ids) →
      ∃ graphCache versions edges, graph.loadFollows records = ({ graph with
          graphCache := graphCache
          versions := versions
          edges := edges }, true) ∧
        (∀ id row, (id, row) ∈ records → graphCache.get id = row.data.decode) ∧
        ∀ id, id ∉ records.map Prod.fst → graphCache.get id = graph.graphCache.get id := by
  induction records with
  | nil =>
    intro graph _ _
    exact ⟨_, _, _, rfl, fun _ _ absurd => (nomatch absurd), fun _ _ => rfl⟩
  | cons record rest ih =>
    intro graph once decodes
    obtain ⟨id, stored⟩ := record
    obtain ⟨absent, once⟩ := List.nodup_cons.mp once
    obtain ⟨⟨ids, decoded⟩, others⟩ := List.forall_mem_cons.mp decodes
    dsimp only at decoded
    obtain ⟨graphCache, versions, edges, loaded, rows, kept⟩ := @ih { graph with
      graphCache := graph.graphCache.set id ids
      edges := graph.edges + ids.length
      versions := Graph.loadVersion graph.versions id stored.version } once others
    refine ⟨graphCache, versions, edges, ?_, fun other row member => ?_, fun other outside => ?_⟩
    · unfold Graph.loadFollows
      simp only [decoded]
      exact loaded
    · rcases List.mem_cons.mp member with same | later
      · cases same
        rw [kept id absent, decoded]
        exact OrderedMap.get_set_self _ _ _
      · exact rows other row later
    · rw [List.map_cons, List.mem_cons, not_or] at outside
      rw [kept other outside.2]
      exact (OrderedMap.get_set _ _ _ _).trans (if_neg outside.1)

/-- What memory holds once the rows are in it. -/
structure Merged (graph : Graph Value) (disk : Disk Value) (next : Graph Value) : Prop where
  idToPubkey : ∀ id pubkey, next.idToPubkey.get id = some pubkey ↔
    disk.pubkeys.get id = some pubkey ∨ graph.idToPubkey.get id = some pubkey
  pubkeyToId : ∀ pubkey id, next.pubkeyToId.get pubkey = some id ↔
    disk.pubkeys.get id = some pubkey ∨ graph.pubkeyToId.get pubkey = some id
  minted : ∀ id pubkey, next.idToPubkey.get id = some pubkey → id < next.nextId
  stored : ∀ id row, disk.follows.get id = some row → next.graphCache.get id = row.data.decode
  other : ∀ id, disk.follows.get id = none → next.graphCache.get id = graph.graphCache.get id

theorem load_merged {disk : Disk Value} (readable : GraphStorage.Readable disk)
    (minted : ∀ id pubkey, graph.idToPubkey.get id = some pubkey → id < graph.nextId)
    (ids : ∀ id pubkey, disk.pubkeys.get id = some pubkey →
      ∀ other, graph.pubkeyToId.get pubkey = some other → other = id)
    (pubkeys : ∀ id pubkey, disk.pubkeys.get id = some pubkey →
      ∀ other, graph.idToPubkey.get id = some other → other = pubkey) :
    Merged graph disk (graph.load disk).1 := by
  obtain ⟨nextId, first, more, bound⟩ :=
    @GraphStorage.loadPubkeys_eq _ disk.pubkeys.entries graph
  obtain ⟨graphCache, versions, edges, second, rows, others⟩ :=
    @loadFollows_rows _ disk.follows.entries (graph.loadPubkeys disk.pubkeys.entries)
      disk.follows.nodup fun record member =>
        readable.decodes record.1 record.2 (OrderedMap.get_eq_some.mpr member)
  have named : ∀ id pubkey, (graph.idToPubkey.setAll disk.pubkeys.entries).get id = some pubkey ↔
      disk.pubkeys.get id = some pubkey ∨ graph.idToPubkey.get id = some pubkey := by
    intro id pubkey
    cases held : disk.pubkeys.get id with
    | none =>
      rw [OrderedMap.get_setAll_of_not_mem (OrderedMap.get_eq_none.mp held)]
      simp
    | some name =>
      have only : ∀ other, (id, other) ∈ disk.pubkeys.entries → other = name := by
        intro other member
        have same := OrderedMap.get_eq_some.mpr member
        rw [held] at same
        exact (Option.some.inj same).symm
      rw [OrderedMap.get_setAll_of_mem (OrderedMap.get_eq_some.mp held) only]
      refine ⟨.inl, fun either => ?_⟩
      rcases either with same | old
      · exact same
      · exact congrArg some (pubkeys id name held pubkey old).symm
  have interned : ∀ pubkey id,
      (graph.pubkeyToId.setAll (disk.pubkeys.entries.map Prod.swap)).get pubkey = some id ↔
        disk.pubkeys.get id = some pubkey ∨ graph.pubkeyToId.get pubkey = some id := by
    intro pubkey id
    have swapped : ∀ other, (pubkey, other) ∈ disk.pubkeys.entries.map Prod.swap ↔
        disk.pubkeys.get other = some pubkey := by
      intro other
      rw [OrderedMap.get_eq_some]
      simp
    by_cases stored : ∃ other, disk.pubkeys.get other = some pubkey
    · obtain ⟨other, held⟩ := stored
      rw [OrderedMap.get_setAll_of_mem ((swapped other).mpr held) fun also member =>
        readable.distinct _ _ pubkey ((swapped also).mp member) held]
      constructor
      · intro same
        exact .inl (Option.some.inj same ▸ held)
      · intro either
        rcases either with also | old
        · exact congrArg some (readable.distinct _ _ pubkey held also)
        · exact congrArg some (ids other pubkey held id old).symm
    · rw [OrderedMap.get_setAll_of_not_mem fun other member =>
        stored ⟨other, (swapped other).mp member⟩]
      exact (or_iff_right fun held => stored ⟨id, held⟩).symm
  have rows' : ∀ id, (graph.load disk).1.graphCache.get id = graphCache.get id := by
    intro id
    unfold Graph.load
    rw [second]
    rfl
  have names : (graph.load disk).1.idToPubkey = graph.idToPubkey.setAll disk.pubkeys.entries ∧
      (graph.load disk).1.pubkeyToId =
        graph.pubkeyToId.setAll (disk.pubkeys.entries.map Prod.swap) ∧
      (graph.load disk).1.nextId = nextId := by
    unfold Graph.load
    rw [second, first]
    exact ⟨rfl, rfl, rfl⟩
  refine ⟨fun id pubkey => ?_, fun pubkey id => ?_, fun id pubkey held => ?_, fun id row held => ?_,
    fun id absent => ?_⟩
  · rw [names.1]
    exact named id pubkey
  · rw [names.2.1]
    exact interned pubkey id
  · rw [names.1, named] at held
    rw [names.2.2]
    rcases held with new | old
    · exact bound (id, pubkey) (OrderedMap.get_eq_some.mp new)
    · exact Nat.lt_of_lt_of_le (minted id pubkey old) more
  · rw [rows']
    exact rows id row (OrderedMap.get_eq_some.mp held)
  · have outside : id ∉ disk.follows.entries.map Prod.fst := by
      intro member
      have there := OrderedMap.mem_keys.mp member
      rw [absent] at there
      contradiction
    rw [rows', others id outside, first]

theorem Sound.loaded (sound : Sound state) {stored : StoredGraph Value} (timely : state.Timely stored)
    (loads : Nat) : Sound { state with
      storage := { state.storage with graph := (state.storage.graph.load stored.disk).1 }
      loads := loads } := by
  have merged := load_merged stored.readable sound.whole.interned.minted timely.ids timely.pubkeys
  have known : ∀ id pubkey, stored.disk.pubkeys.get id = some pubkey →
      (state.storage.graph.load stored.disk).1.Known id := fun id pubkey held =>
    ⟨pubkey, (merged.idToPubkey id pubkey).mpr (.inl held)⟩
  have whole : (state.storage.graph.load stored.disk).1.Whole := by
    refine ⟨⟨fun pubkey id => ?_, merged.minted⟩, fun id ids held => ?_⟩
    · rw [merged.pubkeyToId, merged.idToPubkey, sound.whole.interned.inverse]
    · cases row : stored.disk.follows.get id with
      | none =>
        rw [merged.other id row] at held
        obtain ⟨nodup, ⟨pubkey, here⟩, others⟩ := sound.whole.rows id ids held
        refine ⟨nodup, ⟨pubkey, (merged.idToPubkey id pubkey).mpr (.inr here)⟩, ?_⟩
        intro other listed
        obtain ⟨name, there⟩ := others other listed
        exact ⟨name, (merged.idToPubkey other name).mpr (.inr there)⟩
      | some row_ =>
        rw [merged.stored id row_ row] at held
        obtain ⟨nodup, ⟨pubkey, here⟩, others⟩ := stored.rows id row_ ids row held
        refine ⟨nodup, known id pubkey here, fun other listed => ?_⟩
        obtain ⟨name, there⟩ := others other listed
        exact known other name there
  refine sound.kept whole rfl rfl rfl (fun pubkey id held => ?_) fun cache held current => ?_
  · exact (merged.pubkeyToId pubkey id).mpr (.inr held)
  · funext id
    unfold Graph.getFollowIdsSync
    cases row : stored.disk.follows.get id with
    | none => rw [merged.other id row]
    | some row_ => rw [merged.stored id row_ row, timely.rows cache held current id row_ row]

theorem sound_step (sound : Sound state) {call : Call Value} (orderly : Orderly state call)
    (moved : step state call = some next) : Sound next := by
  cases call with
  | getDistance root pubkey maxHops =>
    cases moved
    unfold getDistance
    split
    · exact sound
    · split
      · exact sound
      · exact sound.ensure _ _
  | invalidateCache =>
    cases moved
    exact ⟨sound.whole, fun _ absurd => (nomatch absurd), fun _ _ absurd => (nomatch absurd)⟩
  | getOrCreateId pubkey =>
    cases moved
    obtain ⟨mints, _⟩ := GraphStorage.getOrCreateId_mints sound.whole.interned pubkey
    obtain ⟨whole, same, _⟩ := mints_whole sound.whole mints
    refine sound.kept whole rfl rfl rfl mints.kept fun _ _ _ => ?_
    unfold Graph.getFollowIdsSync
    rw [same]
  | saveFollows pubkey follows version =>
    cases moved
    obtain ⟨whole, ids, same⟩ := saveFollows_whole sound.whole pubkey follows version
    cases changes : saveChanges state.storage pubkey follows version with
    | true => exact sound.revised whole rfl rfl
    | false =>
      refine sound.kept whole rfl rfl rfl ids fun _ _ _ => ?_
      dsimp only
      unfold Graph.getFollowIdsSync
      rw [same changes]
  | loadAll =>
    cases moved
    exact sound.revised ⟨GraphStorage.interned_blank, fun _ _ absurd => (nomatch absurd)⟩ rfl rfl
  | loaded stored =>
    simp only [step] at moved
    split at moved
    · contradiction
    · cases moved
      exact sound.loaded orderly _
  | clear =>
    cases moved
    exact sound.revised ⟨GraphStorage.interned_blank, fun _ _ absurd => (nomatch absurd)⟩ rfl rfl

theorem sound_begun : Sound (begun : LocalGraph Value) :=
  ⟨⟨GraphStorage.interned_blank, fun _ _ absurd => (nomatch absurd)⟩,
    fun _ absurd => (nomatch absurd), fun _ _ absurd => (nomatch absurd)⟩

/-- A distance is that of a shortest follow path in the graph that is in memory, with the number of
such paths, whatever was asked before. -/
theorem distances_hold (reaches : Reaches step Orderly (begun : LocalGraph Value) state)
    (root pubkey : String) (maxHops : Number) :
    (hopLimit maxHops = none → (state.getDistance root pubkey maxHops).1 = .rangeError) ∧
    ∀ limit, hopLimit maxHops = some limit → ∃ info,
      (state.getDistance root pubkey maxHops).1 = .distance info ∧
        Shortest state.storage.graph.follows root pubkey limit info := by
  have sound : Sound state := reaches.invariant sound_begun
    fun _ _ _ sound orderly moved => sound_step sound orderly moved
  refine ⟨fun invalid => ?_, fun limit valid => ?_⟩
  · unfold getDistance
    rw [invalid]
  · unfold getDistance
    rw [valid]
    by_cases same : root = pubkey
    · subst same
      simp only [if_pos]
      refine ⟨_, rfl, ?_⟩
      have self := Shortest.reached 0 (Nat.zero_le limit)
        (at_zero.mpr (rfl : root = root) : At state.storage.graph.follows root 0 root)
      rw [count_self] at self
      exact self
    · simp only [if_neg same]
      exact ⟨_, rfl, sound.lookup same limit⟩

def oneFollow : Disk Nat :=
  ⟨⟨[(1, "root"), (2, "a")], by decide⟩, ⟨[(1, ⟨.compact [2], none⟩)], by decide⟩, ∅⟩

theorem get_oneFollow {id : Nat} {row : StoredRow} (held : oneFollow.follows.get id = some row) :
    id = 1 ∧ row.data.decode = some [2] := by
  have member : (id, row) ∈ [((1 : Nat), (⟨.compact [2], none⟩ : StoredRow))] :=
    OrderedMap.get_eq_some.mp held
  cases List.mem_singleton.mp member
  exact ⟨rfl, rfl⟩

def oneStored : StoredGraph Nat where
  disk := oneFollow
  readable := by
    refine ⟨fun first second pubkey one two => ?_, fun id row held => ⟨_, (get_oneFollow held).2⟩⟩
    have first_ : (first, pubkey) ∈ [((1 : Nat), "root"), (2, "a")] := OrderedMap.get_eq_some.mp one
    have second_ : (second, pubkey) ∈ [((1 : Nat), "root"), (2, "a")] := OrderedMap.get_eq_some.mp two
    simp only [List.mem_cons, Prod.mk.injEq, List.not_mem_nil, or_false] at first_ second_
    rcases first_ with ⟨rfl, name⟩ | ⟨rfl, name⟩ <;> rcases second_ with ⟨rfl, also⟩ | ⟨rfl, also⟩
    · rfl
    · exact absurd (name.symm.trans also) (by decide)
    · exact absurd (name.symm.trans also) (by decide)
    · rfl
  rows id row ids held decoded := by
    obtain ⟨here, also⟩ := get_oneFollow held
    rw [also] at decoded
    cases decoded
    subst here
    refine ⟨by decide, ⟨"root", by decide⟩, fun other listed => ?_⟩
    rw [List.mem_singleton.mp listed]
    exact ⟨"a", by decide⟩

/-- The root is asked for while its rows are read. -/
def overtaken : List (Call Nat) :=
  [.loadAll, .saveFollows "root" [] none, .getDistance "root" "a" 6, .loaded oneStored]

/-- A traversal of the rows before is taken for one of the rows that arrived. -/
theorem loaded_rows_are_not_traversed :
    ∃ state, exec step begun overtaken = some state ∧ hopLimit 6 = some 6 ∧
      (state.getDistance "root" "a" 6).1 = .distance none ∧
      (state.invalidateCache.getDistance "root" "a" 6).1 = .distance (some ⟨1, 1⟩) ∧
      At state.storage.graph.follows "root" 1 "a" := by
  refine ⟨_, rfl, by decide, by decide, by decide, ?_⟩
  refine ⟨⟨["a"], rfl, ?_⟩, fun less short => ?_⟩
  · simp only [Walk]
    decide
  · have zero : less = 0 := by omega
    subst zero
    rw [walks_zero]
    intro found
    obtain ⟨_, _, same⟩ := found
    exact absurd same (by decide)

/-- A graph that is read, and changed. -/
theorem distances_hold_saved :
    ∃ state, exec step begun
        [.loadAll, .loaded oneStored, .getDistance "root" "a" 6, .saveFollows "a" ["b"] none] =
          some state ∧
      ∃ info, (state.getDistance "root" "b" 6).1 = .distance info ∧
        Shortest state.storage.graph.follows "root" "b" 6 info := by
  refine ⟨_, rfl, ?_⟩
  have permitted : Permitted step Orderly begun
      [.loadAll, .loaded oneStored, .getDistance "root" "a" 6, .saveFollows "a" ["b"] none] := by
    refine ⟨trivial, fun _ first => ?_⟩
    cases first
    refine ⟨⟨fun _ _ _ _ absurd => (nomatch absurd), fun _ _ _ _ absurd => (nomatch absurd),
      fun _ absurd => (nomatch absurd)⟩, fun _ second => ?_⟩
    cases second
    refine ⟨trivial, fun _ third => ?_⟩
    cases third
    have fits : 3 + (1 + ["b"].eraseDups.length) ≤ 2 ^ 32 := by decide
    exact ⟨fits, fun _ _ => trivial⟩
  exact (distances_hold (.of_permitted rfl permitted) "root" "b" 6).2 6 (by decide)

end LocalGraph

end NostrWot.Wot
