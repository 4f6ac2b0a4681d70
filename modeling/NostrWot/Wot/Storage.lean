import NostrWot.Data.OrderedMap
import NostrWot.Sync.Run
import NostrWot.Wot.Follows
import Mathlib.Data.List.Infix

namespace NostrWot.Wot

open NostrWot.Data NostrWot.Sync

/-! # The storage of a graph

Memory is what is read, and its changes are buffered until a flush writes them. Transactions run
in the order they were made.
-/

/-- A buffered row; `stamp` says which array it is. -/
structure Row where
  stamp : Nat
  ids : List Nat
  deriving DecidableEq

structure StoredRow where
  data : FollowData
  version : Option FollowVersion
  deriving DecidableEq

structure Graph (Value : Type) where
  pubkeyToId : OrderedMap String Nat
  idToPubkey : OrderedMap Nat String
  nextId : Nat
  graphCache : OrderedMap Nat (List Nat)
  metaCache : OrderedMap String Value
  versions : OrderedMap Nat FollowVersion
  edges : Int

structure Disk (Value : Type) where
  pubkeys : OrderedMap Nat String
  follows : OrderedMap Nat StoredRow
  metaRows : OrderedMap String Value

/-- What a flush writes. It `reports` unless a row could not be encoded. -/
structure Snapshot where
  pubkeys : List (Nat × String)
  follows : List (Nat × Row)
  rows : List (Nat × StoredRow)
  reports : Bool

inductive Tx (Value : Type) where
  | flush (snapshot : Snapshot)
  | clear
  | setMeta (values : List (String × Value))
  | load

def Tx.snapshot? {Value : Type} : Tx Value → Option Snapshot
  | .flush snapshot => some snapshot
  | _ => none

def Tx.isLoad {Value : Type} : Tx Value → Bool
  | .load => true
  | _ => false

inductive Opening where
  | connecting
  | loading
  deriving DecidableEq

structure GraphStorage (Value : Type) where
  graph : Graph Value
  dirtyFollows : OrderedMap Nat Row
  dirtyPubkeys : List (Nat × String)
  stamps : Nat
  db : Bool
  opened : Bool
  opening : Option Opening
  /-- The flushes that were called and are not done, of which the first may be `writing`. -/
  flushes : List Nat
  writing : Bool
  called : Nat
  /-- The clears that wait, each for the flushes called before it. -/
  clears : List Nat
  disk : Disk Value
  txs : List (Tx Value)
  hydrated : Bool
  /-- Whether anything was saved after the last call of `flush`. -/
  saved : Bool
  flushed : Option Bool

variable {Value : Type}

def Graph.blank : Graph Value := ⟨∅, ∅, 1, ∅, ∅, ∅, 0⟩

def Disk.blank : Disk Value := ⟨∅, ∅, ∅⟩

def Disk.write (disk : Disk Value) (snapshot : Snapshot) : Disk Value :=
  { disk with
    pubkeys := disk.pubkeys.setAll snapshot.pubkeys
    follows := disk.follows.setAll snapshot.rows }

/-! ## Reading -/

namespace Graph

def loadPubkeys (graph : Graph Value) (records : List (Nat × String)) : Graph Value :=
  records.foldl (fun graph record => { graph with
    pubkeyToId := graph.pubkeyToId.set record.2 record.1
    idToPubkey := graph.idToPubkey.set record.1 record.2
    nextId := if graph.nextId ≤ record.1 then record.1 + 1 else graph.nextId }) graph

def loadVersion (versions : OrderedMap Nat FollowVersion) (id : Nat) :
    Option FollowVersion → OrderedMap Nat FollowVersion
  | some version => versions.set id version
  | none => versions

def loadFollows (graph : Graph Value) : List (Nat × StoredRow) → Graph Value × Bool
  | [] => (graph, true)
  | record :: rest =>
    match record.2.data.decode with
    | none => (graph, false)
    | some row =>
      loadFollows { graph with
        graphCache := graph.graphCache.set record.1 row
        edges := graph.edges + row.length
        versions := loadVersion graph.versions record.1 record.2.version } rest

/-- What `loadAll` makes of its records, and whether it throws none of them away. -/
def load (graph : Graph Value) (disk : Disk Value) : Graph Value × Bool :=
  let (loaded, whole) := (graph.loadPubkeys disk.pubkeys.entries).loadFollows disk.follows.entries
  if whole then
    ({ loaded with metaCache := loaded.metaCache.setAll disk.metaRows.entries }, true)
  else (loaded, false)

end Graph

namespace GraphStorage

def begun (disk : Disk Value) : GraphStorage Value where
  graph := Graph.blank
  dirtyFollows := ∅
  dirtyPubkeys := []
  stamps := 0
  db := false
  opened := false
  opening := none
  flushes := []
  writing := false
  called := 0
  clears := []
  disk := disk
  txs := []
  hydrated := false
  saved := false
  flushed := none

/-! ## Saving -/

def getOrCreateId (state : GraphStorage Value) (pubkey : String) : Nat × GraphStorage Value :=
  match state.graph.pubkeyToId.get pubkey with
  | some existing => (existing, state)
  | none =>
    let id := state.graph.nextId
    (id, { state with
      graph := { state.graph with
        nextId := id + 1
        pubkeyToId := state.graph.pubkeyToId.set pubkey id
        idToPubkey := state.graph.idToPubkey.set id pubkey }
      dirtyPubkeys := state.dirtyPubkeys ++ [(id, pubkey)] })

def getOrCreateIds (state : GraphStorage Value) : List String → List Nat × GraphStorage Value
  | [] => ([], state)
  | pubkey :: rest =>
    let (id, minted) := state.getOrCreateId pubkey
    let (ids, all) := minted.getOrCreateIds rest
    (id :: ids, all)

def putVersion (versions : OrderedMap Nat FollowVersion) (id : Nat) :
    Option FollowVersion → OrderedMap Nat FollowVersion
  | some version => versions.set id version
  | none => versions.delete id

/-- What `saveFollows` does once the row of ids is made. -/
def putRow (state : GraphStorage Value) (id : Nat) (followIds : List Nat)
    (version : Option FollowVersion) : GraphStorage Value :=
  let graph := state.graph
  let prior := graph.graphCache.get id
  let changed : Bool := prior ≠ some followIds
  { state with
    graph := { graph with
      versions := putVersion graph.versions id version
      edges := if changed then graph.edges + (followIds.length - (prior.getD []).length)
        else graph.edges
      graphCache := if changed then graph.graphCache.set id followIds else graph.graphCache }
    dirtyFollows := if changed || version.isSome || (graph.versions.get id).isSome then
        state.dirtyFollows.set id ⟨state.stamps, followIds⟩
      else state.dirtyFollows
    stamps := state.stamps + 1 }

def stale (version prior : Option FollowVersion) : Bool :=
  match version, prior with
  | some version, some prior => !newerVersion version prior
  | _, _ => false

def saveFollows (state : GraphStorage Value) (pubkey : String) (follows : List String)
    (version : Option FollowVersion) : GraphStorage Value :=
  let (id, minted) := state.getOrCreateId pubkey
  if stale version (minted.graph.versions.get id) then minted
  else
    let (ids, all) := minted.getOrCreateIds follows.eraseDups
    all.putRow id (sortIds ids) version

/-! ## Flushing -/

def buffersEmpty (state : GraphStorage Value) : Prop :=
  state.dirtyPubkeys = [] ∧ state.dirtyFollows = ∅

instance (state : GraphStorage Value) : Decidable state.buffersEmpty :=
  inferInstanceAs (Decidable (_ ∧ _))

def finishFlush (state : GraphStorage Value) (succeeded : Bool) : GraphStorage Value :=
  { state with flushes := state.flushes.tail, writing := false, flushed := some succeeded }

def encodeRows (versions : OrderedMap Nat FollowVersion) :
    List (Nat × Row) → List (Nat × StoredRow) × Bool
  | [] => ([], true)
  | (id, row) :: rest =>
    match encodeCompactFollows row.ids with
    | none => ([], false)
    | some bytes =>
      let (rows, whole) := encodeRows versions rest
      ((id, ⟨.compact bytes, versions.get id⟩) :: rows, whole)

/-- `flushPending`, up to its `await`. -/
def flushPending (state : GraphStorage Value) : GraphStorage Value :=
  if state.db = false then { state with dirtyPubkeys := [], dirtyFollows := ∅ }.finishFlush true
  else if state.buffersEmpty then state.finishFlush true
  else
    let (rows, whole) := encodeRows state.graph.versions state.dirtyFollows.entries
    let snapshot : Snapshot := ⟨state.dirtyPubkeys, state.dirtyFollows.entries, rows, whole⟩
    let made := { state with txs := state.txs ++ [Tx.flush snapshot] }
    if whole then { made with writing := true } else made.finishFlush false

/-- No pubkey is put under a second id: the index on them is unique. -/
def admits (pubkeys : OrderedMap Nat String) (records : List (Nat × String)) : Bool :=
  (pubkeys.setAll records).values.Nodup

def dropWritten (dirty : OrderedMap Nat Row) (record : Nat × Row) : OrderedMap Nat Row :=
  if dirty.get record.1 = some record.2 then dirty.delete record.1 else dirty

/-- What `flushPending` does once its transaction is complete. -/
def flushComplete (state : GraphStorage Value) (snapshot : Snapshot) : GraphStorage Value :=
  { state with
    dirtyPubkeys := state.dirtyPubkeys.drop snapshot.pubkeys.length
    dirtyFollows := snapshot.follows.foldl dropWritten state.dirtyFollows }.finishFlush true

/-! ## Clearing -/

/-- What `clear` does to memory. -/
def wipe (state : GraphStorage Value) : GraphStorage Value :=
  { state with graph := Graph.blank, dirtyFollows := ∅, dirtyPubkeys := [] }

end GraphStorage

inductive Move (Value : Type) where
  | getOrCreateId (pubkey : String)
  | saveFollows (pubkey : String) (follows : List String) (version : Option FollowVersion)
  | flush
  /-- The first flush goes on to `flushPending`. -/
  | startFlush
  | clear
  /-- A clear that has no flush to wait for goes on. -/
  | startClear (index : Nat)
  | setMetaBatch (values : List (String × Value))
  | close
  | open
  /-- The database is there, or cannot be opened. -/
  | connected (succeeds : Bool)
  /-- The first transaction commits, or aborts. -/
  | settle (commits : Bool)

namespace GraphStorage

def setMeta (state : GraphStorage Value) (values : List (String × Value)) : GraphStorage Value :=
  { state with graph := { state.graph with metaCache := state.graph.metaCache.setAll values } }

def commit (state : GraphStorage Value) : Tx Value → Option (GraphStorage Value)
  | .flush snapshot =>
    if admits state.disk.pubkeys snapshot.pubkeys then
      let written := { state with disk := state.disk.write snapshot }
      some (if snapshot.reports then written.flushComplete snapshot else written)
    else none
  | .clear => some { state with disk := Disk.blank }.wipe
  | .setMeta values =>
    let put := state.disk.metaRows.setAll values
    some ({ state with disk := { state.disk with metaRows := put } }.setMeta values)
  | .load =>
    let (loaded, whole) := state.graph.load state.disk
    if whole then
      some { state with graph := loaded, opened := true, opening := none, hydrated := true }
    else some { state with graph := loaded, opening := none }

def abort (state : GraphStorage Value) : Tx Value → GraphStorage Value
  | .flush snapshot => if snapshot.reports then state.finishFlush false else state
  | .clear | .setMeta _ => state
  | .load => { state with opening := none }

def step (state : GraphStorage Value) : Move Value → Option (GraphStorage Value)
  | .getOrCreateId pubkey => some { (state.getOrCreateId pubkey).2 with saved := true }
  | .saveFollows pubkey follows version =>
    some { state.saveFollows pubkey follows version with saved := true }
  | .flush =>
    some { state with
      flushes := state.flushes ++ [state.called]
      called := state.called + 1
      saved := false }
  | .startFlush => if state.flushes ≠ [] ∧ state.writing = false then some state.flushPending else none
  | .clear => some { state with clears := state.clears ++ [state.called] }
  | .startClear index =>
    match state.clears[index]? with
    | some through =>
      if ∀ flush ∈ state.flushes, through ≤ flush then
        let resumed := { state with clears := state.clears.eraseIdx index }
        if state.db then some { resumed with txs := state.txs ++ [.clear] } else some resumed.wipe
      else none
    | none => none
  | .setMetaBatch values =>
    if state.db then some { state with txs := state.txs ++ [.setMeta values] }
    else some (state.setMeta values)
  | .close => some { state with db := false, opened := false }
  | .open =>
    if state.opening.isSome || state.opened then some state
    else some { state with opening := some .connecting }
  | .connected succeeds =>
    if state.opening = some .connecting then
      if succeeds then
        some { state with
          db := true
          graph := Graph.blank
          opening := some .loading
          txs := state.txs ++ [.load]
          hydrated := false }
      else some { state with opening := none }
    else none
  | .settle commits =>
    match state.txs with
    | [] => none
    | tx :: rest =>
      if commits then { state with txs := rest }.commit tx
      else some ({ state with txs := rest }.abort tx)

/-! ## Interning -/

structure Interned (graph : Graph Value) : Prop where
  inverse : ∀ pubkey id, graph.pubkeyToId.get pubkey = some id ↔
    graph.idToPubkey.get id = some pubkey
  minted : ∀ id pubkey, graph.idToPubkey.get id = some pubkey → id < graph.nextId

structure Mints (count : Nat) (state next : GraphStorage Value) : Prop where
  interned : Interned next.graph
  bound : next.graph.nextId ≤ state.graph.nextId + count
  kept : ∀ pubkey id, state.graph.pubkeyToId.get pubkey = some id →
    next.graph.pubkeyToId.get pubkey = some id
  made : ∃ nextId pubkeyToId idToPubkey minted, next = { state with
      graph := { state.graph with
        nextId := nextId
        pubkeyToId := pubkeyToId
        idToPubkey := idToPubkey }
      dirtyPubkeys := state.dirtyPubkeys ++ minted } ∧
    ∀ id pubkey, idToPubkey.get id = some pubkey ↔
      state.graph.idToPubkey.get id = some pubkey ∨ (id, pubkey) ∈ minted

variable {state next : GraphStorage Value} {pubkey : String}

theorem Mints.refl (interned : Interned state.graph) : Mints 0 state state where
  interned := interned
  bound := Nat.le_refl _
  kept _ _ := id
  made := ⟨_, _, _, [], by rw [List.append_nil], fun _ _ => by simp⟩

theorem Mints.trans {middle : GraphStorage Value} {count more : Nat}
    (first : Mints count state middle) (rest : Mints more middle next) :
    Mints (count + more) state next := by
  obtain ⟨nextId, pubkeyToId, idToPubkey, minted, same, kept⟩ := first.made
  obtain ⟨nextId', pubkeyToId', idToPubkey', minted', same', kept'⟩ := rest.made
  refine ⟨rest.interned, ?_, fun pubkey id held => rest.kept pubkey id (first.kept pubkey id held),
    nextId', pubkeyToId', idToPubkey', minted ++ minted', ?_, fun id pubkey => ?_⟩
  · have := first.bound
    have := rest.bound
    omega
  · rw [same', same, List.append_assoc]
  · rw [kept', same, kept, List.mem_append, or_assoc]

theorem getOrCreateId_mints (interned : Interned state.graph) (pubkey : String) :
    Mints 1 state (state.getOrCreateId pubkey).2 ∧
      (state.getOrCreateId pubkey).2.graph.pubkeyToId.get pubkey =
        some (state.getOrCreateId pubkey).1 := by
  unfold getOrCreateId
  cases held : state.graph.pubkeyToId.get pubkey with
  | some existing =>
    have none := Mints.refl interned
    exact ⟨⟨interned, Nat.le_succ _, none.kept, none.made⟩, held⟩
  | none =>
    have unused : state.graph.idToPubkey.get state.graph.nextId = none := by
      rw [Option.eq_none_iff_forall_ne_some]
      exact fun other found => Nat.lt_irrefl _ (interned.minted _ other found)
    have unnamed : ∀ id, state.graph.idToPubkey.get id ≠ some pubkey := by
      intro id found
      rw [(interned.inverse pubkey id).mpr found] at held
      contradiction
    refine ⟨⟨⟨fun other id => ?_, fun id other => ?_⟩, Nat.le_refl _, fun other id old => ?_,
      _, _, _, [(state.graph.nextId, pubkey)], rfl, fun id other => ?_⟩, OrderedMap.get_set_self _ _ _⟩
    · dsimp only
      rw [OrderedMap.get_set, OrderedMap.get_set]
      by_cases same : other = pubkey
      · by_cases new : id = state.graph.nextId
        · simp [same, new]
        · rw [if_pos same, if_neg new, same]
          refine ⟨fun found => absurd (Option.some.inj found).symm new, fun found => ?_⟩
          exact absurd found (unnamed id)
      · rw [if_neg same, interned.inverse]
        by_cases new : id = state.graph.nextId
        · rw [if_pos new, new, unused]
          simp [Ne.symm same]
        · rw [if_neg new]
    · dsimp only
      rw [OrderedMap.get_set]
      split
      · omega
      · intro found
        exact Nat.lt_succ_of_lt (interned.minted id other found)
    · dsimp only
      rw [OrderedMap.get_set, if_neg, old]
      intro same
      rw [same, held] at old
      contradiction
    · rw [OrderedMap.get_set]
      by_cases new : id = state.graph.nextId
      · rw [if_pos new, new, unused]
        simp [eq_comm]
      · rw [if_neg new]
        simp [new]

theorem getOrCreateIds_mints : ∀ {pubkeys : List String} {state : GraphStorage Value},
    Interned state.graph →
      Mints pubkeys.length state (state.getOrCreateIds pubkeys).2 ∧
        List.Forall₂ (fun pubkey id =>
          (state.getOrCreateIds pubkeys).2.graph.pubkeyToId.get pubkey = some id)
          pubkeys (state.getOrCreateIds pubkeys).1 := by
  intro pubkeys
  induction pubkeys with
  | nil => exact fun interned => ⟨.refl interned, .nil⟩
  | cons pubkey rest ih =>
    intro state interned
    obtain ⟨one, named⟩ := getOrCreateId_mints interned pubkey
    obtain ⟨all, others⟩ := ih one.interned
    have whole := one.trans all
    rw [Nat.add_comm] at whole
    exact ⟨whole, .cons (all.kept _ _ named) others⟩

variable {id : Nat}

theorem named_of_mem {named : String → Nat → Prop} {pubkeys : List String} {ids : List Nat}
    (all : List.Forall₂ named pubkeys ids) (member : id ∈ ids) :
    ∃ pubkey ∈ pubkeys, named pubkey id := by
  induction all with
  | nil => contradiction
  | @cons pubkey first pubkeys ids here rest ih =>
    rcases List.mem_cons.mp member with same | later
    · exact ⟨pubkey, List.mem_cons_self, same ▸ here⟩
    · obtain ⟨other, listed, also⟩ := ih later
      exact ⟨other, List.mem_cons_of_mem _ listed, also⟩

theorem ids_nodup {ids : List Nat} {pubkeys : List String} (interned : Interned state.graph)
    (distinct : pubkeys.Nodup)
    (named : List.Forall₂ (fun pubkey id => state.graph.pubkeyToId.get pubkey = some id)
      pubkeys ids) :
    ids.Nodup ∧ ∀ id ∈ ids, id < state.graph.nextId := by
  induction named with
  | nil => exact ⟨List.nodup_nil, fun _ absurd => (nomatch absurd)⟩
  | @cons pubkey id pubkeys ids first rest ih =>
    obtain ⟨absent, distinct⟩ := List.nodup_cons.mp distinct
    obtain ⟨nodup, bound⟩ := ih distinct
    have name := (interned.inverse pubkey id).mp first
    refine ⟨List.nodup_cons.mpr ⟨fun member => ?_, nodup⟩, fun other member => ?_⟩
    · obtain ⟨other, listed, also⟩ := named_of_mem rest member
      have again := (interned.inverse other id).mp also
      rw [name] at again
      exact absent (Option.some.inj again ▸ listed)
    · rcases List.mem_cons.mp member with same | later
      · rw [same]
        exact interned.minted id pubkey name
      · exact bound other later

/-! ## Rows -/

def Tallied (graph : Graph Value) : Prop :=
  graph.edges = (graph.graphCache.weight fun _ ids => ids.length : Nat)

theorem putVersion_of_ne {versions : OrderedMap Nat FollowVersion} {id other : Nat}
    {version : Option FollowVersion} (differs : other ≠ id) :
    (putVersion versions id version).get other = versions.get other := by
  cases version with
  | some version => exact (OrderedMap.get_set _ _ _ _).trans (if_neg differs)
  | none => exact (OrderedMap.get_delete _ _ _).trans (if_neg differs)

/-- A saved row is buffered, unless it is what memory has already. -/
theorem putRow_cases (tallied : Tallied state.graph) (id : Nat) (ids : List Nat)
    (version : Option FollowVersion) :
    (∃ versions edges graphCache, state.putRow id ids version = { state with
        graph := { state.graph with
          versions := versions
          edges := edges
          graphCache := graphCache }
        dirtyFollows := state.dirtyFollows.set id ⟨state.stamps, ids⟩
        stamps := state.stamps + 1 } ∧
      Tallied { state.graph with versions := versions, edges := edges, graphCache := graphCache } ∧
      (∀ other, graphCache.get other =
        if other = id then some ids else state.graph.graphCache.get other) ∧
      ∀ other, other ≠ id → versions.get other = state.graph.versions.get other) ∨
    state.putRow id ids version = { state with stamps := state.stamps + 1 } := by
  have versions := fun other => @putVersion_of_ne state.graph.versions id other version
  unfold putRow
  dsimp only
  by_cases same : state.graph.graphCache.get id = some ids
  · have unchanged : decide (state.graph.graphCache.get id ≠ some ids) = false := by simp [same]
    rw [unchanged]
    cases buffered : version.isSome || (state.graph.versions.get id).isSome with
    | true =>
      refine .inl ⟨putVersion state.graph.versions id version, state.graph.edges,
        state.graph.graphCache, ?_, tallied, fun other => ?_, versions⟩
      · simp only [Bool.false_or, buffered, if_true, Bool.false_eq_true, if_false]
      · split
        · rename_i here
          rw [here]
          exact same
        · rfl
    | false =>
      right
      obtain ⟨unversioned, unheld⟩ := Bool.or_eq_false_iff.mp buffered
      have bare := Option.isSome_eq_false_iff.mp unversioned
      have absent := Option.isNone_iff_eq_none.mp (Option.isSome_eq_false_iff.mp unheld)
      rw [Option.isNone_iff_eq_none.mp bare]
      have same : putVersion state.graph.versions id none = state.graph.versions :=
        OrderedMap.delete_of_none absent
      rw [same, absent]
      rfl
  · have changed : decide (state.graph.graphCache.get id ≠ some ids) = true := by simp [same]
    rw [changed]
    refine .inl ⟨putVersion state.graph.versions id version, state.graph.edges + (ids.length -
        ((state.graph.graphCache.get id).getD []).length), state.graph.graphCache.set id ids, ?_, ?_,
      fun other => OrderedMap.get_set _ _ _ _, versions⟩
    · simp only [Bool.true_or, if_true]
    · unfold Tallied at tallied ⊢
      dsimp only
      cases held : state.graph.graphCache.get id with
      | none =>
        have more := @OrderedMap.weight_set_of_none _ _ _ (fun _ ids => ids.length) _ _ held ids
        rw [more, tallied]
        simp
      | some old =>
        have more := @OrderedMap.weight_set _ _ _ (fun _ ids => ids.length) _ _ _ held ids
        rw [tallied]
        simp only [Option.getD_some]
        omega

/-! ## What saving changes -/

structure Saves (state next : GraphStorage Value) : Prop where
  frame : ∃ graph dirtyFollows dirtyPubkeys stamps saved, next = { state with
    graph := graph
    dirtyFollows := dirtyFollows
    dirtyPubkeys := dirtyPubkeys
    stamps := stamps
    saved := saved }
  stamps : state.stamps ≤ next.stamps
  pubkeys : ∃ minted, next.dirtyPubkeys = state.dirtyPubkeys ++ minted ∧
    ∀ id pubkey, next.graph.idToPubkey.get id = some pubkey ↔
      state.graph.idToPubkey.get id = some pubkey ∨ (id, pubkey) ∈ minted
  row : ∀ id, (next.dirtyFollows.get id = state.dirtyFollows.get id ∧
      next.graph.graphCache.get id = state.graph.graphCache.get id ∧
      next.graph.versions.get id = state.graph.versions.get id) ∨
    ∃ row, next.dirtyFollows.get id = some row ∧ next.graph.graphCache.get id = some row.ids ∧
      Stored row.ids ∧ state.stamps ≤ row.stamp ∧ row.stamp < next.stamps

theorem Saves.trans {middle : GraphStorage Value} (first : Saves state middle)
    (rest : Saves middle next) : Saves state next := by
  obtain ⟨_, _, _, _, _, same⟩ := first.frame
  obtain ⟨_, _, _, _, _, same'⟩ := rest.frame
  obtain ⟨minted, dirty, kept⟩ := first.pubkeys
  obtain ⟨minted', dirty', kept'⟩ := rest.pubkeys
  refine ⟨⟨_, _, _, _, _, same'.trans (by rw [same])⟩, first.stamps.trans rest.stamps,
    ⟨minted ++ minted', ?_, fun id pubkey => ?_⟩, fun id => ?_⟩
  · rw [dirty', dirty, List.append_assoc]
  · rw [kept', kept, List.mem_append, or_assoc]
  · rcases rest.row id with ⟨dirty, row, version⟩ | ⟨row, dirty, held, stored, late, bound⟩
    · rw [dirty, row, version]
      rcases first.row id with old | ⟨row, dirty, held, stored, late, bound⟩
      · exact .inl old
      · exact .inr ⟨row, dirty, held, stored, late, Nat.lt_of_lt_of_le bound rest.stamps⟩
    · exact .inr ⟨row, dirty, held, stored, first.stamps.trans late, bound⟩

theorem Mints.saves {count : Nat} (mints : Mints count state next) : Saves state next := by
  obtain ⟨nextId, pubkeyToId, idToPubkey, minted, same, kept⟩ := mints.made
  subst same
  exact ⟨⟨_, _, _, _, _, rfl⟩, Nat.le_refl _, ⟨minted, rfl, kept⟩, fun _ => .inl ⟨rfl, rfl, rfl⟩⟩

theorem Mints.tallied {count : Nat} (mints : Mints count state next)
    (tallied : Tallied state.graph) : Tallied next.graph := by
  obtain ⟨_, _, _, _, same, _⟩ := mints.made
  rw [same]
  exact tallied

theorem Saves.marked (saves : Saves state next) : Saves state { next with saved := true } := by
  obtain ⟨_, _, _, _, _, same⟩ := saves.frame
  exact ⟨⟨_, _, _, _, _, by rw [same]⟩, saves.stamps, saves.pubkeys, saves.row⟩

theorem putRow_saves (interned : Interned state.graph) (tallied : Tallied state.graph)
    {ids : List Nat} (stored : Stored ids) (version : Option FollowVersion) :
    Saves state (state.putRow id ids version) ∧ Interned (state.putRow id ids version).graph ∧
      Tallied (state.putRow id ids version).graph := by
  rcases putRow_cases tallied id ids version with
    ⟨versions, edges, graphCache, same, whole, rows, others⟩ | same
  · rw [same]
    refine ⟨⟨⟨_, _, _, _, _, rfl⟩, Nat.le_succ _, ⟨[], (List.append_nil _).symm, fun _ _ => by simp⟩,
      fun other => ?_⟩, ⟨interned.inverse, interned.minted⟩, whole⟩
    dsimp only
    rw [OrderedMap.get_set, rows]
    by_cases here : other = id
    · rw [if_pos here, if_pos here]
      exact .inr ⟨_, rfl, rfl, stored, Nat.le_refl _, Nat.lt_succ_self _⟩
    · rw [if_neg here, if_neg here]
      exact .inl ⟨rfl, rfl, others other here⟩
  · rw [same]
    exact ⟨⟨⟨_, _, _, _, _, rfl⟩, Nat.le_succ _, ⟨[], (List.append_nil _).symm, fun _ _ => by simp⟩,
      fun _ => .inl ⟨rfl, rfl, rfl⟩⟩, interned, tallied⟩

theorem stored_sortIds {ids : List Nat} (nodup : ids.Nodup) (small : ∀ id ∈ ids, id ≤ 0xffffffff) :
    Stored (sortIds ids) := by
  have same := List.perm_insertionSort (· ≤ ·) ids
  have sorted := List.pairwise_insertionSort (· ≤ ·) ids
  have distinct : (sortIds ids).Nodup := same.nodup_iff.mpr nodup
  refine ⟨?_, fun id member => small id (same.mem_iff.mp member)⟩
  exact (sorted.and distinct).imp fun both => Nat.lt_of_le_of_ne both.1 both.2

theorem saveFollows_saves (interned : Interned state.graph) (tallied : Tallied state.graph)
    {follows : List String} (fits : state.graph.nextId + (1 + follows.eraseDups.length) ≤ 2 ^ 32)
    (pubkey : String) (version : Option FollowVersion) :
    Saves state (state.saveFollows pubkey follows version) ∧
      Interned (state.saveFollows pubkey follows version).graph ∧
      Tallied (state.saveFollows pubkey follows version).graph ∧
      ∃ id, (state.saveFollows pubkey follows version).graph.idToPubkey.get id = some pubkey := by
  obtain ⟨one, named⟩ := getOrCreateId_mints interned pubkey
  unfold saveFollows
  dsimp only
  split
  · exact ⟨one.saves, one.interned, one.tallied tallied, _, (one.interned.inverse _ _).mp named⟩
  · obtain ⟨all, others⟩ := @getOrCreateIds_mints _ follows.eraseDups _ one.interned
    obtain ⟨nodup, bound⟩ := ids_nodup all.interned (nodup_eraseDups _ follows (Nat.le_refl _)) others
    have small := (one.trans all).bound
    have stored := stored_sortIds nodup fun id member => by
      have := bound id member
      omega
    obtain ⟨saves, interned, tallied⟩ :=
      putRow_saves all.interned (all.tallied (one.tallied tallied)) stored version
    refine ⟨(one.saves.trans all.saves).trans saves, interned, tallied,
      (state.getOrCreateId pubkey).1, ?_⟩
    have held := (all.interned.inverse _ _).mp (all.kept _ _ named)
    obtain ⟨minted, _, kept⟩ := saves.pubkeys
    exact (kept _ _).mpr (.inl held)

/-! ## Memory, buffers and disk -/

/-- A row on the disk is the one in memory. -/
def Clean (disk : Disk Value) (graph : Graph Value) (id : Nat) : Prop :=
  (disk.follows.get id = none ∧ graph.graphCache.get id = none ∧ graph.versions.get id = none) ∨
    ∃ stored ids, disk.follows.get id = some stored ∧ stored.data.decode = some ids ∧
      graph.graphCache.get id = some ids ∧ graph.versions.get id = stored.version

/-- What is in memory is on the disk or buffered. -/
structure Covers (state : GraphStorage Value) : Prop where
  kept : ∀ id pubkey, state.graph.idToPubkey.get id = some pubkey ↔
    state.disk.pubkeys.get id = some pubkey ∨ (id, pubkey) ∈ state.dirtyPubkeys
  dirty : ∀ id row, state.dirtyFollows.get id = some row →
    state.graph.graphCache.get id = some row.ids ∧ Stored row.ids
  clean : ∀ id, state.dirtyFollows.get id = none → Clean state.disk state.graph id

/-- The flush that is written is of what is buffered, but for the rows saved again. -/
structure InFlight (state : GraphStorage Value) (snapshot : Snapshot) : Prop where
  reports : snapshot.reports = true
  pubkeys : snapshot.pubkeys <+: state.dirtyPubkeys
  nonempty : snapshot.pubkeys ≠ [] ∨ snapshot.follows ≠ []
  keys : snapshot.rows.map Prod.fst = snapshot.follows.map Prod.fst
  once : (snapshot.follows.map Prod.fst).Nodup
  row : ∀ id row, (id, row) ∈ snapshot.follows → row.stamp < state.stamps ∧
    ∃ stored now, (id, stored) ∈ snapshot.rows ∧ stored.data.decode = some row.ids ∧
      state.dirtyFollows.get id = some now ∧
      (now.stamp = row.stamp → now = row ∧ stored.version = state.graph.versions.get id)

def Stamped (state : GraphStorage Value) : Prop :=
  ∀ id row, state.dirtyFollows.get id = some row → row.stamp < state.stamps

theorem Covers.saves (covers : Covers state) (saves : Saves state next) : Covers next := by
  obtain ⟨_, _, _, _, _, same⟩ := saves.frame
  obtain ⟨minted, dirty, kept⟩ := saves.pubkeys
  have disk : next.disk = state.disk := by rw [same]
  refine ⟨fun id pubkey => ?_, fun id row held => ?_, fun id absent => ?_⟩
  · rw [kept, covers.kept, dirty, disk, List.mem_append, or_assoc]
  · rcases saves.row id with ⟨dirty, cached, _⟩ | ⟨new, dirty, cached, stored, _⟩
    · rw [dirty] at held
      rw [cached]
      exact covers.dirty id row held
    · rw [dirty] at held
      cases held
      exact ⟨cached, stored⟩
  · rcases saves.row id with ⟨dirty, cached, version⟩ | ⟨new, dirty, _⟩
    · rw [dirty] at absent
      unfold Clean
      rw [disk, cached, version]
      exact covers.clean id absent
    · rw [dirty] at absent
      contradiction

theorem InFlight.saves {snapshot : Snapshot} (flight : InFlight state snapshot)
    (saves : Saves state next) : InFlight next snapshot := by
  obtain ⟨minted, dirty, _⟩ := saves.pubkeys
  refine ⟨flight.reports, ?_, flight.nonempty, flight.keys, flight.once, fun id row member => ?_⟩
  · rw [dirty]
    exact flight.pubkeys.trans (List.prefix_append _ _)
  · obtain ⟨before, stored, now, written, decoded, held, again⟩ := flight.row id row member
    refine ⟨Nat.lt_of_lt_of_le before saves.stamps, ?_⟩
    rcases saves.row id with ⟨dirty, _, version⟩ | ⟨new, dirty, _, _, late, _⟩
    · refine ⟨stored, now, written, decoded, dirty.trans held, fun same => ?_⟩
      rw [version]
      exact again same
    · refine ⟨stored, new, written, decoded, dirty, fun same => ?_⟩
      omega

theorem Stamped.saves (stamped : Stamped state) (saves : Saves state next) : Stamped next := by
  intro id row held
  rcases saves.row id with ⟨dirty, _⟩ | ⟨new, dirty, _, _, _, bound⟩
  · rw [dirty] at held
    exact Nat.lt_of_lt_of_le (stamped id row held) saves.stamps
  · rw [dirty] at held
    cases held
    exact bound

/-! ## A flush -/

theorem encodeRows_stored {versions : OrderedMap Nat FollowVersion} {follows : List (Nat × Row)}
    (stored : ∀ record ∈ follows, Stored record.2.ids) :
    ∃ rows, encodeRows versions follows = (rows, true) ∧
      rows.map Prod.fst = follows.map Prod.fst ∧
      ∀ id row, (id, row) ∈ follows → ∃ stored, (id, stored) ∈ rows ∧
        stored.data.decode = some row.ids ∧ stored.version = versions.get id := by
  induction follows with
  | nil => exact ⟨[], rfl, rfl, fun _ _ absurd => (nomatch absurd)⟩
  | cons record rest ih =>
    obtain ⟨id, row⟩ := record
    obtain ⟨rows, encoded, keys, all⟩ := ih fun other member =>
      stored other (List.mem_cons_of_mem _ member)
    obtain ⟨bytes, first, decoded⟩ := decode_encodeCompactFollows (stored _ List.mem_cons_self)
    refine ⟨(id, ⟨.compact bytes, versions.get id⟩) :: rows, ?_, ?_, fun other held member => ?_⟩
    · unfold encodeRows
      dsimp only at first ⊢
      rw [first, encoded]
    · rw [List.map_cons, List.map_cons, keys]
    · rcases List.mem_cons.mp member with same | later
      · cases same
        exact ⟨_, List.mem_cons_self, decoded, rfl⟩
      · obtain ⟨stored, written, rest⟩ := all other held later
        exact ⟨stored, List.mem_cons_of_mem _ written, rest⟩

theorem flushPending_writes (covers : Covers state) (stamped : Stamped state)
    (open_ : state.db = true) (buffered : ¬state.buffersEmpty) :
    ∃ snapshot, state.flushPending =
        { state with txs := state.txs ++ [Tx.flush snapshot], writing := true } ∧
      InFlight state snapshot ∧ snapshot.pubkeys = state.dirtyPubkeys ∧
      snapshot.follows = state.dirtyFollows.entries := by
  obtain ⟨rows, encoded, keys, all⟩ := @encodeRows_stored state.graph.versions
    state.dirtyFollows.entries fun record member =>
      (covers.dirty record.1 record.2 (OrderedMap.get_eq_some.mpr member)).2
  refine ⟨⟨state.dirtyPubkeys, state.dirtyFollows.entries, rows, true⟩, ?_,
    ⟨rfl, List.prefix_refl _, ?_, keys, state.dirtyFollows.nodup, fun id row member => ?_⟩, rfl, rfl⟩
  · unfold flushPending
    rw [open_, if_neg (by decide), if_neg buffered, encoded]
    rfl
  · by_contra none
    rw [not_or, not_not, not_not] at none
    exact buffered ⟨none.1, OrderedMap.ext none.2⟩
  · have held := OrderedMap.get_eq_some.mpr member
    obtain ⟨stored, written, decoded, version⟩ := all id row member
    exact ⟨stamped id row held, stored, row, written, decoded, held, fun _ => ⟨rfl, version⟩⟩

theorem get_dropWritten (dirty : OrderedMap Nat Row) (record : Nat × Row) (id : Nat) :
    (dropWritten dirty record).get id =
      if id = record.1 ∧ dirty.get id = some record.2 then none else dirty.get id := by
  unfold dropWritten
  by_cases same : dirty.get record.1 = some record.2
  · rw [if_pos same, OrderedMap.get_delete]
    by_cases here : id = record.1
    · rw [if_pos here, if_pos ⟨here, here ▸ same⟩]
    · rw [if_neg here, if_neg fun both => here both.1]
  · have apart : ¬(id = record.1 ∧ dirty.get id = some record.2) := fun both =>
      same (both.1 ▸ both.2)
    rw [if_neg same, if_neg apart]

/-- A row that was written stays dirty only when it was saved again. -/
theorem get_dropAll {follows : List (Nat × Row)} : ∀ {dirty : OrderedMap Nat Row},
    ((∃ row, (id, row) ∈ follows ∧ dirty.get id = some row) →
      (follows.foldl dropWritten dirty).get id = none) ∧
    ((∀ row, (id, row) ∈ follows → dirty.get id ≠ some row) →
      (follows.foldl dropWritten dirty).get id = dirty.get id) := by
  induction follows with
  | nil => exact fun {dirty} => ⟨fun found => (nomatch found.choose_spec.1), fun _ => rfl⟩
  | cons record rest ih =>
    intro dirty
    rw [List.foldl_cons]
    have first := get_dropWritten dirty record id
    refine ⟨fun found => ?_, fun never => ?_⟩
    · obtain ⟨row, member, held⟩ := found
      by_cases now : id = record.1 ∧ dirty.get id = some record.2
      · rw [if_pos now] at first
        rw [ih.2 fun other _ absurd => by rw [first] at absurd; contradiction, first]
      · rw [if_neg now] at first
        rcases List.mem_cons.mp member with same | later
        · cases same
          exact absurd ⟨rfl, held⟩ now
        · exact ih.1 ⟨row, later, first.trans held⟩
    · have now : ¬(id = record.1 ∧ dirty.get id = some record.2) := fun both =>
        never record.2 (List.mem_cons.mpr (.inl (Prod.ext both.1 rfl))) both.2
      rw [if_neg now] at first
      rw [ih.2 fun other later => by
        rw [first]
        exact never other (List.mem_cons_of_mem _ later), first]

theorem InFlight.only {snapshot : Snapshot} (flight : InFlight state snapshot) {stored : StoredRow}
    (member : (id, stored) ∈ snapshot.rows) :
    ∀ other, (id, other) ∈ snapshot.rows → other = stored := by
  intro other also
  have once : (snapshot.rows.map Prod.fst).Nodup := flight.keys ▸ flight.once
  exact congrArg Prod.snd (List.inj_on_of_nodup_map once also member rfl)

theorem InFlight.unwritten {snapshot : Snapshot} (flight : InFlight state snapshot)
    (unsaved : ∀ row, (id, row) ∉ snapshot.follows) (stored : StoredRow) :
    (id, stored) ∉ snapshot.rows := by
  intro member
  have key : id ∈ snapshot.rows.map Prod.fst := List.mem_map.mpr ⟨_, member, rfl⟩
  rw [flight.keys] at key
  obtain ⟨record, held, same⟩ := List.mem_map.mp key
  exact unsaved record.2 (same ▸ held)

theorem Covers.flushed {snapshot : Snapshot} (covers : Covers state)
    (flight : InFlight state snapshot) :
    Covers ({ state with disk := state.disk.write snapshot }.flushComplete snapshot) := by
  obtain ⟨later, buffers⟩ := flight.pubkeys
  have named : ∀ id pubkey, (id, pubkey) ∈ snapshot.pubkeys →
      state.graph.idToPubkey.get id = some pubkey := by
    intro id pubkey member
    refine (covers.kept id pubkey).mpr (.inr ?_)
    rw [← buffers]
    exact List.mem_append_left _ member
  have put : ∀ id pubkey, (id, pubkey) ∈ snapshot.pubkeys →
      (state.disk.pubkeys.setAll snapshot.pubkeys).get id = some pubkey := by
    intro id pubkey member
    refine OrderedMap.get_setAll_of_mem member fun other also => ?_
    have same := named id other also
    rw [named id pubkey member] at same
    exact (Option.some.inj same).symm
  have rest : state.dirtyPubkeys.drop snapshot.pubkeys.length = later := by
    rw [← buffers]
    exact List.drop_left
  have unfold_ : ({ state with disk := state.disk.write snapshot }.flushComplete snapshot :
      GraphStorage Value) = { state with
        disk := state.disk.write snapshot
        dirtyPubkeys := later
        dirtyFollows := snapshot.follows.foldl dropWritten state.dirtyFollows
        flushes := state.flushes.tail
        writing := false
        flushed := some true } := by
    unfold flushComplete finishFlush
    rw [rest]
  rw [unfold_]
  refine ⟨fun id pubkey => ?_, fun id row held => ?_, fun id absent => ?_⟩
  · dsimp only [Disk.write]
    rw [covers.kept, ← buffers, List.mem_append]
    by_cases written : ∃ other, (id, other) ∈ snapshot.pubkeys
    · obtain ⟨other, member⟩ := written
      rw [put id other member]
      refine ⟨fun found => ?_, fun found => ?_⟩
      · have held : state.graph.idToPubkey.get id = some pubkey := by
          rw [covers.kept, ← buffers, List.mem_append]
          exact found
        rw [named id other member] at held
        exact .inl held
      · rcases found with same | waits
        · exact .inr (.inl (Option.some.inj same ▸ member))
        · exact .inr (.inr waits)
    · have absent : ∀ other, (id, other) ∉ snapshot.pubkeys := not_exists.mp written
      rw [OrderedMap.get_setAll_of_not_mem absent]
      simp [absent pubkey]
  · dsimp only at held
    by_cases done : ∃ old, (id, old) ∈ snapshot.follows ∧ state.dirtyFollows.get id = some old
    · rw [get_dropAll.1 done] at held
      contradiction
    · rw [get_dropAll.2 fun old member same => done ⟨old, member, same⟩] at held
      exact covers.dirty id row held
  · dsimp only at absent
    unfold Clean
    dsimp only [Disk.write]
    by_cases done : ∃ old, (id, old) ∈ snapshot.follows ∧ state.dirtyFollows.get id = some old
    · obtain ⟨old, member, held⟩ := done
      obtain ⟨_, stored, now, written, decoded, current, again⟩ := flight.row id old member
      rw [held] at current
      cases current
      obtain ⟨_, version⟩ := again rfl
      right
      refine ⟨stored, old.ids, ?_, decoded, (covers.dirty id old held).1, version.symm⟩
      exact OrderedMap.get_setAll_of_mem written (flight.only written)
    · rw [get_dropAll.2 fun old member same => done ⟨old, member, same⟩] at absent
      have unsaved : ∀ old, (id, old) ∉ snapshot.follows := by
        intro old member
        obtain ⟨_, _, now, _, _, current, _⟩ := flight.row id old member
        rw [absent] at current
        contradiction
      rw [OrderedMap.get_setAll_of_not_mem (flight.unwritten unsaved)]
      exact covers.clean id absent

/-! ## Reading it back -/

structure Readable (disk : Disk Value) : Prop where
  distinct : ∀ first second pubkey, disk.pubkeys.get first = some pubkey →
    disk.pubkeys.get second = some pubkey → first = second
  decodes : ∀ id stored, disk.follows.get id = some stored → ∃ ids, stored.data.decode = some ids

theorem Covers.readable (covers : Covers state) (interned : Interned state.graph)
    (empty : state.buffersEmpty) : Readable state.disk := by
  obtain ⟨none, clean⟩ := empty
  refine ⟨fun first second pubkey one two => ?_, fun id stored held => ?_⟩
  · have one := (interned.inverse pubkey first).mpr ((covers.kept first pubkey).mpr (.inl one))
    have two := (interned.inverse pubkey second).mpr ((covers.kept second pubkey).mpr (.inl two))
    rw [one] at two
    exact Option.some.inj two
  · rcases covers.clean id (by rw [clean]; rfl) with ⟨absent, _⟩ | ⟨other, ids, same, decoded, _⟩
    · rw [absent] at held
      contradiction
    · rw [same] at held
      cases held
      exact ⟨ids, decoded⟩

/-- Memory with nothing in it. -/
structure Vacant (graph : Graph Value) : Prop where
  ids : ∀ pubkey, graph.pubkeyToId.get pubkey = none
  pubkeys : ∀ id, graph.idToPubkey.get id = none
  rows : ∀ id, graph.graphCache.get id = none
  versions : ∀ id, graph.versions.get id = none

theorem loadPubkeys_eq {records : List (Nat × String)} : ∀ {graph : Graph Value},
    ∃ nextId, graph.loadPubkeys records = { graph with
      pubkeyToId := graph.pubkeyToId.setAll (records.map Prod.swap)
      idToPubkey := graph.idToPubkey.setAll records
      nextId := nextId } ∧
      graph.nextId ≤ nextId ∧ ∀ record ∈ records, record.1 < nextId := by
  induction records with
  | nil => exact fun {graph} => ⟨graph.nextId, rfl, Nat.le_refl _, fun _ absurd => (nomatch absurd)⟩
  | cons record rest ih =>
    intro graph
    obtain ⟨nextId, loaded, more, bound⟩ := @ih { graph with
      pubkeyToId := graph.pubkeyToId.set record.2 record.1
      idToPubkey := graph.idToPubkey.set record.1 record.2
      nextId := if graph.nextId ≤ record.1 then record.1 + 1 else graph.nextId }
    dsimp only at more
    refine ⟨nextId, loaded, ?_, fun other member => ?_⟩
    · split at more <;> omega
    · rcases List.mem_cons.mp member with same | later
      · subst same
        split at more <;> omega
      · exact bound other later

theorem loadFollows_eq {records : List (Nat × StoredRow)} : ∀ {graph : Graph Value},
    (records.map Prod.fst).Nodup →
    (∀ record ∈ records, graph.graphCache.get record.1 = none ∧
      graph.versions.get record.1 = none ∧ ∃ ids, record.2.data.decode = some ids) →
    Tallied graph →
    ∃ graphCache versions edges, graph.loadFollows records = ({ graph with
        graphCache := graphCache
        versions := versions
        edges := edges }, true) ∧
      Tallied { graph with graphCache := graphCache, versions := versions, edges := edges } ∧
      (∀ id stored, (id, stored) ∈ records → graphCache.get id = stored.data.decode ∧
        versions.get id = stored.version) ∧
      ∀ id, id ∉ records.map Prod.fst → graphCache.get id = graph.graphCache.get id ∧
        versions.get id = graph.versions.get id := by
  induction records with
  | nil =>
    intro graph _ _ tallied
    exact ⟨graph.graphCache, graph.versions, graph.edges, rfl, tallied,
      fun _ _ absurd => (nomatch absurd), fun _ _ => ⟨rfl, rfl⟩⟩
  | cons record rest ih =>
    intro graph once fresh tallied
    obtain ⟨id, stored⟩ := record
    obtain ⟨absent, once⟩ := List.nodup_cons.mp once
    obtain ⟨uncached, unversioned, ids, decoded⟩ := fresh (id, stored) List.mem_cons_self
    have differs : ∀ record ∈ rest, record.1 ≠ id := fun record member same =>
      absent (List.mem_map.mpr ⟨record, member, same⟩)
    -- The record is read, and then the others, none of which has its id.
    have version : ∃ versions, Graph.loadVersion graph.versions id stored.version = versions ∧
        versions.get id = stored.version ∧ ∀ other, other ≠ id → versions.get other = graph.versions.get other := by
      cases stored.version with
      | some version => exact ⟨_, rfl, OrderedMap.get_set_self _ _ _,
          fun other apart => (OrderedMap.get_set _ _ _ _).trans (if_neg apart)⟩
      | none => exact ⟨_, rfl, unversioned, fun _ _ => rfl⟩
    obtain ⟨versions, read, held, kept⟩ := version
    obtain ⟨graphCache, versions', edges, loaded, whole, all, others⟩ := @ih { graph with
      graphCache := graph.graphCache.set id ids
      edges := graph.edges + ids.length
      versions := versions } once
        (fun record member => by
          obtain ⟨first, second, third⟩ := fresh record (List.mem_cons_of_mem _ member)
          have apart := differs record member
          exact ⟨(OrderedMap.get_set _ _ _ _).trans ((if_neg apart).trans first),
            (kept _ apart).trans second, third⟩)
        (by
          unfold Tallied at tallied ⊢
          have more := @OrderedMap.weight_set_of_none _ _ _ (fun _ ids => List.length ids) _ _
            uncached ids
          dsimp only
          rw [more, tallied]
          simp)
    refine ⟨graphCache, versions', edges, ?_, whole, fun other row member => ?_,
      fun other outside => ?_⟩
    · unfold Graph.loadFollows
      dsimp only
      rw [decoded]
      dsimp only
      rw [read]
      exact loaded
    · rcases List.mem_cons.mp member with same | later
      · cases same
        obtain ⟨cached, version⟩ := others id absent
        refine ⟨?_, version.trans held⟩
        rw [cached, decoded]
        exact OrderedMap.get_set_self _ _ _
      · exact all other row later
    · rw [List.map_cons, List.mem_cons, not_or] at outside
      obtain ⟨cached, version⟩ := others other outside.2
      refine ⟨cached.trans ?_, version.trans (kept other outside.1)⟩
      exact (OrderedMap.get_set _ _ _ _).trans (if_neg outside.1)

/-- What is read of a disk into memory with nothing in it. -/
structure Loaded (disk : Disk Value) (graph : Graph Value) : Prop where
  interned : Interned graph
  tallied : Tallied graph
  kept : ∀ id pubkey, graph.idToPubkey.get id = some pubkey ↔ disk.pubkeys.get id = some pubkey
  clean : ∀ id, Clean disk graph id

theorem load_loaded {disk : Disk Value} {graph : Graph Value} (readable : Readable disk)
    (vacant : Vacant graph) (tallied : Tallied graph) :
    (graph.load disk).2 = true ∧ Loaded disk (graph.load disk).1 := by
  obtain ⟨nextId, first, _, bound⟩ := @loadPubkeys_eq _ disk.pubkeys.entries graph
  have pubkeys : ∀ id pubkey, (graph.idToPubkey.setAll disk.pubkeys.entries).get id = some pubkey ↔
      disk.pubkeys.get id = some pubkey := by
    intro id pubkey
    cases held : disk.pubkeys.get id with
    | none =>
      rw [OrderedMap.get_setAll_of_not_mem (OrderedMap.get_eq_none.mp held), vacant.pubkeys]
    | some other =>
      rw [OrderedMap.get_setAll_of_mem (OrderedMap.get_eq_some.mp held) fun also member => ?_]
      have same := OrderedMap.get_eq_some.mpr member
      rw [held] at same
      exact (Option.some.inj same).symm
  have ids : ∀ id pubkey,
      (graph.pubkeyToId.setAll (disk.pubkeys.entries.map Prod.swap)).get pubkey = some id ↔
        disk.pubkeys.get id = some pubkey := by
    intro id pubkey
    have swapped : ∀ other, (pubkey, other) ∈ disk.pubkeys.entries.map Prod.swap ↔
        disk.pubkeys.get other = some pubkey := by
      intro other
      rw [OrderedMap.get_eq_some, List.mem_map]
      constructor
      · intro found
        obtain ⟨record, member, same⟩ := found
        cases same
        exact member
      · exact fun member => ⟨_, member, rfl⟩
    by_cases named : ∃ other, disk.pubkeys.get other = some pubkey
    · obtain ⟨other, held⟩ := named
      rw [OrderedMap.get_setAll_of_mem ((swapped other).mpr held) fun also member =>
        readable.distinct _ _ pubkey ((swapped also).mp member) held]
      refine ⟨fun same => Option.some.inj same ▸ held, fun also => ?_⟩
      rw [readable.distinct _ _ pubkey held also]
    · rw [OrderedMap.get_setAll_of_not_mem fun other member =>
        named ⟨other, (swapped other).mp member⟩, vacant.ids]
      exact ⟨fun absurd => (nomatch absurd), fun held => absurd ⟨id, held⟩ named⟩
  obtain ⟨graphCache, versions, edges, second, whole, rows, others⟩ :=
    @loadFollows_eq _ disk.follows.entries (graph.loadPubkeys disk.pubkeys.entries)
      disk.follows.nodup
      (fun record member => by
        rw [first]
        exact ⟨vacant.rows _, vacant.versions _,
          readable.decodes record.1 record.2 (OrderedMap.get_eq_some.mpr member)⟩)
      (by
        rw [first]
        exact tallied)
  unfold Graph.load
  rw [second]
  dsimp only
  rw [if_pos rfl]
  rw [first] at whole others ⊢
  dsimp only at others
  refine ⟨rfl, ⟨⟨fun pubkey id => ?_, fun id pubkey held => ?_⟩, whole, fun id pubkey => ?_,
    fun id => ?_⟩⟩
  · exact (ids id pubkey).trans (pubkeys id pubkey).symm
  · exact bound (id, pubkey) (OrderedMap.get_eq_some.mp ((pubkeys id pubkey).mp held))
  · exact pubkeys id pubkey
  · cases held : disk.follows.get id with
    | none =>
      have outside : id ∉ disk.follows.entries.map Prod.fst := fun member => by
        have there := OrderedMap.mem_keys.mp member
        rw [held] at there
        contradiction
      obtain ⟨cached, version⟩ := others id outside
      exact .inl ⟨held, cached.trans (vacant.rows id), version.trans (vacant.versions id)⟩
    | some stored =>
      obtain ⟨ids, decoded⟩ := readable.decodes id stored held
      obtain ⟨cached, version⟩ := rows id stored (OrderedMap.get_eq_some.mp held)
      exact .inr ⟨stored, ids, held, decoded, cached.trans decoded, version⟩

/-! ## Runs -/

/-- The flushes that are written. -/
def snapshots (txs : List (Tx Value)) : List Snapshot := txs.filterMap Tx.snapshot?

/-- What a transaction must find to commit. -/
def Timely (state : GraphStorage Value) (rest : List (Tx Value)) : Tx Value → Prop
  | .clear => snapshots rest = []
  | .load => state.buffersEmpty
  | .flush _ | .setMeta _ => True

/-- Ids stay within 32 bits; buffered rows are flushed only while the storage is open and read, and
none are there when it is opened and read; what is cleared is open; and no flush is written behind
a clear. -/
def Orderly (state : GraphStorage Value) : Move Value → Prop
  | .saveFollows _ follows _ => state.graph.nextId + (1 + follows.eraseDups.length) ≤ 2 ^ 32
  | .startFlush => state.buffersEmpty ∨ (state.db = true ∧ state.hydrated = true)
  | .startClear _ => state.db = true ∨ state.hydrated = false
  | .connected succeeds => succeeds = true → state.buffersEmpty
  | .settle commits => commits = true → ∀ tx rest, state.txs = tx :: rest → Timely state rest tx
  | .getOrCreateId _ | .flush | .clear | .setMetaBatch _ | .close | .open => True

/-- A flush that is written holds all that is buffered, when it was called last. -/
def Whole (state : GraphStorage Value) (snapshot : Snapshot) : Prop :=
  state.saved = false → state.flushes.length = 1 →
    snapshot.pubkeys.length = state.dirtyPubkeys.length ∧
      ∀ id row, state.dirtyFollows.get id = some row → (id, row) ∈ snapshot.follows

structure Sound (state : GraphStorage Value) : Prop where
  interned : Interned state.graph
  tallied : Tallied state.graph
  stamped : Stamped state
  loads : state.txs.countP Tx.isLoad = if state.opening = some .loading then 1 else 0
  loading : state.opening = some .loading → state.hydrated = false
  flushes : state.writing = true → state.flushes ≠ []
  pending : (state.writing = false ∧ snapshots state.txs = []) ∨
    (state.writing = true ∧ state.hydrated = true ∧ ∃ snapshot, snapshots state.txs = [snapshot] ∧
      InFlight state snapshot ∧ Whole state snapshot)
  covers : state.hydrated = true → Covers state
  unread : state.hydrated = false → Readable state.disk ∧ (state.buffersEmpty → Vacant state.graph)
  quiet : state.saved = false → state.flushes = [] → state.flushed = some true → state.buffersEmpty

theorem snapshots_append (txs : List (Tx Value)) (tx : Tx Value) :
    snapshots (txs ++ [tx]) = snapshots txs ++ tx.snapshot?.toList := by
  unfold snapshots
  rw [List.filterMap_append]
  cases tx <;> rfl

theorem Saves.buffersEmpty (saves : Saves state next) (empty : next.buffersEmpty) :
    state.buffersEmpty := by
  obtain ⟨none, clean⟩ := empty
  obtain ⟨minted, dirty, _⟩ := saves.pubkeys
  rw [none] at dirty
  refine ⟨(List.append_eq_nil_iff.mp dirty.symm).1, OrderedMap.eq_empty_iff.mpr fun id => ?_⟩
  have absent := OrderedMap.eq_empty_iff.mp clean id
  rcases saves.row id with ⟨same, _⟩ | ⟨row, held, _⟩
  · rw [← same]
    exact absent
  · rw [held] at absent
    contradiction

theorem Sound.saves (sound : Sound state) (saves : Saves state next)
    (marked : next.saved = true) (interned : Interned next.graph) (tallied : Tallied next.graph)
    (named : ∃ id, next.graph.idToPubkey.get id = some pubkey) : Sound next := by
  obtain ⟨_, _, _, _, _, same⟩ := saves.frame
  have disk : next.disk = state.disk := by rw [same]
  have txs : next.txs = state.txs := by rw [same]
  have opening : next.opening = state.opening := by rw [same]
  have hydrated : next.hydrated = state.hydrated := by rw [same]
  have flushes : next.flushes = state.flushes := by rw [same]
  have writing : next.writing = state.writing := by rw [same]
  refine ⟨interned, tallied, sound.stamped.saves saves, ?_, ?_, ?_, ?_, ?_, ?_, ?_⟩
  · rw [txs, opening]
    exact sound.loads
  · rw [opening, hydrated]
    exact sound.loading
  · rw [writing, flushes]
    exact sound.flushes
  · rw [writing, txs, hydrated]
    refine sound.pending.imp id fun both => ?_
    obtain ⟨writes, read, snapshot, one, flight, _⟩ := both
    refine ⟨writes, read, snapshot, one, flight.saves saves, fun unsaved => ?_⟩
    rw [marked] at unsaved
    contradiction
  · rw [hydrated]
    exact fun read => (sound.covers read).saves saves
  · rw [hydrated, disk]
    intro unread
    obtain ⟨readable, vacant⟩ := sound.unread unread
    refine ⟨readable, fun empty => ?_⟩
    obtain ⟨id, held⟩ := named
    obtain ⟨minted, dirty, kept⟩ := saves.pubkeys
    rw [kept, (vacant (saves.buffersEmpty empty)).pubkeys] at held
    rw [empty.1] at dirty
    rw [(List.append_eq_nil_iff.mp dirty.symm).2] at held
    rcases held with absurd | absurd <;> contradiction
  · intro unsaved
    rw [marked] at unsaved
    contradiction

theorem Sound.finish (sound : Sound state) (idle : state.writing = false)
    (empty : state.buffersEmpty) : Sound (state.finishFlush true) := by
  have unwritten : snapshots state.txs = [] := by
    rcases sound.pending with ⟨_, none⟩ | ⟨writes, _⟩
    · exact none
    · rw [idle] at writes
      contradiction
  refine ⟨sound.interned, sound.tallied, sound.stamped, sound.loads, sound.loading,
    fun absurd => (nomatch absurd), .inl ⟨rfl, unwritten⟩, fun read => ?_, sound.unread,
    fun _ _ _ => empty⟩
  obtain ⟨kept, dirty, clean⟩ := sound.covers read
  exact ⟨kept, dirty, clean⟩

theorem Sound.flushPending (sound : Sound state) (called : state.flushes ≠ [])
    (idle : state.writing = false)
    (orderly : state.buffersEmpty ∨ (state.db = true ∧ state.hydrated = true)) :
    Sound state.flushPending := by
  by_cases empty : state.buffersEmpty
  · have done := sound.finish idle empty
    have same : state.flushPending = state.finishFlush true := by
      unfold GraphStorage.flushPending
      rw [if_pos empty]
      obtain ⟨none, clean⟩ := empty
      split
      · rw [← none, ← clean]
      · rfl
    rw [same]
    exact done
  · obtain ⟨open_, read⟩ := orderly.resolve_left empty
    obtain ⟨snapshot, same, flight, pubkeys, follows⟩ :=
      flushPending_writes (sound.covers read) sound.stamped open_ empty
    have unwritten : snapshots state.txs = [] := by
      rcases sound.pending with ⟨_, none⟩ | ⟨writes, _⟩
      · exact none
      · rw [idle] at writes
        contradiction
    rw [same]
    refine ⟨sound.interned, sound.tallied, sound.stamped, ?_, sound.loading, fun _ => called,
      .inr ⟨rfl, read, snapshot, ?_, ?_, fun _ _ => ⟨congrArg List.length pubkeys, fun id row held => ?_⟩⟩,
      fun read => ?_, sound.unread, fun _ none => absurd none called⟩
    · rw [List.countP_append]
      exact sound.loads
    · rw [snapshots_append, unwritten]
      rfl
    · exact ⟨flight.reports, flight.pubkeys, flight.nonempty, flight.keys, flight.once, flight.row⟩
    · rw [follows]
      exact OrderedMap.get_eq_some.mp held
    · obtain ⟨kept, dirty, clean⟩ := sound.covers read
      exact ⟨kept, dirty, clean⟩

theorem Sound.retx (sound : Sound state) {txs : List (Tx Value)}
    (same : snapshots txs = snapshots state.txs)
    (loads : txs.countP Tx.isLoad = state.txs.countP Tx.isLoad) :
    Sound { state with txs := txs } := by
  refine ⟨sound.interned, sound.tallied, sound.stamped, loads.trans sound.loads, sound.loading,
    sound.flushes, ?_, fun read => ?_, sound.unread, sound.quiet⟩
  · dsimp only
    rw [same]
    refine sound.pending.imp id fun both => ?_
    obtain ⟨writes, read, snapshot, one, flight, whole⟩ := both
    exact ⟨writes, read, snapshot, one, ⟨flight.reports, flight.pubkeys, flight.nonempty,
      flight.keys, flight.once, flight.row⟩, whole⟩
  · obtain ⟨kept, dirty, clean⟩ := sound.covers read
    exact ⟨kept, dirty, clean⟩

theorem vacant_blank : Vacant (Graph.blank : Graph Value) :=
  ⟨fun _ => rfl, fun _ => rfl, fun _ => rfl, fun _ => rfl⟩

theorem interned_blank : Interned (Graph.blank : Graph Value) :=
  ⟨fun _ _ => ⟨fun absurd => (nomatch absurd), fun absurd => (nomatch absurd)⟩,
    fun _ _ absurd => (nomatch absurd)⟩

theorem Sound.wipe (sound : Sound state) {disk : Disk Value} (unwritten : snapshots state.txs = [])
    (readable : Readable disk) (blank : state.hydrated = true → disk = Disk.blank) :
    Sound { state with disk := disk }.wipe := by
  have idle : state.writing = false := by
    rcases sound.pending with ⟨idle, _⟩ | ⟨_, _, snapshot, one, _⟩
    · exact idle
    · rw [unwritten] at one
      contradiction
  refine ⟨interned_blank, rfl, fun _ _ absurd => (nomatch absurd), sound.loads, sound.loading,
    sound.flushes, .inl ⟨idle, unwritten⟩, fun read => ?_, fun _ => ⟨readable, fun _ => vacant_blank⟩,
    fun _ _ _ => ⟨rfl, rfl⟩⟩
  rw [blank read]
  exact ⟨fun _ _ => ⟨fun absurd => (nomatch absurd), fun either => by
      rcases either with absurd | absurd <;> contradiction⟩,
    fun _ _ absurd => (nomatch absurd), fun _ _ => .inl ⟨rfl, rfl, rfl⟩⟩

theorem readable_blank : Readable (Disk.blank : Disk Value) :=
  ⟨fun _ _ _ absurd => (nomatch absurd), fun _ _ absurd => (nomatch absurd)⟩

theorem Sound.framed (sound : Sound state) {db opened : Bool} {opening : Option Opening}
    {clears : List Nat} {metaCache metaRows : OrderedMap String Value}
    (same : opening = state.opening ∨ (state.opening ≠ some .loading ∧ opening ≠ some .loading)) :
    Sound { state with
      db := db
      opened := opened
      opening := opening
      clears := clears
      graph := { state.graph with metaCache := metaCache }
      disk := { state.disk with metaRows := metaRows } } := by
  obtain ⟨inverse, minted⟩ := sound.interned
  have loading : opening = some .loading ↔ state.opening = some .loading := by
    rcases same with same | ⟨before, after⟩
    · rw [same]
    · exact iff_of_false after before
  refine ⟨⟨inverse, minted⟩, sound.tallied, sound.stamped, ?_, fun loads => ?_, sound.flushes, ?_,
    fun read => ?_, fun unread => ?_, sound.quiet⟩
  · dsimp only
    rw [sound.loads]
    by_cases loads : state.opening = some .loading
    · rw [if_pos loads, if_pos (loading.mpr loads)]
    · rw [if_neg loads, if_neg fun now => loads (loading.mp now)]
  · exact sound.loading (loading.mp loads)
  · refine sound.pending.imp id fun both => ?_
    obtain ⟨writes, read, snapshot, one, flight, whole⟩ := both
    exact ⟨writes, read, snapshot, one, ⟨flight.reports, flight.pubkeys, flight.nonempty,
      flight.keys, flight.once, flight.row⟩, whole⟩
  · obtain ⟨kept, dirty, clean⟩ := sound.covers read
    exact ⟨kept, dirty, clean⟩
  · obtain ⟨⟨distinct, decodes⟩, vacant⟩ := sound.unread unread
    refine ⟨⟨distinct, decodes⟩, fun empty => ?_⟩
    obtain ⟨ids, pubkeys, rows, versions⟩ := vacant empty
    exact ⟨ids, pubkeys, rows, versions⟩

variable {rest : List (Tx Value)}

theorem Sound.written (sound : Sound state) {snapshot : Snapshot}
    (first : state.txs = .flush snapshot :: rest) :
    state.writing = true ∧ state.hydrated = true ∧ snapshots rest = [] ∧
      InFlight state snapshot ∧ Whole state snapshot := by
  have found : snapshots state.txs = snapshot :: snapshots rest := by
    rw [first]
    rfl
  rcases sound.pending with ⟨_, none⟩ | ⟨writes, read, other, one, flight, whole⟩
  · rw [none] at found
    contradiction
  · rw [one] at found
    obtain ⟨same, none⟩ := List.cons.inj found
    subst same
    exact ⟨writes, read, none.symm, flight, whole⟩

theorem Sound.flushed (sound : Sound state) {snapshot : Snapshot}
    (first : state.txs = .flush snapshot :: rest) :
    Sound ({ state with
      txs := rest
      disk := state.disk.write snapshot }.flushComplete snapshot) := by
  obtain ⟨writes, read, none, flight, whole⟩ := sound.written first
  have covers := (sound.covers read).flushed flight
  have loads : rest.countP Tx.isLoad = state.txs.countP Tx.isLoad := by
    rw [first]
    rfl
  obtain ⟨kept, dirty, clean⟩ := covers
  refine ⟨sound.interned, sound.tallied, fun id row held => ?_, loads.trans sound.loads,
    sound.loading, fun absurd => (nomatch absurd), .inl ⟨rfl, none⟩, fun _ => ⟨kept, dirty, clean⟩,
    fun unread => ?_, fun unsaved last _ => ?_⟩
  · dsimp only [flushComplete, finishFlush] at held ⊢
    by_cases done : ∃ old, (id, old) ∈ snapshot.follows ∧ state.dirtyFollows.get id = some old
    · rw [get_dropAll.1 done] at held
      contradiction
    · rw [get_dropAll.2 fun old member same => done ⟨old, member, same⟩] at held
      exact sound.stamped id row held
  · have unread : state.hydrated = false := unread
    rw [read] at unread
    contradiction
  · have only : state.flushes.length = 1 := by
      have some_ := sound.flushes writes
      have tail : state.flushes.tail = [] := last
      cases all : state.flushes with
      | nil => exact absurd all some_
      | cons flush others =>
        rw [all] at tail
        rw [show others = [] from tail]
        rfl
    obtain ⟨pubkeys, rows⟩ := whole unsaved only
    refine ⟨?_, OrderedMap.eq_empty_iff.mpr fun id => ?_⟩
    · exact List.drop_of_length_le (Nat.le_of_eq pubkeys.symm)
    · show (snapshot.follows.foldl dropWritten state.dirtyFollows).get id = Option.none
      cases held : state.dirtyFollows.get id with
      | none =>
        rw [get_dropAll.2 fun _ _ absurd => by rw [held] at absurd; contradiction, held]
      | some row => exact get_dropAll.1 ⟨row, rows id row held, held⟩

theorem Sound.unflushed (sound : Sound state) {snapshot : Snapshot}
    (first : state.txs = .flush snapshot :: rest) :
    Sound ({ state with txs := rest }.finishFlush false) := by
  obtain ⟨_, read, none, _⟩ := sound.written first
  have loads : rest.countP Tx.isLoad = state.txs.countP Tx.isLoad := by
    rw [first]
    rfl
  obtain ⟨kept, dirty, clean⟩ := sound.covers read
  exact ⟨sound.interned, sound.tallied, sound.stamped, loads.trans sound.loads, sound.loading,
    fun absurd => (nomatch absurd), .inl ⟨rfl, none⟩, fun _ => ⟨kept, dirty, clean⟩, sound.unread,
    fun _ _ absurd => (nomatch absurd)⟩

theorem Sound.unloaded (sound : Sound state) (first : state.txs = .load :: rest) :
    state.hydrated = false ∧ state.writing = false ∧ snapshots rest = [] ∧
      rest.countP Tx.isLoad = 0 := by
  have loads := sound.loads
  rw [first, List.countP_cons] at loads
  have loading : state.opening = some .loading := by
    by_contra not
    rw [if_neg not] at loads
    exact absurd loads (by simp [Tx.isLoad])
  have unread := sound.loading loading
  rw [if_pos loading] at loads
  have zero : rest.countP Tx.isLoad = 0 := by
    simpa [Tx.isLoad] using loads
  rcases sound.pending with ⟨idle, none⟩ | ⟨_, read, _⟩
  · rw [first] at none
    exact ⟨unread, idle, none, zero⟩
  · rw [unread] at read
    contradiction

theorem Sound.load (sound : Sound state) (first : state.txs = .load :: rest)
    (empty : state.buffersEmpty) :
    (state.graph.load state.disk).2 = true ∧
      Sound { state with
        txs := rest
        graph := (state.graph.load state.disk).1
        opened := true
        opening := none
        hydrated := true } := by
  obtain ⟨unread, idle, none, zero⟩ := sound.unloaded first
  obtain ⟨readable, vacant⟩ := sound.unread unread
  obtain ⟨whole, loaded⟩ := load_loaded readable (vacant empty) sound.tallied
  obtain ⟨undirty, clean⟩ := empty
  refine ⟨whole, ⟨loaded.interned, loaded.tallied, sound.stamped, zero, fun absurd => (nomatch absurd),
    sound.flushes, .inl ⟨idle, none⟩, fun _ => ⟨fun id pubkey => ?_, fun id row held => ?_,
      fun id _ => loaded.clean id⟩, fun absurd => (nomatch absurd), sound.quiet⟩⟩
  · dsimp only
    rw [loaded.kept, undirty]
    simp
  · dsimp only at held
    rw [clean] at held
    contradiction

theorem Sound.unload (sound : Sound state) (first : state.txs = .load :: rest) :
    Sound { state with txs := rest, opening := none } := by
  obtain ⟨unread, idle, none, zero⟩ := sound.unloaded first
  refine ⟨sound.interned, sound.tallied, sound.stamped, zero, fun absurd => (nomatch absurd),
    sound.flushes, .inl ⟨idle, none⟩, fun read => ?_, sound.unread, sound.quiet⟩
  have read : state.hydrated = true := read
  rw [unread] at read
  contradiction

theorem sound_settle (sound : Sound state) {tx : Tx Value} {commits : Bool}
    (first : state.txs = tx :: rest) (timely : commits = true → Timely state rest tx)
    (moved : (if commits then { state with txs := rest }.commit tx
      else some ({ state with txs := rest }.abort tx)) = some next) : Sound next := by
  have plain : snapshots [tx] = [] → [tx].countP Tx.isLoad = 0 → Sound { state with txs := rest } := by
    intro silent unread
    refine sound.retx ?_ ?_
    · have parts : snapshots state.txs = snapshots [tx] ++ snapshots rest := by
        rw [first]
        exact @List.filterMap_append _ _ [tx] rest _
      rw [parts, silent, List.nil_append]
    · have parts : state.txs.countP Tx.isLoad = [tx].countP Tx.isLoad + rest.countP Tx.isLoad := by
        rw [first]
        exact @List.countP_append _ _ [tx] rest
      rw [parts, unread, Nat.zero_add]
  cases commits with
  | false =>
    rw [if_neg Bool.false_ne_true] at moved
    cases moved
    cases tx with
    | flush snapshot =>
      obtain ⟨_, _, _, flight, _⟩ := sound.written first
      unfold abort
      dsimp only
      rw [if_pos flight.reports]
      exact sound.unflushed first
    | clear => exact plain rfl rfl
    | setMeta values => exact plain rfl rfl
    | load => exact sound.unload first
  | true =>
    rw [if_pos rfl] at moved
    have timely := timely rfl
    cases tx with
    | flush snapshot =>
      obtain ⟨_, _, _, flight, _⟩ := sound.written first
      unfold commit at moved
      dsimp only at moved
      split at moved
      · rw [if_pos flight.reports] at moved
        cases moved
        exact sound.flushed first
      · contradiction
    | clear =>
      cases moved
      have unwritten : snapshots rest = [] := timely
      exact (plain rfl rfl).wipe unwritten readable_blank fun _ => rfl
    | setMeta values =>
      cases moved
      exact (plain rfl rfl).framed (.inl rfl)
    | load =>
      obtain ⟨whole, loaded⟩ := sound.load first timely
      unfold commit at moved
      dsimp only at moved
      rw [if_pos whole] at moved
      cases moved
      exact loaded

theorem Sound.connect (sound : Sound state) (connecting : state.opening = some .connecting)
    (empty : state.buffersEmpty) :
    Sound { state with
      db := true
      graph := Graph.blank
      opening := some .loading
      txs := state.txs ++ [Tx.load]
      hydrated := false } := by
  have readable : Readable state.disk := by
    cases read : state.hydrated with
    | true => exact (sound.covers read).readable sound.interned empty
    | false => exact (sound.unread read).1
  have idle : state.writing = false ∧ snapshots state.txs = [] := by
    rcases sound.pending with none | ⟨_, _, snapshot, _, flight, _⟩
    · exact none
    · obtain ⟨undirty, clean⟩ := empty
      rcases flight.nonempty with some_ | some_
      · have begun := flight.pubkeys
        rw [undirty] at begun
        exact absurd (List.prefix_nil.mp begun) some_
      · obtain ⟨record, member⟩ := List.exists_mem_of_ne_nil _ some_
        obtain ⟨_, _, now, _, _, held, _⟩ := flight.row record.1 record.2 member
        rw [clean] at held
        contradiction
  have loads := sound.loads
  rw [connecting, if_neg (by decide)] at loads
  refine ⟨interned_blank, rfl, sound.stamped, ?_, fun _ => rfl, sound.flushes, .inl ⟨idle.1, ?_⟩,
    fun absurd => (nomatch absurd), fun _ => ⟨readable, fun _ => vacant_blank⟩, sound.quiet⟩
  · dsimp only
    rw [List.countP_append, loads]
    rfl
  · dsimp only
    rw [snapshots_append, idle.2]
    rfl

theorem sound_step (sound : Sound state) {move : Move Value} (orderly : Orderly state move)
    (moved : step state move = some next) : Sound next := by
  cases move with
  | getOrCreateId pubkey =>
    cases moved
    obtain ⟨mints, named⟩ := getOrCreateId_mints sound.interned pubkey
    exact sound.saves mints.saves.marked rfl mints.interned (mints.tallied sound.tallied)
      ⟨_, (mints.interned.inverse _ _).mp named⟩
  | saveFollows pubkey follows version =>
    cases moved
    obtain ⟨saves, interned, tallied, named⟩ :=
      saveFollows_saves sound.interned sound.tallied orderly pubkey version
    exact sound.saves saves.marked rfl interned tallied named
  | flush =>
    cases moved
    refine ⟨sound.interned, sound.tallied, sound.stamped, sound.loads, sound.loading,
      fun _ => by simp, ?_, fun read => ?_, sound.unread, fun _ none => by simp at none⟩
    · refine sound.pending.imp id fun both => ?_
      obtain ⟨writes, read, snapshot, one, flight, _⟩ := both
      refine ⟨writes, read, snapshot, one, ⟨flight.reports, flight.pubkeys, flight.nonempty,
        flight.keys, flight.once, flight.row⟩, fun _ only => ?_⟩
      have busy := List.length_pos_of_ne_nil (sound.flushes writes)
      have longer := only
      simp only [List.length_append, List.length_singleton] at longer
      omega
    · obtain ⟨kept, dirty, clean⟩ := sound.covers read
      exact ⟨kept, dirty, clean⟩
  | startFlush =>
    simp only [step] at moved
    split at moved
    · rename_i ready
      cases moved
      exact sound.flushPending ready.1 ready.2 orderly
    · contradiction
  | clear =>
    cases moved
    exact sound.framed (.inl rfl)
  | startClear index =>
    simp only [step] at moved
    split at moved
    · split at moved
      · have framed : Sound { state with clears := state.clears.eraseIdx index } :=
          sound.framed (.inl rfl)
        split at moved
        · cases moved
          refine framed.retx ?_ ?_
          · rw [snapshots_append]
            exact List.append_nil _
          · rw [List.countP_append]
            rfl
        · rename_i shut
          cases moved
          have unread := orderly.resolve_left shut
          have unwritten : snapshots state.txs = [] := by
            rcases sound.pending with ⟨_, none⟩ | ⟨_, read, _⟩
            · exact none
            · rw [unread] at read
              contradiction
          refine framed.wipe unwritten (sound.unread unread).1 fun read => ?_
          have read : state.hydrated = true := read
          rw [unread] at read
          contradiction
      · contradiction
    · contradiction
  | setMetaBatch values =>
    simp only [step] at moved
    split at moved
    · cases moved
      refine sound.retx ?_ ?_
      · rw [snapshots_append]
        exact List.append_nil _
      · rw [List.countP_append]
        rfl
    · cases moved
      exact sound.framed (.inl rfl)
  | close =>
    cases moved
    exact sound.framed (.inl rfl)
  | «open» =>
    simp only [step] at moved
    split at moved
    · cases moved
      exact sound
    · rename_i shut
      cases moved
      refine sound.framed (.inr ⟨fun loads => shut ?_, by decide⟩)
      rw [loads]
      rfl
  | connected succeeds =>
    simp only [step] at moved
    split at moved
    · rename_i connecting
      cases succeeds with
      | true =>
        rw [if_pos rfl] at moved
        cases moved
        exact sound.connect connecting (orderly rfl)
      | false =>
        rw [if_neg Bool.false_ne_true] at moved
        cases moved
        refine sound.framed (.inr ⟨?_, by decide⟩)
        rw [connecting]
        decide
    · contradiction
  | settle commits =>
    simp only [step] at moved
    split at moved
    · contradiction
    · rename_i tx rest first
      exact sound_settle sound first (fun commits => orderly commits tx rest first) moved

theorem sound_begun {disk : Disk Value} (readable : Readable disk) : Sound (begun disk) :=
  ⟨interned_blank, rfl, fun _ _ absurd => (nomatch absurd), rfl, fun absurd => (nomatch absurd),
    fun absurd => (nomatch absurd), .inl ⟨rfl, rfl⟩, fun absurd => (nomatch absurd),
    fun _ => ⟨readable, fun _ => vacant_blank⟩, fun _ _ absurd => (nomatch absurd)⟩

/-- A fresh open reads what is in memory. -/
structure Hydrates (disk : Disk Value) (graph : Graph Value) : Prop where
  reads : (Graph.blank.load disk).2 = true
  pubkeyToId : ∀ pubkey,
    (Graph.blank.load disk).1.pubkeyToId.get pubkey = graph.pubkeyToId.get pubkey
  idToPubkey : ∀ id, (Graph.blank.load disk).1.idToPubkey.get id = graph.idToPubkey.get id
  follows : ∀ id, (Graph.blank.load disk).1.graphCache.get id = graph.graphCache.get id
  versions : ∀ id, (Graph.blank.load disk).1.versions.get id = graph.versions.get id

theorem Clean.agree {disk : Disk Value} {left right : Graph Value} (first : Clean disk left id)
    (second : Clean disk right id) :
    left.graphCache.get id = right.graphCache.get id ∧
      left.versions.get id = right.versions.get id := by
  rcases first with ⟨none, cached, version⟩ | ⟨stored, ids, held, decoded, cached, version⟩
  · rcases second with ⟨_, cached', version'⟩ | ⟨_, _, held, _⟩
    · exact ⟨cached.trans cached'.symm, version.trans version'.symm⟩
    · rw [none] at held
      contradiction
  · rcases second with ⟨none, _⟩ | ⟨stored', ids', held', decoded', cached', version'⟩
    · rw [none] at held
      contradiction
    · rw [held] at held'
      cases held'
      rw [decoded] at decoded'
      cases decoded'
      exact ⟨cached.trans cached'.symm, version.trans version'.symm⟩

theorem Covers.hydrates (covers : Covers state) (interned : Interned state.graph)
    (empty : state.buffersEmpty) : Hydrates state.disk state.graph := by
  obtain ⟨reads, loaded⟩ := load_loaded (covers.readable interned empty) vacant_blank rfl
  obtain ⟨undirty, clean⟩ := empty
  have kept : ∀ id pubkey, (Graph.blank.load state.disk).1.idToPubkey.get id = some pubkey ↔
      state.graph.idToPubkey.get id = some pubkey := by
    intro id pubkey
    rw [loaded.kept, covers.kept, undirty]
    simp
  refine ⟨reads, fun pubkey => ?_, fun id => ?_, fun id => ?_, fun id => ?_⟩
  · ext id
    rw [loaded.interned.inverse, kept, interned.inverse]
  · ext pubkey
    exact kept id pubkey
  all_goals
    have same := (loaded.clean id).agree (covers.clean id (by rw [clean]; rfl))
  · exact same.1
  · exact same.2

/-- No operation is in progress. -/
structure AtRest (state : GraphStorage Value) : Prop where
  flushes : state.flushes = []
  clears : state.clears = []
  txs : state.txs = []
  opening : state.opening = none

/-- Interning is a bijection, the edges are counted, what memory holds is on the disk or buffered,
also after a flush that fails, and once all of it is flushed a fresh open reads it. -/
theorem storage_is_faithful {disk : Disk Value} (readable : Readable disk)
    (reaches : Reaches step Orderly (begun disk) state) :
    (∀ pubkey id, state.graph.pubkeyToId.get pubkey = some id ↔
      state.graph.idToPubkey.get id = some pubkey) ∧
    Tallied state.graph ∧
    (state.hydrated = true → Covers state) ∧
    (∀ snapshot rest next, state.txs = .flush snapshot :: rest →
      step state (.settle false) = some next →
        next.graph = state.graph ∧ next.dirtyPubkeys = state.dirtyPubkeys ∧
          next.dirtyFollows = state.dirtyFollows) ∧
    (AtRest state → state.hydrated = true → state.flushed = some true → state.saved = false →
      Hydrates state.disk state.graph) := by
  have sound : Sound state :=
    reaches.invariant (sound_begun readable) fun _ _ _ sound orderly moved =>
      sound_step sound orderly moved
  refine ⟨sound.interned.inverse, sound.tallied, sound.covers, fun snapshot rest next first moved => ?_,
    fun rests read succeeded unsaved => ?_⟩
  · obtain ⟨_, _, _, flight, _⟩ := sound.written first
    simp only [step, first] at moved
    cases moved
    unfold abort
    dsimp only
    rw [if_pos flight.reports]
    exact ⟨rfl, rfl, rfl⟩
  · exact (sound.covers read).hydrates sound.interned (sound.quiet unsaved rests.flushes succeeded)

/-- A follow list that is saved and flushed. -/
theorem storage_is_faithful_flushed :
    ∃ state, exec step (begun (Disk.blank : Disk Nat))
        [.open, .connected true, .settle true, .saveFollows "a" ["b"] none, .flush, .startFlush,
          .settle true] = some state ∧ Hydrates state.disk state.graph := by
  have executed : ∃ state, exec step (begun (Disk.blank : Disk Nat))
      [.open, .connected true, .settle true, .saveFollows "a" ["b"] none, .flush, .startFlush,
        .settle true] = some state ∧ AtRest state ∧ state.hydrated = true ∧
      state.flushed = some true ∧ state.saved = false := by
    refine ⟨_, rfl, ⟨?_, ?_, ?_, ?_⟩, ?_, ?_, ?_⟩ <;> decide
  obtain ⟨state, executed, rests, read, succeeded, unsaved⟩ := executed
  have reaches : Reaches step Orderly (begun (Disk.blank : Disk Nat)) state := by
    refine .of_permitted executed ⟨trivial, fun _ first => ?_⟩
    cases first
    refine ⟨fun _ => ⟨rfl, rfl⟩, fun _ second => ?_⟩
    cases second
    refine ⟨fun _ tx rest same => ?_, fun _ third => ?_⟩
    · cases same
      exact ⟨rfl, rfl⟩
    cases third
    have fits : 1 + (1 + ["b"].eraseDups.length) ≤ 2 ^ 32 := by decide
    refine ⟨fits, fun _ fourth => ?_⟩
    cases fourth
    refine ⟨trivial, fun _ fifth => ?_⟩
    cases fifth
    refine ⟨.inr ⟨rfl, rfl⟩, fun _ sixth => ?_⟩
    cases sixth
    refine ⟨fun _ tx rest same => ?_, fun _ _ => trivial⟩
    cases same
    trivial
  exact ⟨state, executed,
    (storage_is_faithful readable_blank reaches).2.2.2.2 rests read succeeded unsaved⟩

def interrupted : List (Move Nat) :=
  [.open, .connected true, .settle true, .saveFollows "a" ["b"] none, .clear, .startClear 0, .flush,
    .startFlush, .settle true, .settle true]

/-- The flush writes rows of ids that memory does not know any more. -/
theorem late_flush_outlives_clear :
    ∃ state, exec step (begun Disk.blank) interrupted = some state ∧ AtRest state ∧
      state.hydrated = true ∧ state.flushed = some true ∧ state.saved = false ∧
      state.graph.idToPubkey.get 1 = none ∧
      (Graph.blank.load state.disk).1.idToPubkey.get 1 = some "a" ∧
      (Graph.blank.load state.disk).1.graphCache.get 1 = some [2] := by
  refine ⟨_, rfl, ⟨?_, ?_, ?_, ?_⟩, ?_, ?_, ?_, ?_, ?_, ?_⟩ <;> decide

end GraphStorage

end NostrWot.Wot
