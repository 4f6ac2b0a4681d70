import NostrWot.Relay.Merging
import NostrWot.Sync.Run

namespace NostrWot.Relay

open NostrWot.Data NostrWot.Sync

/-! # The query batcher

Queries are gathered until a timer fires, and those on the same relays are executed as one group.
Calls and groups are numbered in the order they are made.
-/

structure Network where
  relay : String → RelayStore
  identified : ∀ url other, ∀ event ∈ (relay url).events, ∀ copy ∈ (relay other).events,
    event.id = copy.id → event = copy

def Network.Answers (network : Network) (urls : List String) (filter : NostrFilter)
    (event : NostrEvent) : Prop :=
  ∃ url ∈ urls, event ∈ (network.relay url).answer filter

instance (network : Network) (urls : List String) (filter : NostrFilter) (event : NostrEvent) :
    Decidable (network.Answers urls filter event) :=
  inferInstanceAs (Decidable (∃ url ∈ urls, event ∈ (network.relay url).answer filter))

structure Query where
  urls : List String
  filter : NostrFilter
  deriving DecidableEq

structure PendingQuery where
  urls : List String
  filter : NostrFilter
  dedupKey : List Char
  callbacks : List Nat
  /-- The calls whose `onUpdate` it calls, in turn. -/
  onUpdate : List Nat

/-- A run of `_progressiveQuery`. -/
structure ProgressiveQuery where
  urls : List String
  filter : NostrFilter
  originalIndices : List Nat
  needsUpdate : Bool
  events : List NostrEvent
  resolved : Option (List NostrEvent)
  firstEventTimer : Bool
  collectionTimer : Bool
  closed : Bool
  complete : Bool

structure Group where
  queries : List PendingQuery
  subs : List ProgressiveQuery
  settled : Bool

structure Outcome where
  call : Nat
  events : List NostrEvent
  /-- Whether what its query is a part of was resolved by `onclose`. -/
  complete : Bool

structure QueryBatcher where
  pending : List PendingQuery
  timer : Bool
  groups : OrderedMap Nat Group
  executed : Nat
  calls : List Query
  outcomes : List Outcome
  /-- The calls of every `onUpdate`. -/
  updates : List (Nat × List NostrEvent)

namespace ProgressiveQuery

def start (urls : List String) (filter : NostrFilter) (originalIndices : List Nat)
    (needsUpdate : Bool) : ProgressiveQuery :=
  ⟨urls, filter, originalIndices, needsUpdate, [], none, true, false, false, false⟩

def doResolve (sub : ProgressiveQuery) : ProgressiveQuery :=
  if sub.resolved.isSome then sub
  else
    { sub with
      resolved := some sub.events
      firstEventTimer := false
      collectionTimer := false }

def onevent (sub : ProgressiveQuery) (event : NostrEvent) : ProgressiveQuery :=
  let first := sub.events.isEmpty && sub.resolved.isNone
  { sub with
    events := sub.events ++ [event]
    firstEventTimer := sub.firstEventTimer && !first
    collectionTimer := sub.collectionTimer || first }

def onclose (sub : ProgressiveQuery) : ProgressiveQuery :=
  { sub.doResolve with
    firstEventTimer := false
    collectionTimer := false
    closed := true
    complete := sub.complete || sub.resolved.isNone }

end ProgressiveQuery

def dedupFrom (seen : List String) : List NostrEvent → List NostrEvent
  | [] => []
  | event :: rest =>
    if event.id ∈ seen then dedupFrom seen rest else event :: dedupFrom (event.id :: seen) rest

def dedup (events : List NostrEvent) : List NostrEvent := dedupFrom [] events

namespace Group

/-- What `_executeGroup` starts. -/
def start (queries : List PendingQuery) : Group :=
  let urls := (queries.head?.map PendingQuery.urls).getD []
  if queries.length = 1 then
    ⟨queries, queries.map fun q => .start urls q.filter [0] (!q.onUpdate.isEmpty), false⟩
  else
    let hasAnyOnUpdate := queries.any fun q => !q.onUpdate.isEmpty
    let parts := (mergeFilters (queries.map PendingQuery.filter)).map fun merged =>
      ProgressiveQuery.start urls merged.filter merged.originalIndices (hasAnyOnUpdate &&
        merged.originalIndices.any fun qi => queries[qi]?.any fun q => !q.onUpdate.isEmpty)
    ⟨queries, parts, false⟩

def withSub (group : Group) (place : Nat) (sub : ProgressiveQuery) : Group :=
  { group with subs := group.subs.set place sub }

def matching (group : Group) (q : PendingQuery) (events : List NostrEvent) : List NostrEvent :=
  if group.queries.length = 1 then events else events.filter (eventMatchesFilter · q.filter)

def allEvents (group : Group) : List NostrEvent := group.subs.flatMap fun sub => sub.resolved.getD []

def result (group : Group) (q : PendingQuery) : List NostrEvent :=
  if group.queries.length = 1 then group.allEvents
  else dedup (group.matching q group.allEvents)

def complete (group : Group) (index : Nat) : Bool :=
  group.subs.all fun sub => index ∉ sub.originalIndices || sub.complete

def outcomes (group : Group) : List Outcome :=
  group.queries.zipIdx.flatMap fun entry =>
    entry.1.callbacks.map fun call => ⟨call, group.result entry.1, group.complete entry.2⟩

def updates (group : Group) (sub : ProgressiveQuery) : List (Nat × List NostrEvent) :=
  if sub.events.isEmpty || !sub.needsUpdate then []
  else sub.originalIndices.flatMap fun qi => (group.queries[qi]?).toList.flatMap fun q =>
    q.onUpdate.map fun call => (call, dedup (group.matching q sub.events))

end Group

namespace QueryBatcher

def fresh : QueryBatcher := ⟨[], false, ∅, 0, [], [], []⟩

def put (batcher : QueryBatcher) (number : Nat) (group : Group) : QueryBatcher :=
  if group.settled = false ∧ ∀ sub ∈ group.subs, sub.resolved.isSome = true then
    { batcher with
      groups := batcher.groups.set number { group with settled := true }
      outcomes := batcher.outcomes ++ group.outcomes }
  else { batcher with groups := batcher.groups.set number group }

def executeGroup (batcher : QueryBatcher) (queries : List PendingQuery) : QueryBatcher :=
  { batcher with executed := batcher.executed + 1 }.put batcher.executed (.start queries)

def addToGroup (groups : OrderedMap (List Char) (List PendingQuery)) (q : PendingQuery) :
    OrderedMap (List Char) (List PendingQuery) :=
  let key := sortedJoin q.urls
  groups.set key ((groups.get key).getD [] ++ [q])

def groupByRelays (batch : List PendingQuery) : OrderedMap (List Char) (List PendingQuery) :=
  batch.foldl addToGroup ∅

def flush (batcher : QueryBatcher) : QueryBatcher :=
  (groupByRelays batcher.pending).values.foldl executeGroup
    { batcher with
      pending := []
      timer := false }

def enqueue (query : Query) (key : List Char) (call : Nat) (onUpdate : Bool) :
    List PendingQuery → List PendingQuery
  | [] => [⟨query.urls, query.filter, key, [call], if onUpdate then [call] else []⟩]
  | q :: rest =>
    if q.dedupKey = key then
      { q with
        callbacks := q.callbacks ++ [call]
        onUpdate := if onUpdate then q.onUpdate ++ [call] else q.onUpdate } :: rest
    else q :: enqueue query key call onUpdate rest

variable (numbers : Json.NumberText)

def ask (batcher : QueryBatcher) (query : Query) (onUpdate : Bool) : QueryBatcher :=
  { batcher with
    pending := enqueue query (dedupKey numbers query.urls query.filter) batcher.calls.length
      onUpdate batcher.pending
    calls := batcher.calls ++ [query] }

def query (batcher : QueryBatcher) (query : Query) (onUpdate : Bool) : QueryBatcher :=
  { batcher.ask numbers query onUpdate with timer := true }

def queryImmediate (batcher : QueryBatcher) (query : Query) (onUpdate : Bool) : QueryBatcher :=
  (batcher.ask numbers query onUpdate).flush

def part (batcher : QueryBatcher) (number place : Nat) : Option (Group × ProgressiveQuery) :=
  (batcher.groups.get number).bind fun group => group.subs[place]?.map fun sub => (group, sub)

inductive Move where
  | query (query : Query) (onUpdate : Bool)
  | queryImmediate (query : Query) (onUpdate : Bool)
  | debounced
  | event (number place : Nat) (event : NostrEvent)
  | firstEventTimeout (number place : Nat)
  | collected (number place : Nat)
  | close (number place : Nat)

/-- The pool tells a part only of events that its relays answer with, and closes it when it has
told all of them. -/
def step (network : Network) (batcher : QueryBatcher) : Move → Option QueryBatcher
  | .query query onUpdate => some (batcher.query numbers query onUpdate)
  | .queryImmediate query onUpdate => some (batcher.queryImmediate numbers query onUpdate)
  | .debounced => if batcher.timer then some batcher.flush else none
  | .event number place event =>
    (batcher.part number place).bind fun part =>
      if part.2.closed = false ∧ network.Answers part.2.urls part.2.filter event then
        some (batcher.put number (part.1.withSub place (part.2.onevent event)))
      else none
  | .firstEventTimeout number place =>
    (batcher.part number place).bind fun part =>
      if part.2.firstEventTimer then
        some (batcher.put number (part.1.withSub place part.2.doResolve))
      else none
  | .collected number place =>
    (batcher.part number place).bind fun part =>
      if part.2.collectionTimer then
        some (batcher.put number (part.1.withSub place part.2.doResolve))
      else none
  | .close number place =>
    (batcher.part number place).bind fun part =>
      if part.2.closed = false ∧ ∀ url ∈ part.2.urls,
          ∀ event ∈ (network.relay url).answer part.2.filter, event ∈ part.2.events then
        some ({ batcher with updates := batcher.updates ++ part.1.updates part.2 }.put number
          (part.1.withSub place part.2.onclose))
      else none

end QueryBatcher

/-! ## Deduplication -/

variable {seen : List String}

theorem dedupFrom_subset {events : List NostrEvent} :
    dedupFrom seen events ⊆ events := by
  induction events generalizing seen with
  | nil => exact List.Subset.refl _
  | cons event rest ih =>
    unfold dedupFrom
    split
    · exact fun later member => List.mem_cons_of_mem _ (ih member)
    · exact List.cons_subset_cons _ ih

theorem dedupFrom_ids {events : List NostrEvent} :
    ((dedupFrom seen events).map NostrEvent.id).Nodup ∧
      ∀ event ∈ dedupFrom seen events, event.id ∉ seen := by
  induction events generalizing seen with
  | nil => exact ⟨List.nodup_nil, fun _ absurd => (nomatch absurd)⟩
  | cons event rest ih =>
    unfold dedupFrom
    split
    · exact ih
    · rename_i unseen
      obtain ⟨nodup, apart⟩ := @ih (event.id :: seen)
      refine ⟨List.nodup_cons.mpr ⟨fun again => ?_, nodup⟩, fun later member => ?_⟩
      · obtain ⟨copy, member, same⟩ := List.mem_map.mp again
        exact apart copy member (same ▸ List.mem_cons_self)
      · rcases List.mem_cons.mp member with here | after
        · exact here ▸ unseen
        · exact fun known => apart later after (List.mem_cons_of_mem _ known)

theorem dedupFrom_holds {events : List NostrEvent} {event : NostrEvent} (member : event ∈ events)
    (unseen : event.id ∉ seen) :
    ∃ copy ∈ dedupFrom seen events, copy.id = event.id := by
  induction events generalizing seen with
  | nil => contradiction
  | cons first rest ih =>
    unfold dedupFrom
    split
    · rename_i known
      rcases List.mem_cons.mp member with here | later
      · exact absurd (here ▸ known) unseen
      · exact ih later unseen
    · by_cases same : first.id = event.id
      · exact ⟨first, List.mem_cons_self, same⟩
      · rcases List.mem_cons.mp member with here | later
        · exact absurd (here ▸ rfl) same
        · obtain ⟨copy, held, equal⟩ := ih later fun known => by
            rcases List.mem_cons.mp known with first | before
            · exact same first.symm
            · exact unseen before
          exact ⟨copy, List.mem_cons_of_mem _ held, equal⟩

/-! ## What a query alone would return -/

variable {network : Network} {numbers : Json.NumberText}

theorem Network.Answers.stored {urls : List String} {filter : NostrFilter} {event : NostrEvent}
    (answers : network.Answers urls filter event) :
    ∃ url, event ∈ (network.relay url).events ∧
      matchFilter (network.relay url).found filter event = true := by
  obtain ⟨url, _, answered⟩ := answers
  exact ⟨url, RelayStore.mem_answer answered⟩

theorem Network.Answers.identified {urls others : List String} {filter other : NostrFilter}
    {event copy : NostrEvent} (answers : network.Answers urls filter event)
    (answers' : network.Answers others other copy) (same : event.id = copy.id) : event = copy := by
  obtain ⟨url, stored, _⟩ := answers.stored
  obtain ⟨url', stored', _⟩ := answers'.stored
  exact network.identified url url' event stored copy stored' same

theorem Network.answers_congr {urls others : List String} {filter other : NostrFilter}
    (relays : ∀ url, url ∈ urls ↔ url ∈ others) (same : SameFilter filter other)
    (event : NostrEvent) : network.Answers urls filter event ↔ network.Answers others other event := by
  refine exists_congr fun url => and_congr (relays url) ?_
  rw [same.answer (network.relay url)]

def Exact (network : Network) (query : Query) (events : List NostrEvent) : Prop :=
  (events.map NostrEvent.id).Nodup ∧
    ∀ event, event ∈ events ↔ network.Answers query.urls query.filter event

theorem exact_of_nodup {query : Query} {events : List NostrEvent} (nodup : events.Nodup)
    (exact_ : ∀ event, event ∈ events ↔ network.Answers query.urls query.filter event) :
    Exact network query events := by
  refine ⟨List.Nodup.map_on (fun event member copy member' same => ?_) nodup, exact_⟩
  exact ((exact_ event).mp member).identified ((exact_ copy).mp member') same

theorem exact_dedup {query : Query} {events : List NostrEvent}
    (exact_ : ∀ event, event ∈ events ↔ network.Answers query.urls query.filter event) :
    Exact network query (dedup events) := by
  refine ⟨dedupFrom_ids.1, fun event => ⟨fun member => ?_, fun answers => ?_⟩⟩
  · exact (exact_ event).mp (dedupFrom_subset member)
  · obtain ⟨copy, held, same⟩ := dedupFrom_holds ((exact_ event).mpr answers) List.not_mem_nil
    have own := (exact_ copy).mp (dedupFrom_subset held)
    exact own.identified answers same ▸ held

/-! ## The parts of a group -/

def PendingQuery.Answered (network : Network) (q : PendingQuery) (event : NostrEvent) : Prop :=
  network.Answers q.urls q.filter event

/-- Whether what comes for a part can still reach a query. -/
def ProgressiveQuery.Listens (sub : ProgressiveQuery) (index : Nat) (q : PendingQuery) : Prop :=
  sub.resolved = none ∨ index ∈ sub.originalIndices ∧ q.onUpdate ≠ []

def Passes (network : Network) (q : PendingQuery) (event : NostrEvent) : Prop :=
  eventMatchesFilter event q.filter = true → q.Answered network event

structure ProgressiveQuery.Sound (network : Network) (queries : List PendingQuery)
    (sub : ProgressiveQuery) : Prop where
  urls : ∀ q ∈ queries, ∀ url, url ∈ q.urls ↔ url ∈ sub.urls
  covers : Covers (queries.map PendingQuery.filter) ⟨sub.filter, sub.originalIndices⟩
  answered : ∀ event ∈ sub.events, network.Answers sub.urls sub.filter event
  listened : ∀ index q, queries[index]? = some q → sub.Listens index q →
    ∀ event ∈ sub.events, Passes network q event
  taken : ∀ events, sub.resolved = some events → events ⊆ sub.events ∧
    ∀ q ∈ queries, ∀ event ∈ events, Passes network q event
  complete : sub.complete = true → ∃ events, sub.resolved = some events ∧
    ∀ event, network.Answers sub.urls sub.filter event → event ∈ events
  closed : sub.closed = true → sub.resolved.isSome = true

structure ProgressiveQuery.Alone (q : PendingQuery) (sub : ProgressiveQuery) : Prop where
  filter : sub.filter = q.filter
  index : sub.originalIndices = [0]
  events : sub.resolved = none → sub.events.Nodup
  taken : ∀ events, sub.resolved = some events → sub.complete = true → events.Nodup

namespace ProgressiveQuery

variable {queries : List PendingQuery} {q : PendingQuery} {sub : ProgressiveQuery}
  {event : NostrEvent}

theorem Sound.start {urls : List String} {filter : NostrFilter} {indices : List Nat} {update : Bool}
    (relays : ∀ q ∈ queries, ∀ url, url ∈ q.urls ↔ url ∈ urls)
    (covers : Covers (queries.map PendingQuery.filter) ⟨filter, indices⟩) :
    (ProgressiveQuery.start urls filter indices update).Sound network queries :=
  ⟨relays, covers, fun _ absurd => (nomatch absurd), fun _ _ _ _ _ absurd => (nomatch absurd),
    fun _ absurd => (nomatch absurd), fun absurd => (nomatch absurd),
    fun absurd => (nomatch absurd)⟩

theorem Sound.onevent (sound : sub.Sound network queries)
    (answers : network.Answers sub.urls sub.filter event)
    (passes : ∀ index q, queries[index]? = some q → sub.Listens index q → Passes network q event) :
    (sub.onevent event).Sound network queries := by
  refine ⟨sound.urls, sound.covers, fun other member => ?_, fun index q at_ listens other member => ?_,
    fun events resolved => ?_, sound.complete, sound.closed⟩
  · rcases List.mem_append.mp member with before | here
    · exact sound.answered other before
    · exact List.mem_singleton.mp here ▸ answers
  · rcases List.mem_append.mp member with before | here
    · exact sound.listened index q at_ listens other before
    · exact List.mem_singleton.mp here ▸ passes index q at_ listens
  · obtain ⟨among, taken⟩ := sound.taken events resolved
    exact ⟨fun other member => List.mem_append_left _ (among member), taken⟩

theorem doResolve_resolved : sub.doResolve.resolved.isSome = true := by
  unfold doResolve
  split
  · assumption
  · rfl

theorem Sound.doResolve (sound : sub.Sound network queries) :
    sub.doResolve.Sound network queries := by
  unfold ProgressiveQuery.doResolve
  split
  · exact sound
  · rename_i unresolved
    have open_ : sub.resolved = none := Option.not_isSome_iff_eq_none.mp unresolved
    refine ⟨sound.urls, sound.covers, sound.answered, fun index q at_ _ => ?_,
      fun events resolved => ?_, fun complete => ?_, fun _ => rfl⟩
    · exact sound.listened index q at_ (.inl open_)
    · cases resolved
      refine ⟨List.Subset.refl _, fun q member => ?_⟩
      obtain ⟨index, at_⟩ := List.mem_iff_getElem?.mp member
      exact sound.listened index q at_ (.inl open_)
    · obtain ⟨events, resolved, _⟩ := sound.complete complete
      exact absurd (open_.symm.trans resolved) (Option.some_ne_none _).symm

theorem Sound.onclose (sound : sub.Sound network queries)
    (all : ∀ url ∈ sub.urls, ∀ event ∈ (network.relay url).answer sub.filter, event ∈ sub.events) :
    sub.onclose.Sound network queries := by
  obtain ⟨urls, covers, answered, listened, taken, complete, _⟩ := sound.doResolve
  refine ⟨urls, covers, answered, listened, taken, fun closed => ?_, fun _ => doResolve_resolved⟩
  cases held : sub.resolved with
  | some events =>
    have same : sub.doResolve = sub := if_pos (by rw [held]; rfl)
    have before : sub.complete = true := by
      simpa [ProgressiveQuery.onclose, held] using closed
    exact complete (same.symm ▸ before)
  | none =>
    refine ⟨sub.events, ?_, fun event answers => ?_⟩
    · simp [ProgressiveQuery.onclose, ProgressiveQuery.doResolve, held]
    · have same : sub.onclose.urls = sub.urls ∧ sub.onclose.filter = sub.filter := by
        simp [ProgressiveQuery.onclose, ProgressiveQuery.doResolve, held]
      obtain ⟨url, listed, told⟩ := answers
      exact all url (same.1 ▸ listed) event (same.2 ▸ told)

theorem Alone.onevent (alone : sub.Alone q) (once : sub.resolved = none → event ∉ sub.events) :
    (sub.onevent event).Alone q := by
  refine ⟨alone.filter, alone.index, fun unresolved => ?_, alone.taken⟩
  have fresh := once unresolved
  exact List.nodup_append.mpr ⟨alone.events unresolved, List.nodup_singleton event,
    fun other member copy single same => fresh (List.mem_singleton.mp single ▸ same ▸ member)⟩

theorem Alone.doResolve (alone : sub.Alone q) : sub.doResolve.Alone q := by
  unfold ProgressiveQuery.doResolve
  split
  · exact alone
  · rename_i unresolved
    refine ⟨alone.filter, alone.index, fun absurd => (nomatch absurd), fun events resolved _ => ?_⟩
    cases resolved
    exact alone.events (Option.not_isSome_iff_eq_none.mp unresolved)

theorem Alone.onclose (alone : sub.Alone q) : sub.onclose.Alone q := by
  obtain ⟨filter, index, events, taken⟩ := alone.doResolve
  refine ⟨filter, index, events, fun list resolved complete => ?_⟩
  cases held : sub.resolved with
  | none =>
    have whole : list = sub.events := by
      simpa [ProgressiveQuery.onclose, ProgressiveQuery.doResolve, held, eq_comm] using resolved
    exact whole ▸ alone.events held
  | some before =>
    have same : sub.doResolve = sub := if_pos (by rw [held]; rfl)
    have earlier : sub.complete = true := by
      simpa [ProgressiveQuery.onclose, held] using complete
    exact taken list resolved (same.symm ▸ earlier)

end ProgressiveQuery

/-! ## Groups -/

structure Group.Sound (network : Network) (group : Group) : Prop where
  subs : ∀ sub ∈ group.subs, sub.Sound network group.queries
  serves : ∀ index q, group.queries[index]? = some q →
    (∃ sub ∈ group.subs, index ∈ sub.originalIndices) ∨ q.filter.ids.join = some []
  alone : group.queries.length = 1 → ∃ sub, group.subs = [sub] ∧ ∀ q ∈ group.queries, sub.Alone q

namespace Group

variable {group : Group} {q : PendingQuery} {sub : ProgressiveQuery} {index place : Nat}

/-- What came for a query, when all that it asks for did, is what it asks for once it is taken
apart. -/
theorem mem_matching {events : List NostrEvent}
    (alone : group.queries.length = 1 → ∀ event ∈ events, q.Answered network event)
    (passes : ∀ event ∈ events, Passes network q event)
    (came : ∀ event, q.Answered network event → event ∈ events) (event : NostrEvent) :
    event ∈ group.matching q events ↔ network.Answers q.urls q.filter event := by
  unfold Group.matching
  split
  · rename_i single
    exact ⟨alone single event, came event⟩
  · rw [List.mem_filter]
    refine ⟨fun told => passes event told.1 told.2, fun answers => ⟨came event answers, ?_⟩⟩
    obtain ⟨url, _, matched⟩ := answers.stored
    exact eventMatchesFilter_of_match matched

theorem Sound.asks (sound : group.Sound network) (member : sub ∈ group.subs)
    (at_ : group.queries[index]? = some q) (included : index ∈ sub.originalIndices)
    (event : NostrEvent) (answers : q.Answered network event) :
    network.Answers sub.urls sub.filter event := by
  have whole := sound.subs sub member
  obtain ⟨filter, at_', asks⟩ := whole.covers index included
  rw [List.getElem?_map, at_] at at_'
  cases at_'
  obtain ⟨url, listed, answered⟩ := answers
  refine ⟨url, (whole.urls q (List.mem_of_getElem? at_) url).mp listed, ?_⟩
  rcases asks with same | ⟨unlimited, wider⟩
  · exact (show sub.filter = q.filter from same) ▸ answered
  · obtain ⟨stored, matched⟩ := RelayStore.mem_answer answered
    exact RelayStore.mem_answer_unlimited unlimited stored (wider _ event matched)

theorem Sound.own (sound : group.Sound network) (member : sub ∈ group.subs)
    (listed : q ∈ group.queries) (single : group.queries.length = 1) {event : NostrEvent}
    (answers : network.Answers sub.urls sub.filter event) : q.Answered network event := by
  obtain ⟨only, parts, alone⟩ := sound.alone single
  have here : sub = only := List.mem_singleton.mp (parts ▸ member)
  have filter : sub.filter = q.filter := here ▸ (alone q listed).filter
  obtain ⟨url, among, answered⟩ := answers
  exact ⟨url, ((sound.subs sub member).urls q listed url).mpr among, filter ▸ answered⟩

theorem Sound.answered (sound : group.Sound network) (member : sub ∈ group.subs)
    (listed : q ∈ group.queries) (single : group.queries.length = 1) (event : NostrEvent)
    (told : event ∈ sub.events) : q.Answered network event :=
  sound.own member listed single ((sound.subs sub member).answered event told)

theorem Sound.exact_update (sound : group.Sound network) (member : sub ∈ group.subs)
    (at_ : group.queries[index]? = some q) (included : index ∈ sub.originalIndices)
    (updates : q.onUpdate ≠ [])
    (all : ∀ url ∈ sub.urls, ∀ event ∈ (network.relay url).answer sub.filter, event ∈ sub.events) :
    Exact network ⟨q.urls, q.filter⟩ (dedup (group.matching q sub.events)) := by
  refine exact_dedup (mem_matching ?_ ?_ fun event answers => ?_)
  · exact fun single => sound.answered member (List.mem_of_getElem? at_) single
  · exact (sound.subs sub member).listened index q at_ (.inr ⟨included, updates⟩)
  · obtain ⟨url, listed, told⟩ := sound.asks member at_ included event answers
    exact all url listed event told

theorem Sound.exact_result (sound : group.Sound network) (at_ : group.queries[index]? = some q)
    (complete : group.complete index = true) :
    Exact network ⟨q.urls, q.filter⟩ (group.result q) := by
  have listed : q ∈ group.queries := List.mem_of_getElem? at_
  have finished : ∀ sub ∈ group.subs, index ∈ sub.originalIndices → sub.complete = true := by
    intro sub member included
    have held := List.all_eq_true.mp complete sub member
    simpa [included] using held
  have source : ∀ event ∈ group.allEvents, ∃ sub ∈ group.subs, ∃ events,
      sub.resolved = some events ∧ event ∈ events := by
    intro event told
    obtain ⟨sub, member, held⟩ := List.mem_flatMap.mp told
    cases resolved : sub.resolved with
    | none => rw [resolved] at held; contradiction
    | some events =>
      rw [resolved] at held
      exact ⟨sub, member, events, resolved, held⟩
  have own : ∀ event, event ∈ group.matching q group.allEvents ↔
      network.Answers q.urls q.filter event := by
    refine mem_matching (fun single event told => ?_) (fun event told => ?_) fun event answers => ?_
    · obtain ⟨sub, member, events, resolved, held⟩ := source event told
      have among := ((sound.subs sub member).taken events resolved).1
      exact sound.answered member listed single event (among held)
    · obtain ⟨sub, member, events, resolved, held⟩ := source event told
      exact ((sound.subs sub member).taken events resolved).2 q listed event held
    · rcases sound.serves index q at_ with ⟨sub, member, included⟩ | none
      · obtain ⟨events, resolved, all⟩ :=
          (sound.subs sub member).complete (finished sub member included)
        have held := all event (sound.asks member at_ included event answers)
        exact List.mem_flatMap.mpr ⟨sub, member, by rw [resolved]; exact held⟩
      · obtain ⟨url, _, matched⟩ := answers.stored
        simp [matchFilter, none] at matched
  unfold Group.result
  split
  · rename_i single
    obtain ⟨sub, parts, alone⟩ := sound.alone single
    have member : sub ∈ group.subs := parts ▸ List.mem_singleton_self sub
    have first : index = 0 := by
      have less := (List.getElem?_eq_some_iff.mp at_).1
      omega
    have closed : sub.complete = true := by
      refine finished sub member ?_
      rw [(alone q listed).index, first]
      exact List.mem_singleton_self 0
    obtain ⟨events, resolved, _⟩ := (sound.subs sub member).complete closed
    have whole : group.allEvents = events := by
      simp [Group.allEvents, parts, resolved]
    have same : group.matching q group.allEvents = events := by
      rw [Group.matching, if_pos single, whole]
    rw [whole]
    exact exact_of_nodup ((alone q listed).taken events resolved closed) (same ▸ own)
  · exact exact_dedup own

theorem Sound.withSub (sound : group.Sound network) (at_ : group.subs[place]? = some sub)
    {next : ProgressiveQuery} (whole : next.Sound network group.queries)
    (indices : next.originalIndices = sub.originalIndices)
    (alone : group.queries.length = 1 → ∀ q, sub.Alone q → next.Alone q) :
    (group.withSub place next).Sound network := by
  refine ⟨fun other member => ?_, fun index q listed => ?_, fun single => ?_⟩
  · rcases List.mem_or_eq_of_mem_set member with before | here
    · exact sound.subs other before
    · exact here ▸ whole
  · refine (sound.serves index q listed).imp_left fun served => ?_
    obtain ⟨other, member, included⟩ := served
    obtain ⟨spot, held⟩ := List.mem_iff_getElem?.mp member
    by_cases same : place = spot
    · subst same
      cases at_.symm.trans held
      refine ⟨next, List.mem_set (List.getElem?_eq_some_iff.mp at_).1 next, ?_⟩
      rw [indices]
      exact included
    · refine ⟨other, List.mem_of_getElem? (i := spot) ?_, included⟩
      exact (List.getElem?_set_ne same).trans held
  · obtain ⟨only, parts, each⟩ := sound.alone single
    have first : place = 0 ∧ only = sub := by
      rw [parts] at at_
      have less := (List.getElem?_eq_some_iff.mp at_).1
      have zero : place = 0 := Nat.lt_one_iff.mp less
      subst zero
      exact ⟨rfl, Option.some.inj at_⟩
    refine ⟨next, ?_, fun q listed => alone single q (first.2 ▸ each q listed)⟩
    show group.subs.set place next = [next]
    rw [parts, first.1]
    rfl

theorem start_sound {queries : List PendingQuery}
    (relays : ∀ q ∈ queries, ∀ other ∈ queries, ∀ url, url ∈ q.urls ↔ url ∈ other.urls) :
    (Group.start queries).Sound network := by
  have urls : ∀ q ∈ queries, ∀ url,
      url ∈ q.urls ↔ url ∈ (queries.head?.map PendingQuery.urls).getD [] := by
    intro q listed url
    cases queries with
    | nil => contradiction
    | cons first rest => exact relays q listed first List.mem_cons_self url
  unfold Group.start
  dsimp only
  split
  · rename_i single
    obtain ⟨q, only⟩ := List.length_eq_one_iff.mp single
    subst only
    refine ⟨fun sub member => ?_, fun index other at_ => ?_, fun _ => ?_⟩
    · cases List.mem_singleton.mp member
      refine .start urls fun index included => ?_
      cases List.mem_singleton.mp included
      exact ⟨q.filter, rfl, .inl rfl⟩
    · have first : index = 0 := Nat.lt_one_iff.mp (List.getElem?_eq_some_iff.mp at_).1
      refine .inl ⟨_, List.mem_singleton_self _, ?_⟩
      exact List.mem_singleton.mpr first
    · refine ⟨_, rfl, fun other listed => ?_⟩
      cases List.mem_singleton.mp listed
      exact ⟨rfl, rfl, fun _ => List.nodup_nil, fun _ absurd => (nomatch absurd)⟩
  · rename_i several
    refine ⟨fun sub member => ?_, fun index q at_ => ?_, fun single => absurd single several⟩
    · obtain ⟨merged, listed, same⟩ := List.mem_map.mp member
      subst same
      exact .start urls (mergeFilters_covers listed)
    · have asked : (queries.map PendingQuery.filter)[index]? = some q.filter := by
        rw [List.getElem?_map]
        exact congrArg (Option.map PendingQuery.filter) at_
      refine (mergeFilters_serves asked).imp_left fun served => ?_
      obtain ⟨merged, listed, included⟩ := served
      exact ⟨_, List.mem_map.mpr ⟨merged, listed, rfl⟩, included⟩

theorem mem_outcomes {outcome : Outcome} (member : outcome ∈ group.outcomes) :
    ∃ index q, group.queries[index]? = some q ∧ outcome.call ∈ q.callbacks ∧
      outcome.events = group.result q ∧ outcome.complete = group.complete index := by
  obtain ⟨entry, listed, told⟩ := List.mem_flatMap.mp member
  obtain ⟨call, asked, same⟩ := List.mem_map.mp told
  subst same
  exact ⟨entry.2, entry.1, List.mem_zipIdx_iff_getElem?.mp listed, asked, rfl, rfl⟩

theorem outcomes_calls : group.outcomes.map Outcome.call =
    group.queries.flatMap PendingQuery.callbacks := by
  have calls : ∀ entry : PendingQuery × Nat,
      (entry.1.callbacks.map fun call =>
        (⟨call, group.result entry.1, group.complete entry.2⟩ : Outcome)).map Outcome.call =
      entry.1.callbacks := by
    intro entry
    rw [List.map_map]
    exact List.map_id _
  unfold Group.outcomes
  rw [List.map_flatMap]
  simp only [calls]
  calc group.queries.zipIdx.flatMap (fun entry => entry.1.callbacks)
      = (group.queries.zipIdx.map Prod.fst).flatMap PendingQuery.callbacks := by
        rw [List.flatMap_map]
    _ = group.queries.flatMap PendingQuery.callbacks := by rw [List.zipIdx_map_fst]

theorem mem_updates {update : Nat × List NostrEvent} (member : update ∈ group.updates sub) :
    ∃ index q, index ∈ sub.originalIndices ∧ group.queries[index]? = some q ∧
      update.1 ∈ q.onUpdate ∧ update.2 = dedup (group.matching q sub.events) := by
  unfold Group.updates at member
  split at member
  · contradiction
  · obtain ⟨index, included, told⟩ := List.mem_flatMap.mp member
    obtain ⟨q, at_, called⟩ := List.mem_flatMap.mp told
    obtain ⟨call, asked, same⟩ := List.mem_map.mp called
    subst same
    exact ⟨index, q, included, Option.mem_toList.mp at_, asked, rfl⟩

end Group

namespace QueryBatcher

/-! ## Runs -/

/-- The code tells lists of relays apart that are pending together, if they differ. -/
def Apart (numbers : Json.NumberText) (batcher : QueryBatcher) (query : Query) : Prop :=
  ∀ q ∈ batcher.pending,
    (q.dedupKey = dedupKey numbers query.urls query.filter →
      sortedJoin q.urls = sortedJoin query.urls) ∧
    (sortedJoin q.urls = sortedJoin query.urls → ∀ url, url ∈ q.urls ↔ url ∈ query.urls)

/-- An event does not come twice for a query on its own; of several queries it reaches those only
that would have returned it. -/
def Sifted (network : Network) (group : Group) (sub : ProgressiveQuery) (event : NostrEvent) : Prop :=
  (group.queries.length = 1 → sub.resolved = none → event ∉ sub.events) ∧
    (group.queries.length ≠ 1 → ∀ index q, group.queries[index]? = some q → sub.Listens index q →
      eventMatchesFilter event q.filter = true →
        Rechecked q.filter event ∨ q.Answered network event)

def Orderly (network : Network) (numbers : Json.NumberText) (batcher : QueryBatcher) : Move → Prop
  | .query query _ => Apart numbers batcher query
  | .queryImmediate query _ => Apart numbers batcher query
  | .event number place event =>
    ∀ part, batcher.part number place = some part → Sifted network part.1 part.2 event
  | _ => True

def Serves (calls : List Query) (call : Nat) (q : PendingQuery) : Prop :=
  ∃ query, calls[call]? = some query ∧ (∀ url, url ∈ q.urls ↔ url ∈ query.urls) ∧
    SameFilter q.filter query.filter

def Told (network : Network) (calls : List Query) (call : Nat) (events : List NostrEvent) : Prop :=
  ∃ query, calls[call]? = some query ∧ Exact network query events

def Attended (calls : List Query) (queries : List PendingQuery) : Prop :=
  ∀ q ∈ queries, ∀ call, call ∈ q.callbacks ∨ call ∈ q.onUpdate → Serves calls call q

structure Sound (network : Network) (numbers : Json.NumberText) (batcher : QueryBatcher) : Prop where
  keys : ∀ q ∈ batcher.pending, q.dedupKey = dedupKey numbers q.urls q.filter
  relays : ∀ q ∈ batcher.pending, ∀ other ∈ batcher.pending,
    sortedJoin q.urls = sortedJoin other.urls → ∀ url, url ∈ q.urls ↔ url ∈ other.urls
  pending : Attended batcher.calls batcher.pending
  armed : batcher.pending ≠ [] → batcher.timer = true
  groups : ∀ number group, batcher.groups.get number = some group →
    group.Sound network ∧ Attended batcher.calls group.queries
  settles : ∀ number group, batcher.groups.get number = some group → group.settled = false →
    ∃ sub ∈ group.subs, sub.resolved = none
  executed : ∀ number, batcher.executed ≤ number → batcher.groups.get number = none
  outcomes : ∀ outcome ∈ batcher.outcomes, outcome.complete = true →
    Told network batcher.calls outcome.call outcome.events
  updates : ∀ update ∈ batcher.updates, Told network batcher.calls update.1 update.2

variable {batcher : QueryBatcher} {calls : List Query} {call number place : Nat} {group : Group}
  {q : PendingQuery} {asked : Query}

theorem Serves.append (serves : Serves calls call q) : Serves (calls ++ [asked]) call q := by
  obtain ⟨query, at_, same⟩ := serves
  exact ⟨query, List.getElem?_append_left (List.getElem?_eq_some_iff.mp at_).1 ▸ at_, same⟩

theorem Told.append {events : List NostrEvent} (told : Told network calls call events) :
    Told network (calls ++ [asked]) call events := by
  obtain ⟨query, at_, exact_⟩ := told
  exact ⟨query, List.getElem?_append_left (List.getElem?_eq_some_iff.mp at_).1 ▸ at_, exact_⟩

theorem Serves.told {events : List NostrEvent} (serves : Serves calls call q)
    (exact_ : Exact network ⟨q.urls, q.filter⟩ events) : Told network calls call events := by
  obtain ⟨query, at_, relays, same⟩ := serves
  refine ⟨query, at_, exact_.1, fun event => ?_⟩
  exact (exact_.2 event).trans (Network.answers_congr relays same event)

theorem Sound.put (sound : batcher.Sound network numbers) (whole : group.Sound network)
    (attended : Attended batcher.calls group.queries) (less : number < batcher.executed) :
    (batcher.put number group).Sound network numbers := by
  have groups : ∀ settled other held,
      (batcher.groups.set number { group with settled := settled }).get other = some held →
      held.Sound network ∧ Attended batcher.calls held.queries := by
    intro settled other held at_
    rw [OrderedMap.get_set] at at_
    split at at_
    · cases at_
      exact ⟨⟨whole.subs, whole.serves, whole.alone⟩, attended⟩
    · exact sound.groups other held at_
  have executed : ∀ settled other, batcher.executed ≤ other →
      (batcher.groups.set number { group with settled := settled }).get other = none := by
    intro settled other later
    rw [OrderedMap.get_set, if_neg (by omega)]
    exact sound.executed other later
  unfold QueryBatcher.put
  split
  · rename_i settling
    refine ⟨sound.keys, sound.relays, sound.pending, sound.armed, groups true, ?_, executed true, ?_,
      sound.updates⟩
    · intro other held at_ open_
      dsimp only at at_
      rw [OrderedMap.get_set] at at_
      split at at_
      · cases at_
        contradiction
      · exact sound.settles other held at_ open_
    · intro outcome member complete
      rcases List.mem_append.mp member with before | now
      · exact sound.outcomes outcome before complete
      · obtain ⟨index, q, at_, asks, events, whole_⟩ := Group.mem_outcomes now
        rw [events]
        have serves := attended q (List.mem_of_getElem? at_) outcome.call (.inl asks)
        exact serves.told (whole.exact_result at_ (whole_ ▸ complete))
  · rename_i unsettled
    refine ⟨sound.keys, sound.relays, sound.pending, sound.armed, groups group.settled, ?_,
      executed group.settled, sound.outcomes, sound.updates⟩
    intro other held at_ open_
    dsimp only at at_
    rw [OrderedMap.get_set] at at_
    split at at_
    · cases at_
      by_contra none
      push Not at none
      exact unsettled ⟨open_, fun sub member => Option.isSome_iff_ne_none.mpr (none sub member)⟩
    · exact sound.settles other held at_ open_

theorem put_executed : (batcher.put number group).executed = batcher.executed := by
  unfold QueryBatcher.put
  split <;> rfl

theorem put_calls : (batcher.put number group).calls = batcher.calls := by
  unfold QueryBatcher.put
  split <;> rfl

theorem start_queries {queries : List PendingQuery} : (Group.start queries).queries = queries := by
  unfold Group.start
  dsimp only
  split <;> rfl

theorem Sound.executeGroup {queries : List PendingQuery} (sound : batcher.Sound network numbers)
    (attended : Attended batcher.calls queries)
    (relays : ∀ q ∈ queries, ∀ other ∈ queries, ∀ url, url ∈ q.urls ↔ url ∈ other.urls) :
    (batcher.executeGroup queries).Sound network numbers := by
  have next : { batcher with executed := batcher.executed + 1 }.Sound network numbers :=
    { sound with executed := fun number later => sound.executed number (by
        have less : batcher.executed + 1 ≤ number := later
        omega) }
  exact next.put (Group.start_sound relays) (start_queries.symm ▸ attended) (Nat.lt_succ_self _)

def Grouped (batch : List PendingQuery) (groups : OrderedMap (List Char) (List PendingQuery)) : Prop :=
  ∀ key queries, groups.get key = some queries → ∀ q ∈ queries, q ∈ batch ∧ sortedJoin q.urls = key

theorem Grouped.foldl {batch rest : List PendingQuery}
    {groups : OrderedMap (List Char) (List PendingQuery)} (grouped : Grouped batch groups)
    (among : rest ⊆ batch) : Grouped batch (rest.foldl addToGroup groups) := by
  induction rest generalizing groups with
  | nil => exact grouped
  | cons q rest ih =>
    obtain ⟨here, later⟩ := List.cons_subset.mp among
    refine ih (fun key queries held other member => ?_) later
    unfold addToGroup at held
    dsimp only at held
    rw [OrderedMap.get_set] at held
    split at held
    · rename_i same
      cases held
      rcases List.mem_append.mp member with before | now
      · cases existing : groups.get (sortedJoin q.urls) with
        | none => rw [existing] at before; contradiction
        | some held =>
          rw [existing] at before
          obtain ⟨listed, key⟩ := grouped _ held existing other before
          exact ⟨listed, key.trans same.symm⟩
      · cases List.mem_singleton.mp now
        exact ⟨here, same.symm⟩
    · exact grouped key queries held other member

theorem executeGroup_calls {queries : List PendingQuery} :
    (batcher.executeGroup queries).calls = batcher.calls := put_calls

theorem Sound.executeAll {groups : List (List PendingQuery)} (sound : batcher.Sound network numbers)
    (attended : ∀ queries ∈ groups, Attended batcher.calls queries)
    (relays : ∀ queries ∈ groups, ∀ q ∈ queries, ∀ other ∈ queries, ∀ url,
      url ∈ q.urls ↔ url ∈ other.urls) :
    (groups.foldl QueryBatcher.executeGroup batcher).Sound network numbers := by
  induction groups generalizing batcher with
  | nil => exact sound
  | cons queries rest ih =>
    have here := sound.executeGroup (attended queries List.mem_cons_self)
      (relays queries List.mem_cons_self)
    refine ih here (fun later member => ?_) fun later member =>
      relays later (List.mem_cons_of_mem _ member)
    rw [executeGroup_calls]
    exact attended later (List.mem_cons_of_mem _ member)

theorem Sound.flush (sound : batcher.Sound network numbers) : batcher.flush.Sound network numbers := by
  have grouped : Grouped batcher.pending (groupByRelays batcher.pending) :=
    Grouped.foldl (fun _ _ absurd => (nomatch absurd)) (List.Subset.refl _)
  have listed : ∀ queries ∈ (groupByRelays batcher.pending).values, ∃ key, ∀ q ∈ queries,
      q ∈ batcher.pending ∧ sortedJoin q.urls = key := by
    intro queries member
    obtain ⟨entry, held, same⟩ := List.mem_map.mp member
    subst same
    exact ⟨entry.1, grouped entry.1 entry.2 (OrderedMap.get_eq_some.mpr held)⟩
  have emptied : { batcher with pending := [], timer := false }.Sound network numbers :=
    { sound with
      keys := fun _ absurd => (nomatch absurd)
      relays := fun _ absurd => (nomatch absurd)
      pending := fun _ absurd => (nomatch absurd)
      armed := fun absurd => (absurd rfl).elim }
  refine emptied.executeAll (fun queries member q among => ?_) fun queries member q among other among' => ?_
  · obtain ⟨key, pending⟩ := listed queries member
    exact sound.pending q (pending q among).1
  · obtain ⟨key, pending⟩ := listed queries member
    obtain ⟨here, first⟩ := pending q among
    obtain ⟨there, second⟩ := pending other among'
    exact sound.relays q here other there (first.trans second.symm)

/-! ## Asking -/

theorem mem_enqueue {key : List Char} {update : Bool} {pending : List PendingQuery}
    (member : q ∈ enqueue asked key call update pending) :
    q ∈ pending ∨
      (q.urls = asked.urls ∧ q.filter = asked.filter ∧ q.dedupKey = key ∧
        ∀ other, other ∈ q.callbacks ∨ other ∈ q.onUpdate → other = call) ∨
      ∃ old ∈ pending, old.dedupKey = key ∧ q.urls = old.urls ∧ q.filter = old.filter ∧
        q.dedupKey = key ∧ ∀ other, other ∈ q.callbacks ∨ other ∈ q.onUpdate →
          other = call ∨ other ∈ old.callbacks ∨ other ∈ old.onUpdate := by
  induction pending with
  | nil =>
    cases List.mem_singleton.mp member
    refine .inr (.inl ⟨rfl, rfl, rfl, fun other told => ?_⟩)
    cases update <;> simpa using told
  | cons first rest ih =>
    unfold enqueue at member
    split at member
    · rename_i same
      rcases List.mem_cons.mp member with here | later
      · subst here
        refine .inr (.inr ⟨first, List.mem_cons_self, same, rfl, rfl, same, fun other told => ?_⟩)
        cases update with
        | true =>
          simp only [if_true, List.mem_append, List.mem_singleton] at told
          tauto
        | false =>
          simp only [Bool.false_eq_true, if_false, List.mem_append, List.mem_singleton] at told
          tauto
      · exact .inl (List.mem_cons_of_mem _ later)
    · rcases List.mem_cons.mp member with here | later
      · exact .inl (here ▸ List.mem_cons_self)
      · rcases ih later with before | new | joined
        · exact .inl (List.mem_cons_of_mem _ before)
        · exact .inr (.inl new)
        · obtain ⟨old, listed, same⟩ := joined
          exact .inr (.inr ⟨old, List.mem_cons_of_mem _ listed, same⟩)

theorem Sound.query {update : Bool} (sound : batcher.Sound network numbers)
    (apart : Apart numbers batcher asked) :
    (batcher.query numbers asked update).Sound network numbers := by
  have urls : ∀ q ∈ (batcher.query numbers asked update).pending,
      q.urls = asked.urls ∨ ∃ old ∈ batcher.pending, q.urls = old.urls := by
    intro q member
    rcases mem_enqueue member with before | ⟨same, _⟩ | ⟨old, listed, _, same, _⟩
    · exact .inr ⟨q, before, rfl⟩
    · exact .inl same
    · exact .inr ⟨old, listed, same⟩
  have call : (batcher.calls ++ [asked])[batcher.calls.length]? = some asked := by
    rw [List.getElem?_append_right (Nat.le_refl _), Nat.sub_self]
    rfl
  refine ⟨fun q member => ?_, fun q member other member' same => ?_, fun q member number told => ?_,
    fun _ => rfl, fun number group held => ?_, sound.settles, sound.executed,
    fun outcome member complete => (sound.outcomes outcome member complete).append,
    fun update member => (sound.updates update member).append⟩
  · rcases mem_enqueue member with before | ⟨urls, filter, key, _⟩ | ⟨old, listed, held, urls, filter, key, _⟩
    · exact sound.keys q before
    · rw [key, urls, filter]
    · rw [key, ← held, urls, filter]
      exact sound.keys old listed
  · rcases urls q member with here | ⟨old, listed, here⟩
    · rcases urls other member' with there | ⟨old', listed', there⟩
      · rw [here, there]
        exact fun _ => Iff.rfl
      · rw [here, there] at same ⊢
        exact fun url => ((apart old' listed').2 same.symm url).symm
    · rcases urls other member' with there | ⟨old', listed', there⟩
      · rw [here, there] at same ⊢
        exact (apart old listed).2 same
      · rw [here, there] at same ⊢
        exact sound.relays old listed old' listed' same
  · rcases mem_enqueue member with before | ⟨urls, filter, _, only⟩ | ⟨old, listed, held, urls, filter, _, known⟩
    · exact (sound.pending q before number told).append
    · rw [only number told]
      refine ⟨asked, call, fun url => by rw [urls], ?_⟩
      rw [filter]
      exact .refl _
    · rcases known number told with new | before
      · rw [new]
        have join := (apart old listed).1 held
        refine ⟨asked, call, fun url => ?_, ?_⟩
        · rw [urls]
          exact (apart old listed).2 join url
        · rw [filter]
          exact dedupKey_filter ((sound.keys old listed).symm.trans held) join
      · obtain ⟨query, at_, relays, same⟩ := (sound.pending old listed number before).append
        exact ⟨query, at_, urls.symm ▸ relays, filter.symm ▸ same⟩
  · obtain ⟨whole, attended⟩ := sound.groups number group held
    exact ⟨whole, fun q member number told => (attended q member number told).append⟩

/-! ## Every call is somewhere, once -/

def waiting (call : Nat) (group : Group) : Nat :=
  if group.settled then 0 else (group.queries.flatMap PendingQuery.callbacks).count call

def places (batcher : QueryBatcher) (call : Nat) : Nat :=
  (batcher.outcomes.map Outcome.call).count call +
    (batcher.pending.flatMap PendingQuery.callbacks).count call +
    batcher.groups.weight fun _ group => waiting call group

def Accounted (batcher : QueryBatcher) : Prop :=
  ∀ call, batcher.places call = if call < batcher.calls.length then 1 else 0

theorem places_put_new (absent : batcher.groups.get number = none) (open_ : group.settled = false) :
    (batcher.put number group).places call =
      batcher.places call + (group.queries.flatMap PendingQuery.callbacks).count call := by
  unfold QueryBatcher.put places
  split
  · dsimp only
    rw [OrderedMap.weight_set_of_none absent, List.map_append, List.count_append,
      Group.outcomes_calls]
    simp only [waiting, if_true]
    omega
  · dsimp only
    rw [OrderedMap.weight_set_of_none absent]
    simp only [waiting, open_, Bool.false_eq_true, if_false]
    omega

theorem places_put {old : Group} (held : batcher.groups.get number = some old)
    (queries : group.queries = old.queries) (settled : group.settled = old.settled) :
    (batcher.put number group).places call = batcher.places call := by
  have weight := fun value : Group =>
    @OrderedMap.weight_set Nat Group _ (fun _ group => waiting call group) _ _ _ held value
  unfold QueryBatcher.put places
  split
  · rename_i settling
    have total := weight { group with settled := true }
    dsimp only at total ⊢
    rw [List.map_append, List.count_append, Group.outcomes_calls]
    simp only [waiting, if_true, ← settled, settling.1, Bool.false_eq_true, if_false, ← queries]
      at total ⊢
    omega
  · have total := weight group
    have same : waiting call group = waiting call old := by
      unfold waiting
      rw [queries, settled]
    dsimp only at total ⊢
    omega

theorem places_executeGroup {queries : List PendingQuery}
    (absent : batcher.groups.get batcher.executed = none) :
    (batcher.executeGroup queries).places call =
      batcher.places call + (queries.flatMap PendingQuery.callbacks).count call := by
  have open_ : (Group.start queries).settled = false := by
    unfold Group.start
    dsimp only
    split <;> rfl
  have next := @places_put_new { batcher with executed := batcher.executed + 1 } call
    batcher.executed (.start queries) absent open_
  rw [start_queries] at next
  exact next

def asking (call : Nat) (queries : List PendingQuery) : Nat :=
  (queries.flatMap PendingQuery.callbacks).count call

theorem asking_append {queries others : List PendingQuery} :
    asking call (queries ++ others) = asking call queries + asking call others := by
  simp [asking]

theorem asking_cons {rest : List PendingQuery} :
    asking call (q :: rest) = q.callbacks.count call + asking call rest := by
  simp [asking]

theorem asking_grouped {batch : List PendingQuery}
    {groups : OrderedMap (List Char) (List PendingQuery)} :
    (batch.foldl addToGroup groups).weight (fun _ queries => asking call queries) =
      groups.weight (fun _ queries => asking call queries) + asking call batch := by
  induction batch generalizing groups with
  | nil => rfl
  | cons q rest ih =>
    rw [List.foldl_cons, ih, asking_cons]
    have here : asking call [q] = q.callbacks.count call := by simp [asking]
    unfold addToGroup
    dsimp only
    cases existing : groups.get (sortedJoin q.urls) with
    | none =>
      rw [OrderedMap.weight_set_of_none existing, Option.getD_none, List.nil_append, here]
      omega
    | some queries =>
      have total := @OrderedMap.weight_set _ _ _ (fun _ queries => asking call queries) _ _ _
        existing (queries ++ [q])
      rw [asking_append, here] at total
      rw [Option.getD_some]
      omega

theorem places_executeAll {groups : List (List PendingQuery)}
    (absent : ∀ number, batcher.executed ≤ number → batcher.groups.get number = none) :
    (groups.foldl QueryBatcher.executeGroup batcher).places call =
        batcher.places call + (groups.map (asking call)).sum ∧
      (groups.foldl QueryBatcher.executeGroup batcher).calls = batcher.calls ∧
      (groups.foldl QueryBatcher.executeGroup batcher).pending = batcher.pending := by
  induction groups generalizing batcher with
  | nil => exact ⟨rfl, rfl, rfl⟩
  | cons queries rest ih =>
    have number : (batcher.executeGroup queries).executed = batcher.executed + 1 := put_executed
    obtain ⟨total, calls, pending⟩ := @ih (batcher.executeGroup queries) fun number later => by
      have other : number ≠ batcher.executed := by omega
      unfold executeGroup QueryBatcher.put
      split
      · dsimp only
        rw [OrderedMap.get_set, if_neg other]
        exact absent number (by omega)
      · dsimp only
        rw [OrderedMap.get_set, if_neg other]
        exact absent number (by omega)
    refine ⟨?_, calls.trans executeGroup_calls, pending.trans ?_⟩
    · rw [List.foldl_cons, total, places_executeGroup (absent _ (Nat.le_refl _)), List.map_cons,
        List.sum_cons]
      unfold asking
      omega
    · unfold executeGroup QueryBatcher.put
      split <;> rfl

theorem Accounted.flush (accounted : batcher.Accounted) (sound : batcher.Sound network numbers) :
    batcher.flush.Accounted := by
  intro call
  obtain ⟨total, calls, _⟩ := @places_executeAll { batcher with pending := [], timer := false } call
    (groupByRelays batcher.pending).values sound.executed
  have grouped := @asking_grouped call batcher.pending ∅
  have values : ((groupByRelays batcher.pending).values.map (asking call)).sum =
      (groupByRelays batcher.pending).weight fun _ queries => asking call queries := by
    unfold OrderedMap.values OrderedMap.weight
    rw [List.map_map]
    rfl
  have whole := accounted call
  unfold QueryBatcher.flush
  rw [total, calls, values, groupByRelays, grouped, ← whole]
  simp [places, asking, OrderedMap.weight]
  omega

theorem asking_enqueue {key : List Char} {update : Bool} {number : Nat} {pending : List PendingQuery} :
    asking call (enqueue asked key number update pending) =
      asking call pending + if number = call then 1 else 0 := by
  induction pending with
  | nil => simp [asking, enqueue, List.count_singleton]
  | cons first rest ih =>
    unfold enqueue
    split
    · rw [asking_cons, asking_cons]
      simp only [List.count_append, List.count_singleton, beq_iff_eq]
      omega
    · rw [asking_cons, asking_cons, ih]
      omega

theorem Accounted.query {update : Bool} (accounted : batcher.Accounted) :
    (batcher.query numbers asked update).Accounted := by
  intro call
  have before := accounted call
  have joined := @asking_enqueue call asked (dedupKey numbers asked.urls asked.filter) update
    batcher.calls.length batcher.pending
  unfold asking at joined
  unfold places at before ⊢
  simp only [QueryBatcher.query, ask, List.length_append, List.length_singleton]
  rw [joined]
  split at before <;> split <;> split <;> omega

/-! ## What a part is told -/

theorem part_cases {part : Group × ProgressiveQuery} (held : batcher.part number place = some part) :
    batcher.groups.get number = some part.1 ∧ part.1.subs[place]? = some part.2 := by
  obtain ⟨group, at_, found⟩ := Option.bind_eq_some_iff.mp held
  obtain ⟨sub, among, same⟩ := Option.map_eq_some_iff.mp found
  subst same
  exact ⟨at_, among⟩

/-- An event that is sifted reaches only queries that would have returned it. -/
theorem Sifted.passes {sub : ProgressiveQuery} {event : NostrEvent} {index : Nat}
    (sifted : Sifted network group sub event) (sound : group.Sound network)
    (member : sub ∈ group.subs) (answers : network.Answers sub.urls sub.filter event)
    (at_ : group.queries[index]? = some q) (listens : sub.Listens index q) :
    Passes network q event := by
  intro passes
  have listed : q ∈ group.queries := List.mem_of_getElem? at_
  by_cases single : group.queries.length = 1
  · exact sound.own member listed single answers
  · rcases sifted.2 single index q at_ listens passes with rechecked | own
    · obtain ⟨url, among, answered⟩ := answers
      obtain ⟨stored, _⟩ := RelayStore.mem_answer answered
      refine ⟨url, ((sound.subs sub member).urls q listed url).mpr among, ?_⟩
      exact RelayStore.mem_answer_unlimited rechecked.limit stored (rechecked.match_of passes)
    · exact own

theorem Sound.withSub {part : Group × ProgressiveQuery} {next : ProgressiveQuery}
    (sound : batcher.Sound network numbers) (held : batcher.part number place = some part)
    (whole : next.Sound network part.1.queries)
    (indices : next.originalIndices = part.2.originalIndices)
    (alone : part.1.queries.length = 1 → ∀ q, part.2.Alone q → next.Alone q) :
    (batcher.put number (part.1.withSub place next)).Sound network numbers := by
  obtain ⟨at_, among⟩ := part_cases held
  obtain ⟨grouped, attended⟩ := sound.groups number part.1 at_
  refine sound.put (grouped.withSub among whole indices alone) attended ?_
  by_contra later
  rw [sound.executed number (by omega)] at at_
  contradiction

theorem Accounted.withSub {part : Group × ProgressiveQuery} {next : ProgressiveQuery}
    (accounted : batcher.Accounted) (held : batcher.part number place = some part) :
    (batcher.put number (part.1.withSub place next)).Accounted := by
  intro call
  have same := @places_put batcher call number (part.1.withSub place next) part.1
    (part_cases held).1 rfl rfl
  rw [same, put_calls]
  exact accounted call

theorem Sound.resolve {part : Group × ProgressiveQuery} (sound : batcher.Sound network numbers)
    (held : batcher.part number place = some part) :
    (batcher.put number (part.1.withSub place part.2.doResolve)).Sound network numbers := by
  obtain ⟨at_, among⟩ := part_cases held
  have grouped := (sound.groups number part.1 at_).1
  have member : part.2 ∈ part.1.subs := List.mem_of_getElem? among
  refine sound.withSub held (grouped.subs part.2 member).doResolve ?_ fun _ q alone => alone.doResolve
  unfold ProgressiveQuery.doResolve
  split <;> rfl

theorem Sound.close {part : Group × ProgressiveQuery} (sound : batcher.Sound network numbers)
    (held : batcher.part number place = some part)
    (all : ∀ url ∈ part.2.urls, ∀ event ∈ (network.relay url).answer part.2.filter,
      event ∈ part.2.events) :
    ({ batcher with updates := batcher.updates ++ part.1.updates part.2 }.put number
      (part.1.withSub place part.2.onclose)).Sound network numbers := by
  obtain ⟨at_, among⟩ := part_cases held
  obtain ⟨grouped, attended⟩ := sound.groups number part.1 at_
  have member : part.2 ∈ part.1.subs := List.mem_of_getElem? among
  have told : { batcher with updates := batcher.updates ++ part.1.updates part.2 }.Sound
      network numbers := by
    refine { sound with updates := fun update called => ?_ }
    rcases List.mem_append.mp called with before | now
    · exact sound.updates update before
    · obtain ⟨index, q, included, listed, asks, events⟩ := Group.mem_updates now
      rw [events]
      have serves := attended q (List.mem_of_getElem? listed) update.1 (.inr asks)
      exact serves.told (grouped.exact_update member listed included (List.ne_nil_of_mem asks) all)
  refine told.withSub held ((grouped.subs part.2 member).onclose all) ?_ fun _ q alone => alone.onclose
  unfold ProgressiveQuery.onclose ProgressiveQuery.doResolve
  split <;> rfl

theorem sound_step {next : QueryBatcher} {move : Move} (sound : batcher.Sound network numbers)
    (accounted : batcher.Accounted) (orderly : Orderly network numbers batcher move)
    (moved : step numbers network batcher move = some next) :
    next.Sound network numbers ∧ next.Accounted := by
  cases move with
  | query query onUpdate =>
    cases moved
    exact ⟨sound.query orderly, accounted.query⟩
  | queryImmediate query onUpdate =>
    cases moved
    have asked : (batcher.query numbers query onUpdate).Sound network numbers := sound.query orderly
    have counted : (batcher.query numbers query onUpdate).Accounted := accounted.query
    exact ⟨asked.flush, counted.flush asked⟩
  | debounced =>
    simp only [step] at moved
    split at moved
    · cases moved
      exact ⟨sound.flush, accounted.flush sound⟩
    · contradiction
  | event number place event =>
    obtain ⟨part, held, told⟩ := Option.bind_eq_some_iff.mp moved
    split at told
    · rename_i answers
      cases told
      obtain ⟨at_, among⟩ := part_cases held
      have grouped := (sound.groups number part.1 at_).1
      have member : part.2 ∈ part.1.subs := List.mem_of_getElem? among
      have sifted : Sifted network part.1 part.2 event := orderly part held
      refine ⟨sound.withSub held ((grouped.subs part.2 member).onevent answers.2 ?_) rfl ?_,
        accounted.withSub held⟩
      · exact fun index q at_ listens => sifted.passes grouped member answers.2 at_ listens
      · exact fun single q alone => alone.onevent (sifted.1 single)
    · contradiction
  | firstEventTimeout number place =>
    obtain ⟨part, held, told⟩ := Option.bind_eq_some_iff.mp moved
    split at told
    · cases told
      exact ⟨sound.resolve held, accounted.withSub held⟩
    · contradiction
  | collected number place =>
    obtain ⟨part, held, told⟩ := Option.bind_eq_some_iff.mp moved
    split at told
    · cases told
      exact ⟨sound.resolve held, accounted.withSub held⟩
    · contradiction
  | close number place =>
    obtain ⟨part, held, told⟩ := Option.bind_eq_some_iff.mp moved
    split at told
    · rename_i all
      cases told
      have counted : { batcher with updates := batcher.updates ++ part.1.updates part.2 }.Accounted :=
        accounted
      exact ⟨sound.close held all.2, counted.withSub held⟩
    · contradiction

def Idle (batcher : QueryBatcher) : Prop :=
  batcher.timer = false ∧
    ∀ number group, batcher.groups.get number = some group → ∀ sub ∈ group.subs, sub.closed = true

theorem sound_fresh : fresh.Sound network numbers :=
  ⟨fun _ absurd => (nomatch absurd), fun _ absurd => (nomatch absurd),
    fun _ absurd => (nomatch absurd), fun absurd => (absurd rfl).elim,
    fun _ _ absurd => (nomatch absurd), fun _ _ absurd => (nomatch absurd), fun _ _ => rfl,
    fun _ absurd => (nomatch absurd), fun _ absurd => (nomatch absurd)⟩

theorem Sound.settled (sound : batcher.Sound network numbers) (accounted : batcher.Accounted)
    (idle : batcher.Idle) (less : call < batcher.calls.length) :
    (batcher.outcomes.map Outcome.call).count call = 1 := by
  have whole := accounted call
  have none : batcher.pending = [] := by
    by_contra some_
    have armed := sound.armed some_
    rw [idle.1] at armed
    contradiction
  have nothing : batcher.groups.weight (fun _ group => waiting call group) = 0 := by
    refine List.sum_eq_zero_iff_forall_eq_nat.mpr fun count member => ?_
    obtain ⟨entry, listed, same⟩ := List.mem_map.mp member
    subst same
    have held : batcher.groups.get entry.1 = some entry.2 := OrderedMap.get_eq_some.mpr listed
    unfold waiting
    dsimp only
    split
    · rfl
    · rename_i open_
      obtain ⟨sub, member, unresolved⟩ :=
        sound.settles entry.1 entry.2 held (Bool.eq_false_iff.mpr open_)
      have resolved := ((sound.groups entry.1 entry.2 held).1.subs sub member).closed
        (idle.2 entry.1 entry.2 held sub member)
      rw [unresolved] at resolved
      contradiction
  unfold places at whole
  rw [none, nothing, if_pos less] at whole
  simpa using whole

/-- Each promise settles once, and what it settles with when the pool has closed, like every
update, is exactly what its query alone would have returned. -/
theorem queries_are_answered
    (reaches : Reaches (step numbers network) (Orderly network numbers) fresh batcher) :
    (∀ call, (batcher.outcomes.map Outcome.call).count call ≤ 1) ∧
      (batcher.Idle → ∀ call < batcher.calls.length,
        (batcher.outcomes.map Outcome.call).count call = 1) ∧
      (∀ outcome ∈ batcher.outcomes, outcome.complete = true →
        Told network batcher.calls outcome.call outcome.events) ∧
      ∀ update ∈ batcher.updates, Told network batcher.calls update.1 update.2 := by
  have whole : batcher.Sound network numbers ∧ batcher.Accounted := by
    refine @Reaches.invariant _ _ _ _ _ _
      (fun batcher => batcher.Sound network numbers ∧ batcher.Accounted) reaches
      ⟨sound_fresh, fun _ => rfl⟩ fun _ _ _ held orderly moved => ?_
    exact sound_step held.1 held.2 orderly moved
  obtain ⟨sound, accounted⟩ := whole
  refine ⟨fun call => ?_, fun idle call less => sound.settled accounted idle less, sound.outcomes,
    sound.updates⟩
  have total := accounted call
  unfold places at total
  split at total <;> omega

/-! ### Two queries of one relay -/

def note (id : String) (created_at : Int) : NostrEvent := ⟨id, "alice", 1, created_at, []⟩

def notes : Network where
  relay _ := ⟨[note "1" 1, note "2" 2], fun _ _ => false⟩
  identified := by
    intro _ _ event member copy member' same
    simp only [List.mem_cons, List.not_mem_nil, or_false] at member member'
    rcases member with here | here <;> rcases member' with there | there <;> subst here there
    · rfl
    · exact absurd same (by decide)
    · exact absurd same (by decide)
    · rfl

def byAuthor (kind : Int) (author : String) (limit : Own Int) : Query :=
  ⟨["wss://a"], { kinds := some (some [kind]), authors := some (some [author]), limit }⟩

def merged : List Move :=
  [.query (byAuthor 1 "alice" none) false, .query (byAuthor 3 "alice" none) false, .debounced,
    .event 0 0 (note "1" 1), .event 0 0 (note "2" 2), .close 0 0]

def limited : List Move :=
  [.query (byAuthor 1 "alice" (some (some 1))) false,
    .query (byAuthor 1 "bob" (some (some 1))) false, .debounced,
    .event 0 0 (note "1" 1), .event 0 0 (note "2" 2), .close 0 0]

def settledWith (batcher : QueryBatcher) : List (Nat × List NostrEvent × Bool) :=
  batcher.outcomes.map fun outcome => (outcome.call, outcome.events, outcome.complete)

def firstGroup (batcher : QueryBatcher) : Option (List NostrFilter) :=
  (batcher.part 0 0).map fun part => part.1.queries.map PendingQuery.filter

theorem sifted_of_firstGroup {event : NostrEvent}
    (asks : batcher.firstGroup =
      some [(byAuthor 1 "alice" none).filter, (byAuthor 3 "alice" none).filter]) :
    Orderly notes numbers batcher (.event 0 0 event) := by
  intro part held
  have filters : part.1.queries.map PendingQuery.filter =
      [(byAuthor 1 "alice" none).filter, (byAuthor 3 "alice" none).filter] := by
    unfold firstGroup at asks
    rw [held] at asks
    exact Option.some.inj asks
  refine ⟨fun single => ?_, fun _ index q at_ _ _ => .inl ?_⟩
  · have length := congrArg List.length filters
    rw [List.length_map, single] at length
    contradiction
  · have listed : q.filter ∈ part.1.queries.map PendingQuery.filter :=
      List.mem_map_of_mem (List.mem_of_getElem? at_)
    rw [filters] at listed
    have plain : ∀ kind, Rechecked (byAuthor kind "alice" none).filter event := fun _ =>
      ⟨rfl, fun absurd => (nomatch absurd), fun absurd => (nomatch absurd), rfl,
        fun _ absurd => (nomatch absurd)⟩
    rcases List.mem_cons.mp listed with first | later
    · exact first ▸ plain 1
    · exact List.mem_singleton.mp later ▸ plain 3

theorem queries_are_answered_merged :
    ∃ batcher, exec (step Json.plainNumbers notes) fresh merged = some batcher ∧
      ∀ outcome ∈ batcher.outcomes, outcome.complete = true ∧
        Told notes batcher.calls outcome.call outcome.events := by
  have ran : (exec (step Json.plainNumbers notes) fresh merged).map settledWith =
      some [(0, [note "1" 1, note "2" 2], true), (1, [], true)] := by
    decide +kernel
  obtain ⟨batcher, executed, settled⟩ := Option.map_eq_some_iff.mp ran
  let asked := (fresh.query Json.plainNumbers (byAuthor 1 "alice" none) false).query
    Json.plainNumbers (byAuthor 3 "alice" none) false
  have flushed : asked.flush.firstGroup =
      some [(byAuthor 1 "alice" none).filter, (byAuthor 3 "alice" none).filter] := by
    decide +kernel
  have told : (step Json.plainNumbers notes asked.flush (.event 0 0 (note "1" 1))).map firstGroup =
      some (some [(byAuthor 1 "alice" none).filter, (byAuthor 3 "alice" none).filter]) := by
    decide +kernel
  have reaches : Reaches (step Json.plainNumbers notes) (Orderly notes Json.plainNumbers) fresh
      batcher := by
    refine .of_permitted executed ⟨fun _ absurd => (nomatch absurd), fun _ first => ?_⟩
    cases first
    refine ⟨fun q member => ?_, fun _ second => ?_⟩
    · cases List.mem_singleton.mp member
      exact ⟨fun _ => rfl, fun _ _ => Iff.rfl⟩
    cases second
    refine ⟨trivial, fun _ third => ?_⟩
    cases third
    refine ⟨sifted_of_firstGroup flushed, fun _ fourth => ?_⟩
    refine ⟨sifted_of_firstGroup ?_, fun _ _ => ⟨trivial, fun _ _ => trivial⟩⟩
    exact Option.some.inj ((congrArg (Option.map firstGroup) fourth).symm.trans told)
  refine ⟨batcher, executed, fun outcome member => ?_⟩
  have complete : outcome.complete = true := by
    have listed : (outcome.call, outcome.events, outcome.complete) ∈ settledWith batcher :=
      List.mem_map.mpr ⟨outcome, member, rfl⟩
    rw [settled] at listed
    rcases List.mem_cons.mp listed with first | later
    · exact congrArg (fun entry => entry.2.2) first
    · exact congrArg (fun entry => entry.2.2) (List.mem_singleton.mp later)
  exact ⟨complete, (queries_are_answered reaches).2.2.1 outcome member complete⟩

/-- Alice's older note is in the result of the query for her last one. -/
theorem queries_are_not_answered_alone :
    ∃ batcher, exec (step Json.plainNumbers notes) fresh limited = some batcher ∧
      ∃ outcome ∈ batcher.outcomes, outcome.complete = true ∧
        ¬ Told notes batcher.calls outcome.call outcome.events := by
  have ran : (exec (step Json.plainNumbers notes) fresh limited).map
      (fun batcher => (settledWith batcher, batcher.calls)) =
      some ([(0, [note "1" 1, note "2" 2], true), (1, [], true)],
        [byAuthor 1 "alice" (some (some 1)), byAuthor 1 "bob" (some (some 1))]) := by
    decide +kernel
  obtain ⟨batcher, executed, found⟩ := Option.map_eq_some_iff.mp ran
  obtain ⟨settled, calls⟩ := Prod.mk.inj found
  have first : (0, [note "1" 1, note "2" 2], true) ∈ settledWith batcher := by
    rw [settled]
    exact List.mem_cons_self
  obtain ⟨outcome, member, same⟩ := List.mem_map.mp first
  obtain ⟨call, rest⟩ := Prod.mk.inj same
  obtain ⟨events, complete⟩ := Prod.mk.inj rest
  refine ⟨batcher, executed, outcome, member, complete, ?_⟩
  rintro ⟨query, asked, exact_⟩
  rw [calls, call] at asked
  cases asked
  have older : ¬ notes.Answers ["wss://a"] (byAuthor 1 "alice" (some (some 1))).filter (note "1" 1) := by
    decide +kernel
  refine older ((exact_.2 _).mp ?_)
  rw [events]
  exact List.mem_cons_self

end QueryBatcher

end NostrWot.Relay
