import NostrWot.Relay.Coalescer
import Mathlib.Data.Finset.Card

namespace NostrWot.Relay

open NostrWot.Data NostrWot.Sync

/-! # Queries of the coalescer

A query is a consumer that gathers events until each of its relays has reported the end of its
stored events, or its time is over.
-/

variable {Event Filter : Type}

def Heard.eose? : Heard Event → Option String
  | .event _ => none
  | .eose relay => some relay

structure Queries (Event Filter : Type) where
  coalescer : RequestCoalescer Event Filter
  results : Nat → Option (List Event)
  expired : Nat → Bool
  /-- The ends of stored events that the pool has called back: for which filter of a subscription,
  and from which relay. -/
  reported : Nat → List (Nat × String)

namespace Queries

open RequestCoalescer

def fresh : Queries Event Filter := ⟨.fresh, fun _ => none, fun _ => false, fun _ => []⟩

variable (nostr : Nostr Event Filter)

/-- The `events` of a query, which takes every id once. -/
def gather (heard : List (Heard Event)) : List Event :=
  (heard.filterMap Heard.event?).foldl (fun events event =>
    if nostr.id event ∈ events.map nostr.id then events else events ++ [event]) []

def eosedRelays (entry : EntryHandle Event Filter) : Finset String :=
  (entry.heard.filterMap Heard.eose?).toFinset

def isAnswered (entry : EntryHandle Event Filter) : Bool :=
  entry.req.relays.length ≤ (eosedRelays entry).card

def finish (state : Queries Event Filter) (query : Nat) : Queries Event Filter :=
  if (state.results query).isSome then state
  else { state with
    coalescer := state.coalescer.closeEntry query
    results := Function.update state.results query
      (some (gather nostr (state.coalescer.handles query).heard)) }

def onEose (state : Queries Event Filter) (query : Nat) (relay : String) : Queries Event Filter :=
  let told := { state with coalescer := state.coalescer.tell query (.eose relay) }
  if isAnswered (told.coalescer.handles query) then finish nostr told query else told

/-- `for (const h of active.entries) h.req.onEose?.(relay)`: a query that resolves takes itself out
of the list that is being walked. -/
def eachEose (relay : String) (sub : Nat) : Nat → Nat → Queries Event Filter → Queries Event Filter
  | 0, _, state => state
  | calls + 1, index, state =>
    match (state.coalescer.subs sub).entries[index]? with
    | none => state
    | some query => eachEose relay sub calls (index + 1) (onEose nostr state query relay)

inductive Move (Event Filter : Type) where
  | querySync (filters : List Filter) (relays : List String)
  | flush
  | fire
  | adopt
  /-- The pool has an event for one filter of a subscription. -/
  | event (sub filter : Nat) (event : Event)
  | eose (sub filter : Nat) (relay : String)
  | timeout (sub : Nat)
  | expire (query : Nat)

def within (state : Queries Event Filter) (move : RequestCoalescer.Move Event Filter) :
    Option (Queries Event Filter) :=
  (state.coalescer.step nostr move).map fun next => { state with coalescer := next }

def step (state : Queries Event Filter) : Move Event Filter → Option (Queries Event Filter)
  | .querySync filters relays => within nostr state (.act (.enqueue ⟨filters, relays⟩))
  | .flush => within nostr state .flush
  | .fire => within nostr state .fire
  | .adopt => within nostr state .adopt
  | .event sub filter event =>
    if ((state.coalescer.subs sub).filters[filter]?).any (fun asked => nostr.matchFilter asked event) then
      within nostr state (.event sub event [])
    else none
  | .eose sub filter relay =>
    let asked := state.coalescer.subs sub
    if sub < state.coalescer.fired ∧ asked.closed = false ∧ filter < asked.filters.length ∧
        relay ∈ asked.relays ∧ (filter, relay) ∉ state.reported sub then
      some (eachEose nostr relay sub asked.entries.length 0 { state with
        reported := Function.update state.reported sub ((filter, relay) :: state.reported sub) })
    else none
  | .timeout sub => within nostr state (.timeout sub)
  | .expire query =>
    if query < state.coalescer.enqueued ∧ (state.results query).isNone then
      some (finish nostr { state with expired := Function.update state.expired query true } query)
    else none

/-! ## What a query is promised -/

def Complete (state : Queries Event Filter) (query : Nat) : Prop :=
  let req := (state.coalescer.handles query).req
  ∀ relay ∈ req.relays, ∀ asked ∈ req.filters, ∃ sub filter,
    (state.coalescer.handles query).joined = some sub ∧
      (state.coalescer.subs sub).filters[filter]? = some asked ∧ (filter, relay) ∈ state.reported sub

/-- What a query resolves with: the valid events of its filters that were delivered while it ran,
each once, and all of them unless its time was over. -/
structure Resolved (state : Queries Event Filter) (query : Nat) (events : List Event) : Prop where
  complete : state.expired query = false → Complete state query
  valid : ∀ event ∈ events, nostr.verifyEvent event = true ∧
    wants nostr (state.coalescer.handles query).req event = true
  once : (events.map nostr.id).Nodup
  delivered : ∀ event ∈ events, event ∈ (state.coalescer.handles query).due
  all : ∀ event ∈ (state.coalescer.handles query).due, nostr.id event ∈ events.map nostr.id

def Uniform (state : RequestCoalescer Event Filter) (group : Nat) : Prop :=
  ∀ query ∈ (state.groups group).entries,
    sortRelays (state.handles query).req.relays = (state.groups group).relays ∧
      ∀ other ∈ (state.groups group).entries, ∀ asked ∈ (state.handles other).req.filters,
        (state.handles query).req.filters ≠ [] ∧
          ∀ filter ∈ (state.handles query).req.filters, filter = asked

def Regular (state : Queries Event Filter) : Move Event Filter → Prop
  | .fire => ∀ group ∈ state.coalescer.flushed.head?, Uniform state.coalescer group
  | .event sub _ event => nostr.verifyEvent event = true →
      nostr.id event ∉ (state.coalescer.subs sub).forged
  | _ => True

end Queries

/-! ## What closing and telling change -/

namespace RequestCoalescer

variable {nostr : Nostr Event Filter} {state next : RequestCoalescer Event Filter}

/-- The lists that a consumer is taken out of, and those that it stays in. -/
structure Shrinks (state : RequestCoalescer Event Filter) (handle : Nat) (groups : Nat → PendingGroup)
    (pending : OrderedMap String Nat) (subs : Nat → ActiveSub Filter) : Prop where
  fewer : pending.values.Sublist state.pending.values
  group : ∀ group, (groups group).relays = (state.groups group).relays ∧
    ((groups group).entries = (state.groups group).entries ∧
        (state.handles handle).group ≠ some group ∨
      (groups group).entries = (state.groups group).entries.erase handle)
  sub : ∀ sub, (subs sub).relays = (state.subs sub).relays ∧
    (subs sub).filters = (state.subs sub).filters ∧ (subs sub).seen = (state.subs sub).seen ∧
    (subs sub).forged = (state.subs sub).forged ∧
    ((subs sub).entries = (state.subs sub).entries ∨
      (subs sub).entries = (state.subs sub).entries.erase handle)

theorem leaveSub_lists (state : RequestCoalescer Event Filter) (handle sub other : Nat) :
    let subs := (state.leaveSub handle sub).subs
    (subs other).relays = (state.subs other).relays ∧
      (subs other).filters = (state.subs other).filters ∧
      (subs other).seen = (state.subs other).seen ∧ (subs other).forged = (state.subs other).forged ∧
      ((subs other).entries = (state.subs other).entries ∨
        (subs other).entries = (state.subs other).entries.erase handle) := by
  dsimp only [leaveSub]
  by_cases same : other = sub
  · subst same
    rw [Function.update_self]
    exact ⟨rfl, rfl, rfl, rfl, .inr rfl⟩
  · rw [Function.update_of_ne same]
    exact ⟨rfl, rfl, rfl, rfl, .inl rfl⟩

theorem closeEntry_eq (state : RequestCoalescer Event Filter) (handle : Nat) :
    ∃ groups pending timer subs active, state.closeEntry handle = { state with
        groups := groups
        pending := pending
        timer := timer
        subs := subs
        handles := Function.update state.handles handle
          { state.handles handle with group := none, active := active, torn := true } } ∧
      Shrinks state handle groups pending subs := by
  have kept : ∀ sub, (state.subs sub).relays = (state.subs sub).relays ∧
      (state.subs sub).filters = (state.subs sub).filters ∧
      (state.subs sub).seen = (state.subs sub).seen ∧
      (state.subs sub).forged = (state.subs sub).forged ∧
      ((state.subs sub).entries = (state.subs sub).entries ∨
        (state.subs sub).entries = (state.subs sub).entries.erase handle) :=
    fun _ => ⟨rfl, rfl, rfl, rfl, .inl rfl⟩
  unfold closeEntry
  dsimp only
  cases grouped : (state.handles handle).group with
  | none =>
    have lists : ∀ group, (state.groups group).relays = (state.groups group).relays ∧
        ((state.groups group).entries = (state.groups group).entries ∧
            (state.handles handle).group ≠ some group ∨
          (state.groups group).entries = (state.groups group).entries.erase handle) := by
      intro group
      rw [grouped]
      exact ⟨rfl, .inl ⟨rfl, nofun⟩⟩
    cases active : (state.handles handle).active with
    | none =>
      exact ⟨state.groups, state.pending, state.timer, state.subs, none, rfl,
        List.Sublist.refl _, lists, kept⟩
    | some sub =>
      dsimp only
      split
      · exact ⟨state.groups, state.pending, state.timer, state.subs, some sub, rfl,
          List.Sublist.refl _, lists, kept⟩
      · exact ⟨state.groups, state.pending, state.timer, _, none, rfl, List.Sublist.refl _, lists,
          leaveSub_lists state handle sub⟩
  | some group =>
    obtain ⟨pending, timer, is, fewer⟩ := leaveGroup_eq state handle group
    have lists : ∀ other, (Function.update state.groups group { state.groups group with
        entries := (state.groups group).entries.erase handle } other).relays =
          (state.groups other).relays ∧
        ((Function.update state.groups group { state.groups group with
            entries := (state.groups group).entries.erase handle } other).entries =
              (state.groups other).entries ∧ (state.handles handle).group ≠ some other ∨
          (Function.update state.groups group { state.groups group with
            entries := (state.groups group).entries.erase handle } other).entries =
              (state.groups other).entries.erase handle) := by
      intro other
      rw [grouped]
      by_cases same : other = group
      · subst same
        rw [Function.update_self]
        exact ⟨rfl, .inr rfl⟩
      · rw [Function.update_of_ne same]
        exact ⟨rfl, .inl ⟨rfl, fun equal => same (Option.some.inj equal).symm⟩⟩
    dsimp only
    rw [is]
    cases active : (state.handles handle).active with
    | none => exact ⟨_, pending, timer, state.subs, none, rfl, fewer, lists, kept⟩
    | some sub =>
      dsimp only
      split
      · exact ⟨_, pending, timer, state.subs, some sub, rfl, fewer, lists, kept⟩
      · exact ⟨_, pending, timer, _, none, rfl, fewer, lists, leaveSub_lists state handle sub⟩

theorem tellEach_eq (heard : Heard Event) {told : List Nat} (apart : told.Nodup) :
    told.foldl (fun state handle => state.tell handle heard) state = { state with
      handles := fun handle =>
        if handle ∈ told then
          { state.handles handle with heard := (state.handles handle).heard ++ [heard] }
        else state.handles handle } := by
  induction told generalizing state with
  | nil => rfl
  | cons first rest ih =>
    obtain ⟨other, apart⟩ := List.nodup_cons.mp apart
    rw [List.foldl_cons, ih apart]
    unfold tell put
    dsimp only
    congr 1
    funext handle
    by_cases same : handle = first
    · subst same
      rw [if_neg other, if_pos List.mem_cons_self, Function.update_self]
    · rw [Function.update_of_ne same]
      simp only [List.mem_cons, same, false_or]

theorem fanOut_quiet (heard : Heard Event) (sub calls index : Nat) :
    fanOut heard sub calls index [] state =
      (((state.subs sub).entries.drop index).take calls).foldl
        (fun state handle => state.tell handle heard) state := by
  induction calls generalizing index state with
  | zero => rfl
  | succ calls ih =>
    unfold fanOut
    cases at_ : (state.subs sub).entries[index]? with
    | none => rw [List.drop_eq_nil_of_le (List.getElem?_eq_none_iff.mp at_)]; rfl
    | some handle =>
      obtain ⟨less, is⟩ := List.getElem?_eq_some_iff.mp at_
      rw [List.drop_eq_getElem_cons less, List.take_succ_cons, is]
      exact ih (index + 1)

theorem fanOut_all (heard : Heard Event) {sub : Nat} (apart : (state.subs sub).entries.Nodup) :
    fanOut heard sub (state.subs sub).entries.length 0 [] state = { state with
      handles := fun handle =>
        if handle ∈ (state.subs sub).entries then
          { state.handles handle with heard := (state.handles handle).heard ++ [heard] }
        else state.handles handle } := by
  rw [fanOut_quiet, List.drop_zero, List.take_length, tellEach_eq heard apart]

end RequestCoalescer

namespace Queries

open RequestCoalescer

/-! ## The invariant -/

variable {nostr : Nostr Event Filter} {state next : Queries Event Filter}
variable {coalescer : RequestCoalescer Event Filter} {query sub : Nat}

structure Grouped (coalescer : RequestCoalescer Event Filter) : Prop where
  unborn : ∀ query, coalescer.enqueued ≤ query →
    coalescer.handles query = RequestCoalescer.fresh.handles query
  once : coalescer.waiting.Nodup
  numbered : ∀ group ∈ coalescer.waiting, group < coalescer.grouped
  distinct : ∀ group ∈ coalescer.waiting, (coalescer.groups group).entries.Nodup
  waits : ∀ group ∈ coalescer.waiting, ∀ query ∈ (coalescer.groups group).entries,
    query < coalescer.enqueued ∧ (coalescer.handles query).group = some group ∧
      (coalescer.handles query).joined = none ∧ (coalescer.handles query).torn = false

structure Serves (coalescer : RequestCoalescer Event Filter) (sub query : Nat) : Prop where
  fired : sub < coalescer.fired
  listed : (coalescer.handles query).torn = false → query ∈ (coalescer.subs sub).entries
  relays : (coalescer.subs sub).relays = sortRelays (coalescer.handles query).req.relays
  asks : (coalescer.handles query).req.filters ⊆ (coalescer.subs sub).filters
  alike : ∀ asked ∈ (coalescer.subs sub).filters, (coalescer.handles query).req.filters ≠ [] ∧
    ∀ filter ∈ (coalescer.handles query).req.filters, filter = asked

structure Served (coalescer : RequestCoalescer Event Filter) : Prop where
  serves : ∀ query sub, (coalescer.handles query).joined = some sub → Serves coalescer sub query
  member : ∀ sub, ∀ query ∈ (coalescer.subs sub).entries, (coalescer.handles query).joined = some sub
  distinct : ∀ sub, (coalescer.subs sub).entries.Nodup

structure Gathered (nostr : Nostr Event Filter) (coalescer : RequestCoalescer Event Filter) : Prop where
  silent : ∀ query, (coalescer.handles query).joined = none →
    (coalescer.handles query).heard = [] ∧ (coalescer.handles query).due = []
  once : ∀ query, (receivedIds nostr (coalescer.handles query)).Nodup
  valid : ∀ query, ∀ event ∈ received (coalescer.handles query),
    nostr.verifyEvent event = true ∧ wants nostr (coalescer.handles query).req event = true
  seen : ∀ query sub, (coalescer.handles query).joined = some sub →
    receivedIds nostr (coalescer.handles query) ⊆ (coalescer.subs sub).seen
  caught : ∀ sub, ∀ query ∈ (coalescer.subs sub).entries, ∀ id ∈ (coalescer.subs sub).seen,
    id ∉ (coalescer.subs sub).forged → id ∈ receivedIds nostr (coalescer.handles query)
  due : ∀ query, ∀ event ∈ (coalescer.handles query).due,
    nostr.id event ∈ receivedIds nostr (coalescer.handles query)
  paid : ∀ query, (coalescer.handles query).torn = false →
    ∀ event ∈ received (coalescer.handles query), event ∈ (coalescer.handles query).due

structure Reported (state : Queries Event Filter) : Prop where
  asked : ∀ sub filter relay, (filter, relay) ∈ state.reported sub →
    sub < state.coalescer.fired ∧ filter < (state.coalescer.subs sub).filters.length ∧
      relay ∈ (state.coalescer.subs sub).relays
  heard : ∀ query, ∀ relay ∈ eosedRelays (state.coalescer.handles query), ∃ sub filter,
    (state.coalescer.handles query).joined = some sub ∧ (filter, relay) ∈ state.reported sub

structure Sound (nostr : Nostr Event Filter) (state : Queries Event Filter) : Prop where
  grouped : Grouped state.coalescer
  served : Served state.coalescer
  gathered : Gathered nostr state.coalescer
  reported : Reported state
  settled : ∀ query, (state.results query).isSome = (state.coalescer.handles query).torn
  resolved : ∀ query events, state.results query = some events → Resolved nostr state query events

/-! ## Resolving -/

theorem gather_eq {heard : List (Heard Event)}
    (once : ((heard.filterMap Heard.event?).map nostr.id).Nodup) :
    gather nostr heard = heard.filterMap Heard.event? := by
  have from_ : ∀ more events : List Event, ((events ++ more).map nostr.id).Nodup →
      more.foldl (fun events event =>
        if nostr.id event ∈ events.map nostr.id then events else events ++ [event]) events =
          events ++ more := by
    intro more
    induction more with
    | nil => exact fun events _ => (List.append_nil events).symm
    | cons event rest ih =>
      intro events apart
      have new : nostr.id event ∉ events.map nostr.id := by
        rw [List.map_append, List.map_cons, List.nodup_middle, List.nodup_cons] at apart
        exact fun among => apart.1 (List.mem_append_left _ among)
      rw [List.foldl_cons, if_neg new, ih _ (by rwa [List.append_assoc]), List.append_assoc]
      rfl
  exact from_ _ [] once

theorem Sound.complete (sound : Sound nostr state)
    (answered : isAnswered (state.coalescer.handles query) = true) : Complete state query := by
  have enough : (state.coalescer.handles query).req.relays.length ≤
      (eosedRelays (state.coalescer.handles query)).card := of_decide_eq_true answered
  have asked : ∀ relay ∈ eosedRelays (state.coalescer.handles query),
      relay ∈ (state.coalescer.handles query).req.relays := by
    intro relay among
    obtain ⟨sub, filter, joined, reported⟩ := sound.reported.heard query relay among
    have listed := (sound.reported.asked sub filter relay reported).2.2
    rw [(sound.served.serves query sub joined).relays] at listed
    exact (List.perm_insertionSort _ _).mem_iff.mp listed
  have all : eosedRelays (state.coalescer.handles query) =
      (state.coalescer.handles query).req.relays.toFinset := by
    apply Finset.eq_of_subset_of_card_le
    · exact fun relay among => List.mem_toFinset.mpr (asked relay among)
    · exact (List.toFinset_card_le _).trans enough
  intro relay among filter own
  have heard : relay ∈ eosedRelays (state.coalescer.handles query) := by
    rw [all]
    exact List.mem_toFinset.mpr among
  obtain ⟨sub, place, joined, reported⟩ := sound.reported.heard query relay heard
  have less := (sound.reported.asked sub place relay reported).2.1
  have same := ((sound.served.serves query sub joined).alike _ (List.getElem_mem less)).2 filter own
  exact ⟨sub, place, joined, same ▸ List.getElem?_eq_getElem less, reported⟩

/-! ## What a move leaves as it was -/

/-- The subscriptions serve whom they served, but for those that are torn down. -/
structure Steady (before after : RequestCoalescer Event Filter) : Prop where
  fired : after.fired = before.fired
  handle : ∀ query, (after.handles query).req = (before.handles query).req ∧
    (after.handles query).joined = (before.handles query).joined
  torn : ∀ query, (after.handles query).torn = false → (before.handles query).torn = false
  sub : ∀ sub, (after.subs sub).relays = (before.subs sub).relays ∧
    (after.subs sub).filters = (before.subs sub).filters
  entries : ∀ sub, (after.subs sub).entries.Sublist (before.subs sub).entries
  listed : ∀ sub, ∀ query ∈ (before.subs sub).entries,
    (after.handles query).torn = false → query ∈ (after.subs sub).entries

/-- Nobody is told anything. -/
structure Mute (before after : RequestCoalescer Event Filter) : Prop extends Steady before after where
  heard : ∀ query, (after.handles query).heard = (before.handles query).heard ∧
    (after.handles query).due = (before.handles query).due
  seen : ∀ sub, (after.subs sub).seen = (before.subs sub).seen ∧
    (after.subs sub).forged = (before.subs sub).forged

variable {after : RequestCoalescer Event Filter}

theorem Served.steady (served : Served coalescer) (steady : Steady coalescer after) : Served after := by
  constructor
  · intro query sub joined
    rw [(steady.handle query).2] at joined
    obtain ⟨fired, listed, relays, asks, alike⟩ := served.serves query sub joined
    obtain ⟨sameRelays, sameFilters⟩ := steady.sub sub
    have req := (steady.handle query).1
    constructor
    · rw [steady.fired]
      exact fired
    · exact fun untorn => steady.listed sub query (listed (steady.torn query untorn)) untorn
    · rw [sameRelays, req]
      exact relays
    · rw [sameFilters, req]
      exact asks
    · rw [sameFilters, req]
      exact alike
  · intro sub query among
    rw [(steady.handle query).2]
    exact served.member sub query ((steady.entries sub).subset among)
  · exact fun sub => (served.distinct sub).sublist (steady.entries sub)

theorem Gathered.mute (gathered : Gathered nostr coalescer) (mute : Mute coalescer after) :
    Gathered nostr after := by
  have got : ∀ query, received (after.handles query) = received (coalescer.handles query) :=
    fun query => received_congr (mute.heard query).1
  have ids : ∀ query, receivedIds nostr (after.handles query) =
      receivedIds nostr (coalescer.handles query) := fun query => receivedIds_congr (mute.heard query).1
  constructor
  · intro query alone
    rw [(mute.handle query).2] at alone
    rw [(mute.heard query).1, (mute.heard query).2]
    exact gathered.silent query alone
  · intro query
    rw [ids]
    exact gathered.once query
  · intro query
    rw [got, (mute.handle query).1]
    exact gathered.valid query
  · intro query sub joined
    rw [(mute.handle query).2] at joined
    rw [ids, (mute.seen sub).1]
    exact gathered.seen query sub joined
  · intro sub query among id
    rw [ids, (mute.seen sub).1, (mute.seen sub).2]
    exact gathered.caught sub query ((mute.entries sub).subset among) id
  · intro query
    rw [ids, (mute.heard query).2]
    exact gathered.due query
  · intro query untorn
    rw [got, (mute.heard query).2]
    exact gathered.paid query (mute.torn query untorn)

theorem Resolved.keep {events : List Event} (resolved : Resolved nostr state query events)
    (expired : next.expired query = state.expired query)
    (req : (next.coalescer.handles query).req = (state.coalescer.handles query).req)
    (joined : (next.coalescer.handles query).joined = (state.coalescer.handles query).joined)
    (due : (next.coalescer.handles query).due = (state.coalescer.handles query).due)
    (filters : ∀ sub, (state.coalescer.handles query).joined = some sub →
      (next.coalescer.subs sub).filters = (state.coalescer.subs sub).filters)
    (more : ∀ sub, state.reported sub ⊆ next.reported sub) : Resolved nostr next query events := by
  obtain ⟨complete, valid, once, delivered, all⟩ := resolved
  constructor
  · intro alive relay listed asked own
    rw [expired] at alive
    rw [req] at listed own
    obtain ⟨sub, filter, serves, found, reported⟩ := complete alive relay listed asked own
    refine ⟨sub, filter, joined.trans serves, ?_, more sub reported⟩
    rw [filters sub serves]
    exact found
  · rw [req]
    exact valid
  · exact once
  · rw [due]
    exact delivered
  · rw [due]
    exact all

theorem Sound.mute (sound : Sound nostr state) (grouped : Grouped after)
    (mute : Mute state.coalescer after)
    (torn : ∀ query, (after.handles query).torn = (state.coalescer.handles query).torn) :
    Sound nostr { state with coalescer := after } := by
  constructor
  · exact grouped
  · exact sound.served.steady mute.toSteady
  · exact sound.gathered.mute mute
  · constructor
    · intro sub filter relay reported
      dsimp only
      rw [mute.fired, (mute.sub sub).1, (mute.sub sub).2]
      exact sound.reported.asked sub filter relay reported
    · intro query relay among
      dsimp only [eosedRelays] at among ⊢
      rw [(mute.heard query).1] at among
      rw [(mute.handle query).2]
      exact sound.reported.heard query relay among
  · exact fun query => (sound.settled query).trans (torn query).symm
  · intro query events resolved
    obtain ⟨req, joined⟩ := mute.handle query
    exact (sound.resolved query events resolved).keep rfl req joined (mute.heard query).2
      (fun sub _ => (mute.sub sub).2) fun _ => List.Subset.refl _

/-! ## Moves of the coalescer -/

theorem Grouped.requeue (grouped : Grouped coalescer) {pending : OrderedMap String Nat} {timer : Bool}
    {flushed : List Nat} (once : (pending.values ++ flushed).Nodup)
    (fewer : pending.values ++ flushed ⊆ coalescer.waiting) :
    Grouped { coalescer with pending := pending, timer := timer, flushed := flushed } := by
  constructor
  · exact grouped.unborn
  · exact once
  · exact fun group among => grouped.numbered group (fewer among)
  · exact fun group among => grouped.distinct group (fewer among)
  · exact fun group among => grouped.waits group (fewer among)

theorem Sound.flush (sound : Sound nostr state) : Sound nostr { state with
    coalescer := { state.coalescer with
      timer := false
      flushed := state.coalescer.flushed ++ state.coalescer.pending.values
      pending := ∅ } } := by
  have queued : (∅ : OrderedMap String Nat).values ++
      (state.coalescer.flushed ++ state.coalescer.pending.values) =
        state.coalescer.flushed ++ state.coalescer.pending.values := List.nil_append _
  have once : ((∅ : OrderedMap String Nat).values ++
      (state.coalescer.flushed ++ state.coalescer.pending.values)).Nodup := by
    rw [queued]
    exact List.nodup_append_comm.mp sound.grouped.once
  have fewer : (∅ : OrderedMap String Nat).values ++
      (state.coalescer.flushed ++ state.coalescer.pending.values) ⊆ state.coalescer.waiting := by
    rw [queued]
    intro group among
    exact List.mem_append.mpr (List.mem_append.mp among).symm
  exact sound.mute (sound.grouped.requeue once fewer) ⟨⟨rfl, fun _ => ⟨rfl, rfl⟩, fun _ => id,
    fun _ => ⟨rfl, rfl⟩, fun _ => List.Sublist.refl _, fun _ _ among _ => among⟩,
    fun _ => ⟨rfl, rfl⟩, fun _ => ⟨rfl, rfl⟩⟩ fun _ => rfl

theorem Sound.timeout (sound : Sound nostr state) (sub : Nat) : Sound nostr { state with
    coalescer := { state.coalescer with
      subs := Function.update state.coalescer.subs sub { state.coalescer.subs sub with closed := true }
      handles := fun handle =>
        let old := state.coalescer.handles handle
        if handle ∈ (state.coalescer.subs sub).entries then { old with active := none } else old } } := by
  have handle : ∀ query, (if query ∈ (state.coalescer.subs sub).entries then
      { state.coalescer.handles query with active := none } else state.coalescer.handles query) =
        { state.coalescer.handles query with
          active := if query ∈ (state.coalescer.subs sub).entries then none
            else (state.coalescer.handles query).active } := by
    intro query
    split <;> rfl
  have sub_ : ∀ other, ∃ closed, Function.update state.coalescer.subs sub
      { state.coalescer.subs sub with closed := true } other =
        { state.coalescer.subs other with closed := closed } := by
    intro other
    by_cases same : other = sub
    · subst same
      exact ⟨true, Function.update_self ..⟩
    · exact ⟨_, Function.update_of_ne same ..⟩
  refine sound.mute ?_ ⟨⟨rfl, ?_, ?_, ?_, ?_, ?_⟩, ?_, ?_⟩ ?_
  · obtain ⟨unborn, once, numbered, distinct, waits⟩ := sound.grouped
    constructor
    · intro query late
      dsimp only
      rw [handle, unborn query late]
      split <;> rfl
    · exact once
    · exact numbered
    · exact distinct
    · intro group among query listed
      dsimp only
      rw [handle]
      exact waits group among query listed
  all_goals dsimp only
  · exact fun query => by rw [handle]; exact ⟨rfl, rfl⟩
  · exact fun query => by rw [handle]; exact id
  · intro other
    obtain ⟨closed, is⟩ := sub_ other
    rw [is]
    exact ⟨rfl, rfl⟩
  · intro other
    obtain ⟨closed, is⟩ := sub_ other
    rw [is]
  · intro other query among _
    obtain ⟨closed, is⟩ := sub_ other
    rw [is]
    exact among
  · exact fun query => by rw [handle]; exact ⟨rfl, rfl⟩
  · intro other
    obtain ⟨closed, is⟩ := sub_ other
    rw [is]
    exact ⟨rfl, rfl⟩
  · exact fun query => by rw [handle]

theorem Sound.adopt (sound : Sound nostr state) (sub : Nat) :
    Sound nostr { state with coalescer := state.coalescer.adopt sub } := by
  have handle : ∀ query, ∃ group active, (state.coalescer.adopt sub).handles query =
      { state.coalescer.handles query with group := group, active := active } ∧
        ((state.coalescer.handles query).joined = none → group = (state.coalescer.handles query).group ∧
          active = (state.coalescer.handles query).active) := by
    intro query
    unfold RequestCoalescer.adopt
    dsimp only
    split
    · next among =>
      refine ⟨none, some sub, rfl, fun alone => ?_⟩
      rw [sound.served.member sub query among] at alone
      contradiction
    · exact ⟨_, _, rfl, fun _ => ⟨rfl, rfl⟩⟩
  refine sound.mute ?_ ⟨⟨rfl, ?_, ?_, fun _ => ⟨rfl, rfl⟩, fun _ => List.Sublist.refl _,
    fun _ _ among _ => among⟩, ?_, fun _ => ⟨rfl, rfl⟩⟩ ?_
  · obtain ⟨unborn, once, numbered, distinct, waits⟩ := sound.grouped
    constructor
    · intro query late
      obtain ⟨group, active, is, kept⟩ := handle query
      have old := unborn query late
      have alone : (state.coalescer.handles query).joined = none := by rw [old]; rfl
      rw [is, (kept alone).1, (kept alone).2]
      exact old
    · exact once
    · exact numbered
    · exact distinct
    · intro group among query listed
      obtain ⟨less, inGroup, alone, untorn⟩ := waits group among query listed
      obtain ⟨other, active, is, kept⟩ := handle query
      rw [is, (kept alone).1]
      exact ⟨less, inGroup, alone, untorn⟩
  all_goals
    intro query
    obtain ⟨group, active, is, -⟩ := handle query
    rw [is]
  · exact ⟨rfl, rfl⟩
  · exact id
  · exact ⟨rfl, rfl⟩

theorem Grouped.enqueue (grouped : Grouped coalescer) (req : CoalescerEnqueue Filter) :
    Grouped (coalescer.enqueue req) := by
  obtain ⟨unborn, once, numbered, distinct, waits⟩ := grouped
  -- The new query is in no group yet.
  have new : ∀ group ∈ coalescer.waiting, coalescer.enqueued ∉ (coalescer.groups group).entries :=
    fun group among listed => Nat.lt_irrefl _ (waits group among _ listed).1
  have others : ∀ {query : Nat} {entry : EntryHandle Event Filter}, query ≠ coalescer.enqueued →
      Function.update coalescer.handles coalescer.enqueued entry query = coalescer.handles query :=
    fun differs => Function.update_of_ne differs _ _
  cases found : coalescer.pending.get (relayKeyOf req.relays) with
  | some group =>
    have waiting : (coalescer.enqueue req).waiting = coalescer.waiting := by
      unfold RequestCoalescer.waiting RequestCoalescer.enqueue
      dsimp only
      rw [found, Option.getD_some, OrderedMap.set_of_get found]
    have here : group ∈ coalescer.waiting :=
      List.mem_append_left _ (List.mem_map_of_mem (OrderedMap.get_eq_some.mp found))
    have groups : (coalescer.enqueue req).groups = Function.update coalescer.groups group
        { coalescer.groups group with
          entries := (coalescer.groups group).entries ++ [coalescer.enqueued] } := by
      unfold RequestCoalescer.enqueue
      dsimp only
      rw [found, Option.getD_some]
    have handles : (coalescer.enqueue req).handles = Function.update coalescer.handles
        coalescer.enqueued ⟨req, some group, none, none, false, [], []⟩ := by
      unfold RequestCoalescer.enqueue
      dsimp only
      rw [found, Option.getD_some]
    have count : (coalescer.enqueue req).grouped = coalescer.grouped := by
      unfold RequestCoalescer.enqueue
      dsimp only
      rw [found, Option.isSome_some, if_pos rfl]
    have enqueued : (coalescer.enqueue req).enqueued = coalescer.enqueued + 1 := rfl
    constructor
    · intro query late
      rw [enqueued] at late
      rw [handles, others (by omega)]
      exact unborn query (by omega)
    · exact waiting ▸ once
    · rw [waiting, count]
      exact numbered
    · intro other among
      rw [waiting] at among
      rw [groups]
      by_cases same : other = group
      · subst same
        rw [Function.update_self]
        exact List.nodup_append_comm.mp (List.nodup_cons.mpr ⟨new other among, distinct other among⟩)
      · rw [Function.update_of_ne same]
        exact distinct other among
    · intro other among query listed
      rw [waiting] at among
      rw [groups] at listed
      rw [handles, enqueued]
      have cases_ : query ∈ (coalescer.groups other).entries ∨
          other = group ∧ query = coalescer.enqueued := by
        by_cases same : other = group
        · subst same
          rw [Function.update_self] at listed
          exact (List.mem_append.mp listed).imp id fun last => ⟨rfl, List.mem_singleton.mp last⟩
        · rw [Function.update_of_ne same] at listed
          exact .inl listed
      rcases cases_ with before | ⟨rfl, rfl⟩
      · obtain ⟨less, inGroup, alone⟩ := waits other among query before
        rw [others (Nat.ne_of_lt less)]
        exact ⟨by omega, inGroup, alone⟩
      · rw [Function.update_self]
        exact ⟨Nat.lt_succ_self _, rfl, rfl, rfl⟩
  | none =>
    have values : ((coalescer.enqueue req).pending).values =
        coalescer.pending.values ++ [coalescer.grouped] := by
      unfold RequestCoalescer.enqueue OrderedMap.values
      dsimp only
      rw [found, Option.getD_none, OrderedMap.entries_set_of_none found]
      simp
    have waiting : ∀ group, group ∈ (coalescer.enqueue req).waiting ↔
        group ∈ coalescer.waiting ∨ group = coalescer.grouped := by
      intro group
      unfold RequestCoalescer.waiting
      rw [values]
      simp only [List.mem_append, List.mem_singleton]
      exact or_right_comm
    have groups : (coalescer.enqueue req).groups = Function.update coalescer.groups coalescer.grouped
        ⟨relayKeyOf req.relays, sortRelays req.relays, [coalescer.enqueued]⟩ := by
      unfold RequestCoalescer.enqueue
      dsimp only
      rw [found, Option.getD_none]
      rfl
    have handles : (coalescer.enqueue req).handles = Function.update coalescer.handles
        coalescer.enqueued ⟨req, some coalescer.grouped, none, none, false, [], []⟩ := by
      unfold RequestCoalescer.enqueue
      dsimp only
      rw [found, Option.getD_none]
    have count : (coalescer.enqueue req).grouped = coalescer.grouped + 1 := by
      unfold RequestCoalescer.enqueue
      dsimp only
      rw [found, Option.isSome_none, if_neg Bool.false_ne_true]
    have enqueued : (coalescer.enqueue req).enqueued = coalescer.enqueued + 1 := rfl
    have unused : coalescer.grouped ∉ coalescer.waiting :=
      fun among => Nat.lt_irrefl _ (numbered _ among)
    have old : ∀ group ∈ coalescer.waiting, group ≠ coalescer.grouped :=
      fun group among same => unused (same ▸ among)
    constructor
    · intro query late
      rw [enqueued] at late
      rw [handles, others (by omega)]
      exact unborn query (by omega)
    · unfold RequestCoalescer.waiting
      rw [values, List.append_assoc, List.singleton_append, List.nodup_middle, List.nodup_cons]
      exact ⟨unused, once⟩
    · intro group among
      rw [count]
      rcases (waiting group).mp among with before | last
      · exact Nat.lt_succ_of_lt (numbered group before)
      · omega
    · intro group among
      rw [groups]
      rcases (waiting group).mp among with before | rfl
      · rw [Function.update_of_ne (old group before)]
        exact distinct group before
      · rw [Function.update_self]
        exact List.nodup_singleton _
    · intro group among query listed
      rw [groups] at listed
      rw [handles, enqueued]
      rcases (waiting group).mp among with before | rfl
      · rw [Function.update_of_ne (old group before)] at listed
        obtain ⟨less, inGroup, alone⟩ := waits group before query listed
        rw [others (Nat.ne_of_lt less)]
        exact ⟨by omega, inGroup, alone⟩
      · rw [Function.update_self] at listed
        rw [List.mem_singleton.mp listed, Function.update_self]
        exact ⟨Nat.lt_succ_self _, rfl, rfl, rfl⟩

theorem Sound.enqueue (sound : Sound nostr state) (req : CoalescerEnqueue Filter) :
    Sound nostr { state with coalescer := state.coalescer.enqueue req } := by
  have born : ∀ query, query = state.coalescer.enqueued ∨
      (state.coalescer.enqueue req).handles query = state.coalescer.handles query := by
    intro query
    by_cases same : query = state.coalescer.enqueued
    · exact .inl same
    · exact .inr (Function.update_of_ne same _ _)
  have unborn := sound.grouped.unborn _ (Nat.le_refl state.coalescer.enqueued)
  have last : ∃ group, (state.coalescer.enqueue req).handles state.coalescer.enqueued =
      ⟨req, group, none, none, false, [], []⟩ := ⟨_, Function.update_self _ _ _⟩
  obtain ⟨group, last⟩ := last
  have listed : ∀ sub, state.coalescer.enqueued ∉ (state.coalescer.subs sub).entries := by
    intro sub among
    have joined := sound.served.member sub _ among
    rw [unborn] at joined
    contradiction
  constructor
  · exact sound.grouped.enqueue req
  · obtain ⟨serves, member, distinct⟩ := sound.served
    constructor
    · intro query sub joined
      dsimp only at joined
      rcases born query with rfl | same
      · rw [last] at joined
        contradiction
      · rw [same] at joined
        obtain ⟨fired, listed, relays, asks, alike⟩ := serves query sub joined
        constructor
        · exact fired
        all_goals
          dsimp only
          rw [same]
        · exact listed
        · exact relays
        · exact asks
        · exact alike
    · intro sub query among
      dsimp only
      rcases born query with rfl | same
      · exact absurd among (listed sub)
      · rw [same]
        exact member sub query among
    · exact distinct
  · obtain ⟨silent, once, valid, seen, caught, due, paid⟩ := sound.gathered
    constructor
    all_goals dsimp only
    · intro query
      rcases born query with rfl | same
      · rw [last]
        exact fun _ => ⟨rfl, rfl⟩
      · rw [same]
        exact silent query
    · intro query
      rcases born query with rfl | same
      · rw [last]
        exact List.nodup_nil
      · rw [same]
        exact once query
    · intro query
      rcases born query with rfl | same
      · rw [last]
        exact fun event among => absurd among List.not_mem_nil
      · rw [same]
        exact valid query
    · intro query sub joined
      rcases born query with rfl | same
      · rw [last] at joined
        contradiction
      · rw [same] at joined ⊢
        exact seen query sub joined
    · intro sub query among
      rcases born query with rfl | same
      · exact absurd among (listed sub)
      · rw [same]
        exact caught sub query among
    · intro query
      rcases born query with rfl | same
      · rw [last]
        exact fun event among => absurd among List.not_mem_nil
      · rw [same]
        exact due query
    · intro query
      rcases born query with rfl | same
      · rw [last]
        exact fun _ event among => absurd among List.not_mem_nil
      · rw [same]
        exact paid query
  · constructor
    · exact sound.reported.asked
    · intro query relay among
      dsimp only at among ⊢
      rcases born query with rfl | same
      · rw [last] at among
        exact absurd among (Finset.notMem_empty relay)
      · rw [same] at among ⊢
        exact sound.reported.heard query relay among
  · intro query
    dsimp only
    rcases born query with rfl | same
    · rw [last, sound.settled, unborn]
      rfl
    · rw [same]
      exact sound.settled query
  · intro query events resolved
    have settled := sound.settled query
    dsimp only at resolved
    rcases born query with rfl | same
    · rw [resolved, unborn] at settled
      contradiction
    · exact (sound.resolved query events resolved).keep rfl (congrArg EntryHandle.req same)
        (congrArg EntryHandle.joined same) (congrArg EntryHandle.due same) (fun _ _ => rfl)
        fun _ => List.Subset.refl _

theorem Sound.fireGroup {group : Nat} (sound : Sound nostr state)
    (left : group ∉ state.coalescer.waiting) (distinct : (state.coalescer.groups group).entries.Nodup)
    (waits : ∀ query ∈ (state.coalescer.groups group).entries, query < state.coalescer.enqueued ∧
      (state.coalescer.handles query).group = some group ∧
        (state.coalescer.handles query).joined = none ∧
          (state.coalescer.handles query).torn = false)
    (uniform : Uniform state.coalescer group) :
    Sound nostr { state with coalescer := state.coalescer.fireGroup group } := by
  unfold RequestCoalescer.fireGroup
  dsimp only
  split
  · exact sound
  have handle : ∀ query, ∃ joined, (if query ∈ (state.coalescer.groups group).entries then
      { state.coalescer.handles query with joined := some state.coalescer.fired }
      else state.coalescer.handles query) = { state.coalescer.handles query with joined := joined } ∧
      (query ∈ (state.coalescer.groups group).entries → joined = some state.coalescer.fired) ∧
      (query ∉ (state.coalescer.groups group).entries →
        joined = (state.coalescer.handles query).joined) := by
    intro query
    split
    · next among => exact ⟨_, rfl, fun _ => rfl, fun outside => absurd among outside⟩
    · next outside => exact ⟨_, rfl, fun among => absurd among outside, fun _ => rfl⟩
  have unfired : ∀ query, (state.coalescer.handles query).joined ≠ some state.coalescer.fired :=
    fun query joined => Nat.lt_irrefl _ (sound.served.serves query _ joined).fired
  have silent : ∀ query ∈ (state.coalescer.groups group).entries,
      (state.coalescer.handles query).heard = [] ∧ (state.coalescer.handles query).due = [] :=
    fun query among => sound.gathered.silent query (waits query among).2.2.1
  have older : ∀ {sub : Nat} {new : ActiveSub Filter}, sub < state.coalescer.fired →
      Function.update state.coalescer.subs state.coalescer.fired new sub = state.coalescer.subs sub :=
    fun less => Function.update_of_ne (Nat.ne_of_lt less) _ _
  constructor
  · obtain ⟨unborn, once, numbered, apart, others⟩ := sound.grouped
    constructor
    · intro query late
      dsimp only at late ⊢
      obtain ⟨joined, is, -, kept⟩ := handle query
      rw [is, kept fun among => Nat.not_lt.mpr late (waits query among).1]
      exact unborn query late
    · exact once
    · exact numbered
    · exact apart
    · intro other among query listed
      obtain ⟨less, inGroup, alone⟩ := others other among query listed
      have outside : query ∉ (state.coalescer.groups group).entries := by
        intro listed
        have same := (waits query listed).2.1
        rw [inGroup] at same
        exact left (Option.some.inj same ▸ among)
      obtain ⟨joined, is, -, kept⟩ := handle query
      dsimp only
      rw [is, kept outside]
      exact ⟨less, inGroup, alone⟩
  · obtain ⟨serves, member, single⟩ := sound.served
    constructor
    · intro query sub joined
      obtain ⟨now, is, mine, kept⟩ := handle query
      dsimp only at joined
      rw [is] at joined
      by_cases among : query ∈ (state.coalescer.groups group).entries
      · have same : state.coalescer.fired = sub :=
          Option.some.inj ((mine among).symm.trans joined)
        subst same
        obtain ⟨relays, alike⟩ := uniform query among
        constructor
        · exact Nat.lt_succ_self _
        all_goals
          dsimp only
          rw [is, Function.update_self]
        · exact fun _ => among
        · exact relays.symm
        · exact fun filter own => List.mem_flatMap.mpr ⟨query, among, own⟩
        · intro asked listed
          obtain ⟨other, among, own⟩ := List.mem_flatMap.mp listed
          exact alike other among asked own
      · have joined := (kept among).symm.trans joined
        obtain ⟨fired, listed, relays, asks, alike⟩ := serves query sub joined
        constructor
        · exact Nat.lt_succ_of_lt fired
        all_goals
          dsimp only
          rw [is, older fired]
        · exact listed
        · exact relays
        · exact asks
        · exact alike
    · intro sub query listed
      obtain ⟨now, is, mine, kept⟩ := handle query
      dsimp only at listed ⊢
      rw [is]
      by_cases here : sub = state.coalescer.fired
      · subst here
        rw [Function.update_self] at listed
        exact mine listed
      · rw [Function.update_of_ne here] at listed
        have joined := member sub query listed
        have outside : query ∉ (state.coalescer.groups group).entries := by
          intro among
          rw [(waits query among).2.2.1] at joined
          contradiction
        exact (kept outside).trans joined
    · intro sub
      dsimp only
      by_cases here : sub = state.coalescer.fired
      · subst here
        rw [Function.update_self]
        exact distinct
      · rw [Function.update_of_ne here]
        exact single sub
  · obtain ⟨unheard, once, valid, seen, caught, due, paid⟩ := sound.gathered
    constructor
    all_goals dsimp only
    · intro query alone
      obtain ⟨now, is, mine, kept⟩ := handle query
      rw [is] at alone ⊢
      by_cases among : query ∈ (state.coalescer.groups group).entries
      · exact silent query among
      · exact unheard query ((kept among).symm.trans alone)
    · intro query
      obtain ⟨now, is, -⟩ := handle query
      rw [is]
      exact once query
    · intro query
      obtain ⟨now, is, -⟩ := handle query
      rw [is]
      exact valid query
    · intro query sub joined
      obtain ⟨now, is, mine, kept⟩ := handle query
      rw [is] at joined ⊢
      by_cases among : query ∈ (state.coalescer.groups group).entries
      · unfold receivedIds received
        dsimp only
        rw [(silent query among).1]
        exact List.nil_subset _
      · have joined := (kept among).symm.trans joined
        rw [older (sound.served.serves query sub joined).fired]
        exact seen query sub joined
    · intro sub query listed
      obtain ⟨now, is, -⟩ := handle query
      rw [is]
      by_cases here : sub = state.coalescer.fired
      · subst here
        rw [Function.update_self]
        exact fun id among => absurd among List.not_mem_nil
      · rw [Function.update_of_ne here] at listed ⊢
        exact caught sub query listed
    · intro query
      obtain ⟨now, is, -⟩ := handle query
      rw [is]
      exact due query
    · intro query
      obtain ⟨now, is, -⟩ := handle query
      rw [is]
      exact paid query
  · constructor
    · intro sub filter relay reported
      obtain ⟨less, place, listed⟩ := sound.reported.asked sub filter relay reported
      dsimp only
      rw [older less]
      exact ⟨Nat.lt_succ_of_lt less, place, listed⟩
    · intro query relay among
      obtain ⟨now, is, mine, kept⟩ := handle query
      dsimp only at among ⊢
      rw [is] at among ⊢
      by_cases listed : query ∈ (state.coalescer.groups group).entries
      · unfold eosedRelays at among
        dsimp only at among
        rw [(silent query listed).1] at among
        exact absurd among (Finset.notMem_empty relay)
      · obtain ⟨sub, filter, joined, reported⟩ := sound.reported.heard query relay among
        exact ⟨sub, filter, (kept listed).trans joined, reported⟩
  · intro query
    obtain ⟨now, is, -⟩ := handle query
    dsimp only
    rw [is]
    exact sound.settled query
  · intro query events resolved
    have outside : query ∉ (state.coalescer.groups group).entries := by
      intro among
      have settled := sound.settled query
      dsimp only at resolved
      rw [resolved, (waits query among).2.2.2] at settled
      contradiction
    refine (sound.resolved query events resolved).keep rfl ?_ ?_ ?_ ?_ fun _ => List.Subset.refl _
    all_goals dsimp only
    · rw [if_neg outside]
    · rw [if_neg outside]
    · rw [if_neg outside]
    · intro sub joined
      rw [older (sound.served.serves query sub joined).fired]

theorem Sound.fire {group : Nat} {rest : List Nat} (sound : Sound nostr state)
    (flushed : state.coalescer.flushed = group :: rest) (uniform : Uniform state.coalescer group) :
    Sound nostr { state with
      coalescer := RequestCoalescer.fireGroup { state.coalescer with flushed := rest } group } := by
  have here : group ∈ state.coalescer.waiting := by
    unfold RequestCoalescer.waiting
    rw [flushed]
    exact List.mem_append_right _ List.mem_cons_self
  have fewer : (state.coalescer.pending.values ++ rest).Sublist state.coalescer.waiting := by
    unfold RequestCoalescer.waiting
    rw [flushed]
    exact (List.Sublist.refl _).append (List.sublist_cons_self _ _)
  have left : group ∉ state.coalescer.pending.values ++ rest := by
    have once := sound.grouped.once
    unfold RequestCoalescer.waiting at once
    rw [flushed, List.nodup_middle, List.nodup_cons] at once
    exact once.1
  have base : Sound nostr { state with coalescer := { state.coalescer with flushed := rest } } :=
    sound.mute (sound.grouped.requeue (sound.grouped.once.sublist fewer) fewer.subset)
      ⟨⟨rfl, fun _ => ⟨rfl, rfl⟩, fun _ => id, fun _ => ⟨rfl, rfl⟩, fun _ => List.Sublist.refl _,
        fun _ _ among _ => among⟩, fun _ => ⟨rfl, rfl⟩, fun _ => ⟨rfl, rfl⟩⟩ fun _ => rfl
  exact base.fireGroup left (sound.grouped.distinct group here) (sound.grouped.waits group here) uniform

/-! ## Ends of stored events -/

theorem Grouped.close (grouped : Grouped coalescer) (born : query < coalescer.enqueued) :
    Grouped (coalescer.closeEntry query) := by
  obtain ⟨groups, pending, timer, subs, active, is, fewer, lists, -⟩ := closeEntry_eq coalescer query
  have queues := values_sublist fewer
  have kept : ∀ group ∈ coalescer.waiting, ∀ other ∈ (groups group).entries,
      other ∈ (coalescer.groups group).entries ∧ other ≠ query := by
    intro group among other listed
    rcases (lists group).2 with ⟨same, elsewhere⟩ | erased
    · rw [same] at listed
      refine ⟨listed, fun equal => elsewhere ?_⟩
      exact equal ▸ (grouped.waits group among other listed).2.1
    · rw [erased] at listed
      refine ⟨List.mem_of_mem_erase listed, fun equal => ?_⟩
      exact (grouped.distinct group among).not_mem_erase (equal ▸ listed)
  rw [is]
  constructor
  · intro other late
    dsimp only at late ⊢
    rw [Function.update_of_ne (by omega)]
    exact grouped.unborn other late
  · exact grouped.once.sublist queues
  · exact fun group among => grouped.numbered group (queues.subset among)
  · intro group among
    have distinct := grouped.distinct group (queues.subset among)
    rcases (lists group).2 with ⟨same, -⟩ | erased
    · exact same ▸ distinct
    · exact erased ▸ distinct.erase query
  · intro group among other listed
    obtain ⟨listed, differs⟩ := kept group (queues.subset among) other listed
    dsimp only
    rw [Function.update_of_ne differs]
    exact grouped.waits group (queues.subset among) other listed

theorem Sound.finish (sound : Sound nostr state) (born : query < state.coalescer.enqueued)
    (ends : state.expired query = true ∨ isAnswered (state.coalescer.handles query) = true) :
    Sound nostr (Queries.finish nostr state query) := by
  unfold Queries.finish
  split
  · exact sound
  next unresolved =>
  have running : (state.coalescer.handles query).torn = false := by
    rw [← sound.settled query]
    exact Bool.eq_false_iff.mpr unresolved
  have grouped := sound.grouped.close born
  obtain ⟨groups, pending, timer, subs, active, is, -, -, sub_⟩ := closeEntry_eq state.coalescer query
  have handle : ∀ other, ∃ group active torn, (state.coalescer.closeEntry query).handles other =
      { state.coalescer.handles other with group := group, active := active, torn := torn } ∧
      (other = query → torn = true) ∧
      (other ≠ query → torn = (state.coalescer.handles other).torn) := by
    intro other
    rw [is]
    dsimp only
    by_cases same : other = query
    · subst same
      exact ⟨none, active, true, Function.update_self .., fun _ => rfl, fun differs => absurd rfl differs⟩
    · exact ⟨_, _, _, Function.update_of_ne same .., fun equal => absurd equal same, fun _ => rfl⟩
  have mute : Mute state.coalescer (state.coalescer.closeEntry query) := by
    refine ⟨⟨?_, ?_, ?_, ?_, ?_, ?_⟩, ?_, ?_⟩
    · rw [is]
    · intro other
      obtain ⟨_, _, _, same, -⟩ := handle other
      rw [same]
      exact ⟨rfl, rfl⟩
    · intro other
      obtain ⟨_, _, torn, same, mine, kept⟩ := handle other
      rw [same]
      intro untorn
      by_cases equal : other = query
      · exact absurd ((mine equal).symm.trans untorn) (by decide)
      · exact (kept equal).symm.trans untorn
    · intro sub
      rw [is]
      exact ⟨(sub_ sub).1, (sub_ sub).2.1⟩
    · intro sub
      rw [is]
      rcases (sub_ sub).2.2.2.2 with same | erased
      · exact same ▸ List.Sublist.refl _
      · exact erased ▸ List.erase_sublist
    · intro sub other among untorn
      have differs : other ≠ query := by
        intro equal
        obtain ⟨_, _, torn, same, mine, -⟩ := handle other
        rw [same] at untorn
        exact absurd ((mine equal).symm.trans untorn) (by decide)
      rw [is]
      rcases (sub_ sub).2.2.2.2 with same | erased
      · exact same ▸ among
      · exact erased ▸ (List.mem_erase_of_ne differs).mpr among
    · intro other
      obtain ⟨_, _, _, same, -⟩ := handle other
      rw [same]
      exact ⟨rfl, rfl⟩
    · intro sub
      rw [is]
      exact ⟨(sub_ sub).2.2.1, (sub_ sub).2.2.2.1⟩
  constructor
  · exact grouped
  · exact sound.served.steady mute.toSteady
  · exact sound.gathered.mute mute
  · constructor
    · intro sub filter relay reported
      dsimp only
      rw [mute.fired, (mute.sub sub).1, (mute.sub sub).2]
      exact sound.reported.asked sub filter relay reported
    · intro other relay among
      dsimp only [eosedRelays] at among ⊢
      rw [(mute.heard other).1] at among
      rw [(mute.handle other).2]
      exact sound.reported.heard other relay among
  · intro other
    obtain ⟨_, _, torn, same, mine, kept⟩ := handle other
    dsimp only
    rw [same]
    by_cases equal : other = query
    · subst equal
      rw [Function.update_self, mine rfl]
      rfl
    · rw [Function.update_of_ne equal, kept equal]
      exact sound.settled other
  · intro other events resolved
    dsimp only at resolved
    have resolved_ : Resolved nostr state other events := by
      by_cases equal : other = query
      · subst equal
        rw [Function.update_self, gather_eq (sound.gathered.once other)] at resolved
        have got : received (state.coalescer.handles other) = events := Option.some.inj resolved
        constructor
        · intro alive
          rcases ends with late | answered
          · rw [alive] at late
            contradiction
          · exact sound.complete answered
        · exact got ▸ sound.gathered.valid other
        · exact got ▸ sound.gathered.once other
        · exact got ▸ sound.gathered.paid other running
        · exact got ▸ sound.gathered.due other
      · rw [Function.update_of_ne equal] at resolved
        exact sound.resolved other events resolved
    obtain ⟨req, joined⟩ := mute.handle other
    exact resolved_.keep rfl req joined (mute.heard other).2 (fun sub _ => (mute.sub sub).2)
      fun _ => List.Subset.refl _

variable {filter : Nat} {relay : String}

theorem Sound.told (sound : Sound nostr state)
    (joined : (state.coalescer.handles query).joined = some sub)
    (reported : (filter, relay) ∈ state.reported sub) :
    Sound nostr { state with coalescer := state.coalescer.tell query (.eose relay) } := by
  have told := tell_handle state.coalescer query (.eose relay)
  have got : ∀ other, received ((state.coalescer.tell query (.eose relay)).handles other) =
      received (state.coalescer.handles other) := by
    intro other
    rw [(told other).2.2.2.2]
    split <;> exact List.append_nil _
  have ids : ∀ other, receivedIds nostr ((state.coalescer.tell query (.eose relay)).handles other) =
      receivedIds nostr (state.coalescer.handles other) := fun other => congrArg (List.map _) (got other)
  have others : ∀ other, (state.coalescer.handles other).joined = none →
      (state.coalescer.tell query (.eose relay)).handles other = state.coalescer.handles other := by
    intro other alone
    apply Function.update_of_ne
    intro equal
    rw [equal, joined] at alone
    contradiction
  have steady : Steady state.coalescer (state.coalescer.tell query (.eose relay)) := by
    refine ⟨rfl, fun other => ⟨(told other).1, (told other).2.1⟩, fun other untorn => ?_,
      fun _ => ⟨rfl, rfl⟩, fun _ => List.Sublist.refl _, fun _ _ among _ => among⟩
    rw [(told other).2.2.1] at untorn
    exact untorn
  constructor
  · obtain ⟨unborn, once, numbered, distinct, waits⟩ := sound.grouped
    constructor
    · intro other late
      have old := unborn other late
      dsimp only
      rw [others other (by rw [old]; rfl)]
      exact old
    · exact once
    · exact numbered
    · exact distinct
    · intro group among other listed
      have old := waits group among other listed
      dsimp only
      rw [others other old.2.2.1]
      exact old
  · exact sound.served.steady steady
  · obtain ⟨silent, once, valid, seen, caught, due, paid⟩ := sound.gathered
    constructor
    · intro other alone
      dsimp only at alone ⊢
      rw [(told other).2.1] at alone
      rw [others other alone]
      exact silent other alone
    · intro other
      rw [ids]
      exact once other
    · intro other
      rw [got, (told other).1]
      exact valid other
    · intro other sub joined
      rw [(told other).2.1] at joined
      rw [ids]
      exact seen other sub joined
    · intro sub other among id
      rw [ids]
      exact caught sub other among id
    · intro other
      rw [ids, (told other).2.2.2.1]
      exact due other
    · intro other
      rw [got, (told other).2.2.1, (told other).2.2.2.1]
      exact paid other
  · constructor
    · exact sound.reported.asked
    · intro other next among
      dsimp only at among ⊢
      rw [(told other).2.1]
      by_cases equal : other = query
      · subst equal
        have heard : ((state.coalescer.tell other (.eose relay)).handles other).heard =
            (state.coalescer.handles other).heard ++ [.eose relay] := by
          unfold RequestCoalescer.tell RequestCoalescer.put
          dsimp only
          rw [Function.update_self]
        unfold eosedRelays at among
        rw [heard, List.filterMap_append, List.toFinset_append, Finset.mem_union] at among
        rcases among with before | now
        · exact sound.reported.heard other next before
        · have same : next = relay := by simpa [Heard.eose?] using now
          exact ⟨sub, filter, joined, same ▸ reported⟩
      · have same : (state.coalescer.tell query (.eose relay)).handles other =
            state.coalescer.handles other := Function.update_of_ne equal _ _
        rw [same] at among
        exact sound.reported.heard other next among
  · intro other
    dsimp only
    rw [(told other).2.2.1]
    exact sound.settled other
  · intro other events resolved
    exact (sound.resolved other events resolved).keep rfl (told other).1 (told other).2.1
      (told other).2.2.2.1 (fun _ _ => rfl) fun _ => List.Subset.refl _

theorem Sound.onEose (sound : Sound nostr state)
    (joined : (state.coalescer.handles query).joined = some sub)
    (reported : (filter, relay) ∈ state.reported sub) :
    Sound nostr (Queries.onEose nostr state query relay) := by
  have told := sound.told joined reported
  unfold Queries.onEose
  dsimp only
  split
  · next answered =>
    have born : query < state.coalescer.enqueued := by
      by_contra late
      rw [sound.grouped.unborn query (Nat.le_of_not_lt late)] at joined
      contradiction
    exact told.finish born (.inr answered)
  · exact told

@[simp] theorem finish_reported (query : Nat) :
    (Queries.finish nostr state query).reported = state.reported := by
  unfold Queries.finish
  split <;> rfl

@[simp] theorem onEose_reported (query : Nat) (relay : String) :
    (Queries.onEose nostr state query relay).reported = state.reported := by
  unfold Queries.onEose
  dsimp only
  split
  · exact finish_reported query
  · rfl

theorem Sound.eachEose {calls index : Nat} (sound : Sound nostr state)
    (reported : (filter, relay) ∈ state.reported sub) :
    Sound nostr (Queries.eachEose nostr relay sub calls index state) := by
  induction calls generalizing index state with
  | zero => exact sound
  | succ calls ih =>
    unfold Queries.eachEose
    split
    · exact sound
    · next query found =>
      have joined := sound.served.member sub query (List.mem_of_getElem? found)
      apply ih (sound.onEose joined reported)
      rw [onEose_reported]
      exact reported

/-! ## Events -/

theorem Sound.receive {handles : Nat → EntryHandle Event Filter} {subs : Nat → ActiveSub Filter}
    (sound : Sound nostr state)
    (same : ∀ query, ∃ heard due, handles query =
        { state.coalescer.handles query with heard := heard, due := due } ∧
      ((state.coalescer.handles query).joined = none →
        heard = (state.coalescer.handles query).heard ∧ due = (state.coalescer.handles query).due) ∧
      ((state.coalescer.handles query).torn = true → due = (state.coalescer.handles query).due) ∧
      heard.filterMap Heard.eose? = (state.coalescer.handles query).heard.filterMap Heard.eose?)
    (alike : ∀ sub, ∃ seen forged, subs sub =
      { state.coalescer.subs sub with seen := seen, forged := forged })
    (gathered : Gathered nostr { state.coalescer with handles := handles, subs := subs }) :
    Sound nostr { state with
      coalescer := { state.coalescer with handles := handles, subs := subs } } := by
  have kept : ∀ query, (state.coalescer.handles query).joined = none →
      handles query = state.coalescer.handles query := by
    intro query alone
    obtain ⟨heard, due, is, silent, -⟩ := same query
    rw [is, (silent alone).1, (silent alone).2]
  constructor
  · obtain ⟨unborn, once, numbered, distinct, waits⟩ := sound.grouped
    constructor
    · intro query late
      have old := unborn query late
      dsimp only
      rw [kept query (by rw [old]; rfl)]
      exact old
    · exact once
    · exact numbered
    · exact distinct
    · intro group among query listed
      have old := waits group among query listed
      dsimp only
      rw [kept query old.2.2.1]
      exact old
  · apply sound.served.steady
    refine ⟨rfl, fun query => ?_, fun query => ?_, fun sub => ?_, fun sub => ?_, fun sub query => ?_⟩
    · obtain ⟨heard, due, is, -⟩ := same query
      dsimp only
      rw [is]
      exact ⟨rfl, rfl⟩
    · obtain ⟨heard, due, is, -⟩ := same query
      dsimp only
      rw [is]
      exact id
    all_goals
      obtain ⟨seen, forged, is⟩ := alike sub
      dsimp only
      rw [is]
    · exact ⟨rfl, rfl⟩
    · exact fun among _ => among
  · exact gathered
  · constructor
    · intro sub filter relay reported
      obtain ⟨seen, forged, is⟩ := alike sub
      dsimp only
      rw [is]
      exact sound.reported.asked sub filter relay reported
    · intro query relay among
      obtain ⟨heard, due, is, -, -, eosed⟩ := same query
      unfold eosedRelays at among
      dsimp only at among ⊢
      rw [is] at among ⊢
      rw [eosed] at among
      exact sound.reported.heard query relay among
  · intro query
    obtain ⟨heard, due, is, -⟩ := same query
    dsimp only
    rw [is]
    exact sound.settled query
  · intro query events resolved
    obtain ⟨heard, due, is, -, torn, -⟩ := same query
    have settled := sound.settled query
    dsimp only at resolved
    rw [resolved] at settled
    refine (sound.resolved query events resolved).keep rfl ?_ ?_ ?_ ?_ fun _ => List.Subset.refl _
    all_goals dsimp only
    · rw [is]
    · rw [is]
    · rw [is, torn settled.symm]
    · intro sub _
      obtain ⟨seen, forged, is⟩ := alike sub
      rw [is]

theorem Served.wants {event : Event} {asked : Filter} (served : Served coalescer)
    (joined : (coalescer.handles query).joined = some sub) (among : asked ∈ (coalescer.subs sub).filters)
    (matches_ : nostr.matchFilter asked event = true) :
    wants nostr (coalescer.handles query).req event = true := by
  obtain ⟨some_, alike⟩ := (served.serves query sub joined).alike asked among
  obtain ⟨filter, own⟩ := List.exists_mem_of_ne_nil _ some_
  exact List.any_eq_true.mpr ⟨filter, own, (alike filter own) ▸ matches_⟩

/-- The pool has an event again: it is due only to queries that have it. -/
theorem Sound.owe {event : Event} (sound : Sound nostr state)
    (caught : nostr.verifyEvent event = true → ∀ query ∈ (state.coalescer.subs sub).entries,
      nostr.id event ∈ receivedIds nostr (state.coalescer.handles query)) :
    Sound nostr { state with coalescer := state.coalescer.owe nostr sub event } := by
  unfold RequestCoalescer.owe
  split
  swap
  · exact sound
  next valid =>
  have same : ∀ query, ∃ due, (if (state.coalescer.handles query).joined = some sub ∧
      (state.coalescer.handles query).torn = false ∧
        wants nostr (state.coalescer.handles query).req event = true then
      { state.coalescer.handles query with due := (state.coalescer.handles query).due ++ [event] }
      else state.coalescer.handles query) = { state.coalescer.handles query with due := due } ∧
      (due = (state.coalescer.handles query).due ∨
        (state.coalescer.handles query).joined = some sub ∧
          (state.coalescer.handles query).torn = false ∧
          due = (state.coalescer.handles query).due ++ [event]) := by
    intro query
    split
    · next owed => exact ⟨_, rfl, .inr ⟨owed.1, owed.2.1, rfl⟩⟩
    · exact ⟨_, rfl, .inl rfl⟩
  refine sound.receive (fun query => ?_) (fun sub => ⟨_, _, rfl⟩) ?_
  · obtain ⟨due, is, owed⟩ := same query
    refine ⟨_, due, is, fun alone => ⟨rfl, ?_⟩, fun torn => ?_, rfl⟩
    · rcases owed with old | ⟨joined, -, -⟩
      · exact old
      · rw [alone] at joined
        contradiction
    · rcases owed with old | ⟨-, untorn, -⟩
      · exact old
      · rw [torn] at untorn
        contradiction
  · obtain ⟨silent, once, valid, seen, caught_, old, paid⟩ := sound.gathered
    constructor
    all_goals dsimp only
    · intro query alone
      obtain ⟨due, is, owed⟩ := same query
      rw [is] at alone ⊢
      rcases owed with kept | ⟨joined, -, -⟩
      · exact kept ▸ silent query alone
      · rw [joined] at alone
        contradiction
    · intro query
      obtain ⟨due, is, -⟩ := same query
      rw [is]
      exact once query
    · intro query
      obtain ⟨due, is, -⟩ := same query
      rw [is]
      exact valid query
    · intro query sub joined
      obtain ⟨due, is, -⟩ := same query
      rw [is] at joined ⊢
      exact seen query sub joined
    · intro sub query among
      obtain ⟨due, is, -⟩ := same query
      rw [is]
      exact caught_ sub query among
    · intro query one among
      obtain ⟨due, is, owed⟩ := same query
      rw [is] at among ⊢
      rcases owed with kept | ⟨joined, untorn, grown⟩
      · exact old query one (kept ▸ among)
      · rcases List.mem_append.mp (grown ▸ among) with before | now
        · exact old query one before
        · rw [List.mem_singleton.mp now]
          exact caught ‹_› query ((sound.served.serves query sub joined).listed untorn)
    · intro query untorn one among
      obtain ⟨due, is, owed⟩ := same query
      rw [is] at untorn among ⊢
      have before := paid query untorn one among
      rcases owed with kept | ⟨-, -, grown⟩
      · exact kept ▸ before
      · exact grown ▸ List.mem_append_left _ before

def delivered (nostr : Nostr Event Filter) (coalescer : RequestCoalescer Event Filter) (sub : Nat)
    (event : Event) : RequestCoalescer Event Filter :=
  { coalescer with
    handles := fun query =>
      let old := coalescer.handles query
      if query ∈ (coalescer.subs sub).entries then
        { old with
          heard := old.heard ++ [.event event]
          due := if old.torn then old.due else old.due ++ [event] }
      else old
    subs := Function.update coalescer.subs sub { coalescer.subs sub with
      seen := nostr.id event :: (coalescer.subs sub).seen } }

theorem delivered_eq {event : Event} (served : Served coalescer)
    (valid : nostr.verifyEvent event = true)
    (wanted : ∀ query ∈ (coalescer.subs sub).entries,
      wants nostr (coalescer.handles query).req event = true) :
    (fanOut (.event event) sub (coalescer.subs sub).entries.length 0 []
      (coalescer.see nostr sub event)).owe nostr sub event = delivered nostr coalescer sub event := by
  have entries : ((coalescer.see nostr sub event).subs sub).entries =
      (coalescer.subs sub).entries := by
    unfold RequestCoalescer.see
    dsimp only
    rw [Function.update_self]
  have apart : ((coalescer.see nostr sub event).subs sub).entries.Nodup :=
    entries ▸ served.distinct sub
  have fanned := fanOut_all (.event event) apart
  rw [entries] at fanned
  rw [fanned]
  unfold RequestCoalescer.owe RequestCoalescer.see delivered
  dsimp only
  rw [if_pos valid, if_pos valid]
  congr 1
  funext query
  by_cases among : query ∈ (coalescer.subs sub).entries
  · rw [if_pos among, if_pos among]
    dsimp only
    cases torn : (coalescer.handles query).torn with
    | false => rw [if_pos ⟨served.member sub query among, rfl, wanted query among⟩]; rfl
    | true => rw [if_neg fun owed => nomatch owed.2.1]; rfl
  · rw [if_neg among, if_neg among]
    apply if_neg
    intro owed
    exact among ((served.serves query sub owed.1).listed owed.2.1)

theorem Sound.deliver {event : Event} (sound : Sound nostr state)
    (valid : nostr.verifyEvent event = true)
    (new : nostr.id event ∉ (state.coalescer.subs sub).seen)
    (wanted : ∀ query ∈ (state.coalescer.subs sub).entries,
      wants nostr (state.coalescer.handles query).req event = true) :
    Sound nostr { state with coalescer := delivered nostr state.coalescer sub event } := by
  have member := sound.served.member sub
  have fresh : ∀ query ∈ (state.coalescer.subs sub).entries,
      nostr.id event ∉ receivedIds nostr (state.coalescer.handles query) :=
    fun query among held => new (sound.gathered.seen query sub (member query among) held)
  have told : ∀ {entry : EntryHandle Event Filter} {due : List Event},
      received { entry with heard := entry.heard ++ [.event event], due := due } =
        received entry ++ [event] := fun {entry due} => List.filterMap_append ..
  have ids : ∀ {entry : EntryHandle Event Filter} {due : List Event},
      receivedIds nostr { entry with heard := entry.heard ++ [.event event], due := due } =
        receivedIds nostr entry ++ [nostr.id event] := fun {entry due} => by
    unfold receivedIds
    rw [told, List.map_append]
    rfl
  unfold delivered
  refine sound.receive (fun query => ?_) (fun other => ?_) ?_
  · dsimp only
    split
    · next among =>
      refine ⟨_, _, rfl, fun alone => ?_, fun torn => ?_, ?_⟩
      · rw [member query among] at alone
        contradiction
      · rw [torn]
        rfl
      · rw [List.filterMap_append]
        exact List.append_nil _
    · exact ⟨_, _, rfl, fun _ => ⟨rfl, rfl⟩, fun _ => rfl, rfl⟩
  · by_cases same : other = sub
    · subst same
      exact ⟨_, _, Function.update_self ..⟩
    · exact ⟨_, _, Function.update_of_ne same ..⟩
  · obtain ⟨silent, once, genuine, seen, caught, due, paid⟩ := sound.gathered
    constructor
    all_goals dsimp only
    · intro query alone
      split at alone
      · next among =>
        rw [member query among] at alone
        contradiction
      · next outside =>
        rw [if_neg outside]
        exact silent query alone
    · intro query
      split
      · next among =>
        rw [ids, List.nodup_append]
        refine ⟨once query, List.nodup_singleton _, fun first old second now same => ?_⟩
        rw [List.mem_singleton.mp now] at same
        exact fresh query among (same ▸ old)
      · exact once query
    · intro query
      split
      · next among =>
        rw [told]
        intro one listed
        rcases List.mem_append.mp listed with before | now
        · exact genuine query one before
        · rw [List.mem_singleton.mp now]
          exact ⟨valid, wanted query among⟩
      · exact genuine query
    · intro query other joined
      split at joined
      · next among =>
        have same : sub = other := Option.some.inj ((member query among).symm.trans joined)
        subst same
        rw [if_pos among, ids, Function.update_self]
        intro id listed
        rcases List.mem_append.mp listed with before | now
        · exact List.mem_cons_of_mem _ (seen query sub joined before)
        · exact List.mem_singleton.mp now ▸ List.mem_cons_self
      · next outside =>
        rw [if_neg outside]
        by_cases same : other = sub
        · subst same
          rw [Function.update_self]
          exact List.Subset.trans (seen query other joined) (List.subset_cons_self _ _)
        · rw [Function.update_of_ne same]
          exact seen query other joined
    · intro other query among id held genuine_
      by_cases same : other = sub
      · subst same
        rw [Function.update_self] at among held genuine_
        rw [if_pos among, ids]
        rcases List.mem_cons.mp held with now | before
        · exact List.mem_append_right _ (List.mem_singleton.mpr now)
        · exact List.mem_append_left _ (caught other query among id before genuine_)
      · rw [Function.update_of_ne same] at among held genuine_
        have outside : query ∉ (state.coalescer.subs sub).entries := by
          intro here
          have joined := member query here
          rw [sound.served.member other query among] at joined
          exact same (Option.some.inj joined)
        rw [if_neg outside]
        exact caught other query among id held genuine_
    · intro query
      split
      · rw [ids]
        intro one listed
        dsimp only at listed
        split at listed
        · exact List.mem_append_left _ (due query one listed)
        · rcases List.mem_append.mp listed with before | now
          · exact List.mem_append_left _ (due query one before)
          · rw [List.mem_singleton.mp now]
            exact List.mem_append_right _ (List.mem_singleton_self _)
      · exact due query
    · intro query
      split
      · rw [told]
        intro untorn one listed
        dsimp only at untorn ⊢
        rw [untorn]
        rcases List.mem_append.mp listed with before | now
        · exact List.mem_append_left _ (paid query untorn one before)
        · exact List.mem_append_right _ now
      · exact paid query

theorem Sound.see {event : Event} (sound : Sound nostr state)
    (forged : nostr.verifyEvent event = false) :
    Sound nostr { state with coalescer := state.coalescer.see nostr sub event } := by
  unfold RequestCoalescer.see
  dsimp only
  have lists : ∀ other, Function.update state.coalescer.subs sub { state.coalescer.subs sub with
        seen := nostr.id event :: (state.coalescer.subs sub).seen
        forged := if nostr.verifyEvent event = true then (state.coalescer.subs sub).forged
          else nostr.id event :: (state.coalescer.subs sub).forged } other =
        state.coalescer.subs other ∧ other ≠ sub ∨
      other = sub ∧ Function.update state.coalescer.subs sub { state.coalescer.subs sub with
        seen := nostr.id event :: (state.coalescer.subs sub).seen
        forged := if nostr.verifyEvent event = true then (state.coalescer.subs sub).forged
          else nostr.id event :: (state.coalescer.subs sub).forged } other =
        { state.coalescer.subs other with
          seen := nostr.id event :: (state.coalescer.subs other).seen
          forged := nostr.id event :: (state.coalescer.subs other).forged } := by
    intro other
    by_cases same : other = sub
    · subst same
      rw [Function.update_self, if_neg (by rw [forged]; decide)]
      exact .inr ⟨rfl, rfl⟩
    · exact .inl ⟨Function.update_of_ne same .., same⟩
  refine sound.receive (fun query => ⟨_, _, rfl, fun _ => ⟨rfl, rfl⟩, fun _ => rfl, rfl⟩)
    (fun other => ?_) ?_
  · rcases lists other with ⟨is, -⟩ | ⟨-, is⟩
    · exact ⟨_, _, is⟩
    · exact ⟨_, _, is⟩
  · obtain ⟨silent, once, valid, seen, caught, due, paid⟩ := sound.gathered
    refine ⟨silent, once, valid, fun query other joined => ?_, fun other query => ?_, due, paid⟩
    all_goals
      dsimp only
      rcases lists other with ⟨is, -⟩ | ⟨-, is⟩ <;> rw [is]
    · exact seen query other joined
    · exact List.Subset.trans (seen query other joined) (List.subset_cons_self _ _)
    · exact caught other query
    · dsimp only
      intro among id held genuine
      have differs : id ≠ nostr.id event := fun same => genuine (same ▸ List.mem_cons_self)
      exact caught other query among id ((List.mem_cons.mp held).resolve_left differs)
        fun before => genuine (List.mem_cons_of_mem _ before)

theorem Sound.event {event : Event} {asked : Filter} (sound : Sound nostr state)
    (among : asked ∈ (state.coalescer.subs sub).filters)
    (matches_ : nostr.matchFilter asked event = true)
    (genuine : nostr.verifyEvent event = true →
      nostr.id event ∉ (state.coalescer.subs sub).forged) :
    Sound nostr { state with
      coalescer := (state.coalescer.onevent nostr sub event []).owe nostr sub event } := by
  have wanted : ∀ query ∈ (state.coalescer.subs sub).entries,
      wants nostr (state.coalescer.handles query).req event = true := fun query listed =>
    sound.served.wants (sound.served.member sub query listed) among matches_
  unfold RequestCoalescer.onevent
  split
  · next seen =>
    exact sound.owe fun valid query listed =>
      sound.gathered.caught sub query listed _ seen (genuine valid)
  · next new =>
    dsimp only
    split
    · next valid =>
      rw [delivered_eq sound.served valid wanted]
      exact sound.deliver valid new wanted
    · next forged =>
      have forged : nostr.verifyEvent event = false := Bool.eq_false_iff.mpr forged
      exact (sound.see forged).owe fun valid => absurd (forged.symm.trans valid) (by decide)

/-! ## Runs -/

theorem sound_fresh : Sound nostr (fresh : Queries Event Filter) := by
  constructor
  · exact ⟨fun _ _ => rfl, List.nodup_nil, fun _ among => (nomatch among), fun _ among => (nomatch among),
      fun _ among => (nomatch among)⟩
  · exact ⟨fun _ _ joined => (nomatch joined), fun _ _ among => (nomatch among), fun _ => List.nodup_nil⟩
  · exact ⟨fun _ _ => ⟨rfl, rfl⟩, fun _ => List.nodup_nil, fun _ _ among => (nomatch among),
      fun _ _ joined => (nomatch joined), fun _ _ among => (nomatch among), fun _ _ among => (nomatch among),
      fun _ _ _ among => (nomatch among)⟩
  · exact ⟨fun _ _ _ among => (nomatch among), fun _ _ among => absurd among (Finset.notMem_empty _)⟩
  · exact fun _ => rfl
  · exact fun _ _ resolved => (nomatch resolved)

theorem Sound.reports (sound : Sound nostr state) (fired : sub < state.coalescer.fired)
    (place : filter < (state.coalescer.subs sub).filters.length)
    (listed : relay ∈ (state.coalescer.subs sub).relays) : Sound nostr { state with
      reported := Function.update state.reported sub ((filter, relay) :: state.reported sub) } := by
  have more : ∀ other, state.reported other ⊆
      Function.update state.reported sub ((filter, relay) :: state.reported sub) other := by
    intro other
    by_cases same : other = sub
    · subst same
      rw [Function.update_self]
      exact List.subset_cons_self _ _
    · rw [Function.update_of_ne same]
      exact List.Subset.refl _
  refine ⟨sound.grouped, sound.served, sound.gathered, ⟨?_, ?_⟩, sound.settled, ?_⟩
  · intro other place_ relay_ among
    dsimp only at among
    by_cases same : other = sub
    · subst same
      rw [Function.update_self] at among
      rcases List.mem_cons.mp among with now | before
      · cases now
        exact ⟨fired, place, listed⟩
      · exact sound.reported.asked other place_ relay_ before
    · rw [Function.update_of_ne same] at among
      exact sound.reported.asked other place_ relay_ among
  · intro query relay_ among
    obtain ⟨other, place_, joined, before⟩ := sound.reported.heard query relay_ among
    exact ⟨other, place_, joined, more other before⟩
  · intro query events resolved
    exact (sound.resolved query events resolved).keep rfl rfl rfl rfl (fun _ _ => rfl) more

theorem Sound.expire (sound : Sound nostr state) (born : query < state.coalescer.enqueued)
    (running : state.results query = none) : Sound nostr (Queries.finish nostr { state with
      expired := Function.update state.expired query true } query) := by
  have base : Sound nostr { state with expired := Function.update state.expired query true } := by
    refine ⟨sound.grouped, sound.served, sound.gathered, ⟨sound.reported.asked, sound.reported.heard⟩,
      sound.settled, fun other events resolved => ?_⟩
    have differs : other ≠ query := by
      rintro rfl
      dsimp only at resolved
      rw [running] at resolved
      contradiction
    exact (sound.resolved other events resolved).keep (Function.update_of_ne differs _ _) rfl rfl rfl
      (fun _ _ => rfl) fun _ => List.Subset.refl _
  exact base.finish born (.inl (Function.update_self ..))

theorem sound_step {move : Move Event Filter} (sound : Sound nostr state)
    (regular : Regular nostr state move) (moved : step nostr state move = some next) :
    Sound nostr next := by
  cases move with
  | querySync filters relays =>
    cases moved
    exact sound.enqueue ⟨filters, relays⟩
  | flush =>
    obtain ⟨after, stepped, rfl⟩ := Option.map_eq_some_iff.mp moved
    simp only [RequestCoalescer.step] at stepped
    split at stepped
    · cases stepped
      exact sound.flush
    · contradiction
  | fire =>
    obtain ⟨after, stepped, rfl⟩ := Option.map_eq_some_iff.mp moved
    simp only [RequestCoalescer.step] at stepped
    split at stepped
    · next flushed =>
      cases stepped
      exact sound.fire flushed (regular _ (by rw [flushed]; rfl))
    · contradiction
  | adopt =>
    obtain ⟨after, stepped, rfl⟩ := Option.map_eq_some_iff.mp moved
    simp only [RequestCoalescer.step] at stepped
    split at stepped
    · cases stepped
      exact sound.adopt _
    · contradiction
  | event sub filter event =>
    simp only [step] at moved
    split at moved
    · next asks =>
      obtain ⟨after, stepped, rfl⟩ := Option.map_eq_some_iff.mp moved
      simp only [RequestCoalescer.step] at stepped
      split at stepped
      · cases stepped
        cases found : (state.coalescer.subs sub).filters[filter]? with
        | none =>
          rw [found] at asks
          contradiction
        | some asked =>
          rw [found] at asks
          exact sound.event (List.mem_of_getElem? found) asks regular
      · contradiction
    · contradiction
  | eose sub filter relay =>
    simp only [step] at moved
    split at moved
    · next reports =>
      cases moved
      obtain ⟨fired, -, place, listed, -⟩ := reports
      apply (sound.reports fired place listed).eachEose
      dsimp only
      rw [Function.update_self]
      exact List.mem_cons_self
    · contradiction
  | timeout sub =>
    obtain ⟨after, stepped, rfl⟩ := Option.map_eq_some_iff.mp moved
    simp only [RequestCoalescer.step] at stepped
    split at stepped
    · split at stepped
      · cases stepped
        exact sound
      · cases stepped
        exact sound.timeout sub
    · contradiction
  | expire query =>
    simp only [step] at moved
    split at moved
    · next runs =>
      cases moved
      exact sound.expire runs.1 (Option.isNone_iff_eq_none.mp runs.2)
    · contradiction

/-- A query that is over by its timer at the latest, and until then only by its relays, resolves
with just the events that were due to it. -/
theorem queries_resolve (reaches : Reaches (step nostr) (Regular nostr) fresh state) (query : Nat) :
    (∀ events, state.results query = some events → Resolved nostr state query events) ∧
      (query < state.coalescer.enqueued → state.results query = none →
        ∃ next events, step nostr state (.expire query) = some next ∧
          next.results query = some events) := by
  have sound : Sound nostr state :=
    reaches.invariant sound_fresh fun _ _ _ sound regular moved => sound_step sound regular moved
  constructor
  · exact sound.resolved query
  · intro born running
    have taken : step nostr state (.expire query) = some (Queries.finish nostr { state with
        expired := Function.update state.expired query true } query) := by
      simp only [step]
      rw [if_pos ⟨born, Option.isNone_iff_eq_none.mpr running⟩]
    refine ⟨_, gather nostr (state.coalescer.handles query).heard, taken, ?_⟩
    unfold Queries.finish
    dsimp only
    rw [running, Option.isSome_none, if_neg Bool.false_ne_true]
    exact Function.update_self ..

def alone : List (Move (String × Nat × Bool) Nat) :=
  [.querySync [1] ["wss://a"], .flush, .fire, .adopt, .event 0 0 ("note", 1, true),
    .eose 0 0 "wss://a"]

theorem queries_resolve_alone : ∃ state, exec (step byKind) fresh alone = some state ∧
    state.results 0 = some [("note", 1, true)] ∧ Resolved byKind state 0 [("note", 1, true)] := by
  have executed : ∃ state, exec (step byKind) fresh alone = some state ∧
      state.results 0 = some [("note", 1, true)] := ⟨_, rfl, by decide⟩
  obtain ⟨state, executed, resolved⟩ := executed
  have reaches : Reaches (step byKind) (Regular byKind) fresh state := by
    apply Reaches.of_permitted executed
    refine ⟨trivial, fun _ first => ?_⟩
    cases first
    refine ⟨trivial, fun _ second => ?_⟩
    cases second
    refine ⟨fun group first query among => ?_, fun _ third => ?_⟩
    · cases first
      have only : query = 0 := List.mem_singleton.mp among
      subst only
      refine ⟨rfl, fun other among asked own => ?_⟩
      have only : other = 0 := List.mem_singleton.mp among
      subst only
      have is : asked = 1 := List.mem_singleton.mp own
      subst is
      exact ⟨List.cons_ne_nil _ _, fun filter own => List.mem_singleton.mp own⟩
    · cases third
      refine ⟨trivial, fun _ fourth => ?_⟩
      cases fourth
      refine ⟨fun _ => List.not_mem_nil, fun _ fifth => ?_⟩
      cases fifth
      exact ⟨trivial, fun _ _ => trivial⟩
  exact ⟨state, executed, resolved, (queries_resolve reaches 0).1 _ resolved⟩

def together : List (Move (String × Nat × Bool) Nat) :=
  [.querySync [1, 3] ["wss://a"], .querySync [7] ["wss://a"], .flush, .fire, .adopt,
    .event 0 2 ("like", 7, true), .eose 0 0 "wss://a"]

/-- The first query ends when its relay is through with one of its two filters, and with an event
that only the second one asked for. -/
theorem queries_end_early : ∃ state, exec (step byKind) fresh together = some state ∧
    state.results 0 = some [("like", 7, true)] ∧ state.expired 0 = false ∧
    ¬ Complete state 0 ∧ wants byKind (state.coalescer.handles 0).req ("like", 7, true) = false := by
  refine ⟨_, rfl, by decide, by decide, fun complete => ?_, by decide⟩
  have among : "wss://a" ∈ ["wss://a"] := List.mem_singleton_self _
  have own : 3 ∈ [1, 3] := by decide
  obtain ⟨sub, filter, joined, found, reported⟩ := complete "wss://a" among 3 own
  have here : sub = 0 := (Option.some.inj joined).symm
  subst here
  have place : filter = 0 := by
    have pair : (filter, "wss://a") = (0, "wss://a") := List.mem_singleton.mp reported
    exact congrArg Prod.fst pair
  subst place
  contradiction

end Queries

end NostrWot.Relay
