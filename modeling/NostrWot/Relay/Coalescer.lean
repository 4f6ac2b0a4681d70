import NostrWot.Data.OrderedMap
import NostrWot.Data.Utf16
import NostrWot.Sync.Run
import Mathlib.Data.List.Sort
import Mathlib.Logic.Function.Basic

namespace NostrWot.Relay

open NostrWot.Data NostrWot.Sync

/-! # The request coalescer

Consumers of one relay set are gathered into a group, which one subscription serves. Handles,
groups and subscriptions are numbered in the order they are made.
-/

/-- What the coalescer is told of events and filters by the packages it is built on. -/
structure Nostr (Event Filter : Type) where
  id : Event → String
  verifyEvent : Event → Bool
  matchFilter : Filter → Event → Bool

/-- What a consumer's handlers are called with. -/
inductive Heard (Event : Type) where
  | event (event : Event)
  | eose (relay : String)

def Heard.event? {Event : Type} : Heard Event → Option Event
  | .event told => some told
  | .eose _ => none

structure CoalescerEnqueue (Filter : Type) where
  filters : List Filter
  relays : List String

structure EntryHandle (Event Filter : Type) where
  req : CoalescerEnqueue Filter
  group : Option Nat
  active : Option Nat
  /-- The subscription that its group was fired as. -/
  joined : Option Nat
  torn : Bool
  heard : List (Heard Event)
  /-- The valid events of its filters that arrived while it was joined. -/
  due : List Event

structure PendingGroup where
  relayKey : String
  relays : List String
  entries : List Nat

structure ActiveSub (Filter : Type) where
  relays : List String
  filters : List Filter
  entries : List Nat
  closed : Bool
  seen : List String
  /-- The ids seen that a copy with a bad signature had first. -/
  forged : List String

structure RequestCoalescer (Event Filter : Type) where
  handles : Nat → EntryHandle Event Filter
  enqueued : Nat
  groups : Nat → PendingGroup
  grouped : Nat
  subs : Nat → ActiveSub Filter
  fired : Nat
  pending : OrderedMap String Nat
  timer : Bool
  flushed : List Nat
  /-- A group that is being fired, as which subscription. -/
  firing : Option (Nat × Nat)

variable {Event Filter : Type}

def sortRelays (relays : List String) : List String := relays.insertionSort fun left right =>
  unitsLe left right = true

/-- `[...relays].sort().join("|")`. -/
def relayKeyOf (relays : List String) : String := "|".intercalate (sortRelays relays)

namespace RequestCoalescer

def fresh : RequestCoalescer Event Filter where
  handles _ := ⟨⟨[], []⟩, none, none, none, false, [], []⟩
  enqueued := 0
  groups _ := ⟨"", [], []⟩
  grouped := 0
  subs _ := ⟨[], [], [], false, [], []⟩
  fired := 0
  pending := ∅
  timer := false
  flushed := []
  firing := none

def enqueue (state : RequestCoalescer Event Filter) (req : CoalescerEnqueue Filter) :
    RequestCoalescer Event Filter :=
  let relayKey := relayKeyOf req.relays
  let group := (state.pending.get relayKey).getD state.grouped
  let existing := match state.pending.get relayKey with
    | some group => state.groups group
    | none => ⟨relayKey, sortRelays req.relays, []⟩
  { state with
    handles := Function.update state.handles state.enqueued
      ⟨req, some group, none, none, false, [], []⟩
    enqueued := state.enqueued + 1
    groups := Function.update state.groups group
      { existing with entries := existing.entries ++ [state.enqueued] }
    grouped := if (state.pending.get relayKey).isSome then state.grouped else state.grouped + 1
    pending := state.pending.set relayKey group
    timer := true }

def put (state : RequestCoalescer Event Filter) (handle : Nat) (entry : EntryHandle Event Filter) :
    RequestCoalescer Event Filter :=
  { state with handles := Function.update state.handles handle entry }

/-- The first half of `closeEntry`. -/
def leaveGroup (state : RequestCoalescer Event Filter) (handle group : Nat) :
    RequestCoalescer Event Filter :=
  let old := state.groups group
  let entries := old.entries.erase handle
  let left := { state with groups := Function.update state.groups group { old with entries := entries } }
  if entries = [] then
    let pending := state.pending.delete old.relayKey
    { left with pending := pending, timer := state.timer && pending.size ≠ 0 }
  else left

/-- The second half of `closeEntry`, of a subscription that is not closed. -/
def leaveSub (state : RequestCoalescer Event Filter) (handle sub : Nat) :
    RequestCoalescer Event Filter :=
  let old := state.subs sub
  let entries := old.entries.erase handle
  let left := { old with entries := entries, closed := decide (entries = []) }
  { state with subs := Function.update state.subs sub left }

def closeEntry (state : RequestCoalescer Event Filter) (handle : Nat) :
    RequestCoalescer Event Filter :=
  let old := state.handles handle
  let ungrouped := match old.group with
    | some group => state.leaveGroup handle group
    | none => state
  match old.active with
  | some sub =>
    if (state.subs sub).closed then ungrouped.put handle { old with group := none, torn := true }
    else
      (ungrouped.leaveSub handle sub).put handle
        { old with group := none, active := none, torn := true }
  | none => ungrouped.put handle { old with group := none, torn := true }

inductive Act (Filter : Type) where
  | enqueue (req : CoalescerEnqueue Filter)
  | close (handle : Nat)

def act (state : RequestCoalescer Event Filter) : Act Filter → RequestCoalescer Event Filter
  | .enqueue req => state.enqueue req
  | .close handle => if handle < state.enqueued then state.closeEntry handle else state

def tell (state : RequestCoalescer Event Filter) (handle : Nat) (heard : Heard Event) :
    RequestCoalescer Event Filter :=
  let old := state.handles handle
  state.put handle { old with heard := old.heard ++ [heard] }

/-- `for (const h of active.entries)`: the list is the one the handlers change, and `acts` is what
each of them does. There are at most as many calls as entries. -/
def fanOut (heard : Heard Event) (sub : Nat) :
    Nat → Nat → List (List (Act Filter)) → RequestCoalescer Event Filter →
      RequestCoalescer Event Filter
  | 0, _, _, state => state
  | calls + 1, index, acts, state =>
    match (state.subs sub).entries[index]? with
    | none => state
    | some handle =>
      fanOut heard sub calls (index + 1) acts.tail
        ((acts.headD []).foldl act (state.tell handle heard))

variable (nostr : Nostr Event Filter)

def wants (req : CoalescerEnqueue Filter) (event : Event) : Bool :=
  req.filters.any fun filter => nostr.matchFilter filter event

def owe (state : RequestCoalescer Event Filter) (sub : Nat) (event : Event) :
    RequestCoalescer Event Filter :=
  if nostr.verifyEvent event then
    { state with handles := fun handle =>
        let old := state.handles handle
        if old.joined = some sub ∧ old.torn = false ∧ wants nostr old.req event = true then
          { old with due := old.due ++ [event] }
        else old }
  else state

/-- An id is seen; `forged` when a copy with a bad signature is the first. -/
def see (state : RequestCoalescer Event Filter) (sub : Nat) (event : Event) :
    RequestCoalescer Event Filter :=
  let old := state.subs sub
  { state with subs := Function.update state.subs sub { old with
      seen := nostr.id event :: old.seen
      forged := if nostr.verifyEvent event then old.forged else nostr.id event :: old.forged } }

def onevent (state : RequestCoalescer Event Filter) (sub : Nat) (event : Event)
    (acts : List (List (Act Filter))) : RequestCoalescer Event Filter :=
  if nostr.id event ∈ (state.subs sub).seen then state
  else
    let marked := state.see nostr sub event
    if nostr.verifyEvent event then
      fanOut (.event event) sub (state.subs sub).entries.length 0 acts marked
    else marked

inductive Move (Event Filter : Type) where
  | act (act : Act Filter)
  | flush
  | fire
  | adopt
  | event (sub : Nat) (event : Event) (acts : List (List (Act Filter)))
  | eose (sub : Nat) (relay : String) (acts : List (List (Act Filter)))
  | timeout (sub : Nat)

/-- The subscription of a group, as `fire` makes it. -/
def fireGroup (state : RequestCoalescer Event Filter) (group : Nat) :
    RequestCoalescer Event Filter :=
  let entries := (state.groups group).entries
  if entries = [] then state
  else
    { state with
      handles := fun handle =>
        let old := state.handles handle
        if handle ∈ entries then { old with joined := some state.fired } else old
      subs := Function.update state.subs state.fired {
        relays := (state.groups group).relays
        filters := entries.flatMap fun handle => (state.handles handle).req.filters
        entries := entries
        closed := false
        seen := []
        forged := [] }
      fired := state.fired + 1
      firing := some (group, state.fired) }

/-- `h.group = null; h.active = active;` of every entry. -/
def adopt (state : RequestCoalescer Event Filter) (sub : Nat) : RequestCoalescer Event Filter :=
  { state with
    handles := fun handle =>
      let old := state.handles handle
      if handle ∈ (state.subs sub).entries then { old with group := none, active := some sub }
      else old
    firing := none }

def step (state : RequestCoalescer Event Filter) :
    Move Event Filter → Option (RequestCoalescer Event Filter)
  | .act act => some (state.act act)
  | .flush =>
    if state.timer then
      some { state with
        timer := false
        flushed := state.flushed ++ state.pending.values
        pending := ∅ }
    else none
  | .fire =>
    match state.firing, state.flushed with
    | none, group :: rest => some ({ state with flushed := rest }.fireGroup group)
    | _, _ => none
  | .adopt =>
    match state.firing with
    | some (_, sub) => some (state.adopt sub)
    | none => none
  | .event sub event acts =>
    if sub < state.fired ∧ (state.subs sub).closed = false ∧
        (state.subs sub).filters.any (fun filter => nostr.matchFilter filter event) = true then
      some ((state.onevent nostr sub event acts).owe nostr sub event)
    else none
  | .eose sub relay acts =>
    if sub < state.fired ∧ (state.subs sub).closed = false then
      some (fanOut (.eose relay) sub (state.subs sub).entries.length 0 acts state)
    else none
  | .timeout sub =>
    if sub < state.fired then
      if (state.subs sub).closed then some state
      else
        some { state with
          subs := Function.update state.subs sub { state.subs sub with closed := true }
          handles := fun handle =>
            let old := state.handles handle
            if handle ∈ (state.subs sub).entries then { old with active := none } else old }
    else none

/-! ## The registers -/

variable {nostr} {state next : RequestCoalescer Event Filter} {handle group sub : Nat}

/-- What the consumers have of each other. -/
inductive Phase (state : RequestCoalescer Event Filter) (entry : EntryHandle Event Filter) : Prop
  | waiting {group : Nat} : entry.group = some group → entry.active = none → entry.joined = none →
      entry.torn = false → Phase state entry
  | firing {group sub : Nat} : state.firing = some (group, sub) → entry.active = none →
      entry.joined = some sub → entry.torn = false → Phase state entry
  | live {sub : Nat} : entry.group = none → entry.active = some sub → entry.joined = some sub →
      entry.torn = false → Phase state entry
  | done : entry.group = none → entry.active = none → entry.torn = true → Phase state entry

/-- The groups that are still to be fired. -/
def waiting (state : RequestCoalescer Event Filter) : List Nat :=
  state.pending.values ++ state.flushed

structure Queued (state : RequestCoalescer Event Filter) : Prop where
  once : state.waiting.Nodup
  numbered : ∀ group ∈ state.waiting, group < state.grouped
  distinct : ∀ group ∈ state.waiting, (state.groups group).entries.Nodup
  entry : ∀ group ∈ state.waiting, ∀ handle ∈ (state.groups group).entries,
    handle < state.enqueued ∧ (state.handles handle).group = some group ∧
      (state.handles handle).joined = none ∧ (state.handles handle).torn = false ∧
      (state.groups group).relays = sortRelays (state.handles handle).req.relays

structure Joined (state : RequestCoalescer Event Filter) : Prop where
  member : ∀ handle sub, handle ∈ (state.subs sub).entries ↔
    (state.handles handle).joined = some sub ∧ (state.handles handle).torn = false
  distinct : ∀ sub, (state.subs sub).entries.Nodup
  numbered : ∀ handle sub, (state.handles handle).joined = some sub → sub < state.fired
  opened : ∀ sub, (state.subs sub).closed = true → (state.subs sub).entries = []
  asks : ∀ sub, ∀ handle ∈ (state.subs sub).entries,
    (state.subs sub).relays = sortRelays (state.handles handle).req.relays ∧
      (state.handles handle).req.filters ⊆ (state.subs sub).filters

structure Registered (state : RequestCoalescer Event Filter) : Prop where
  phase : ∀ handle < state.enqueued, Phase state (state.handles handle)
  unborn : ∀ handle, state.enqueued ≤ handle → state.handles handle = fresh.handles handle
  queued : Queued state
  joined : Joined state

theorem Phase.keep {entry : EntryHandle Event Filter} (phase : Phase state entry)
    (same : next.firing = state.firing) : Phase next entry := by
  cases phase with
  | waiting group active joined torn => exact .waiting group active joined torn
  | firing firing active joined torn => exact .firing (same.trans firing) active joined torn
  | live group active joined torn => exact .live group active joined torn
  | done group active torn => exact .done group active torn

theorem Registered.born (registered : Registered state)
    (joined : (state.handles handle).joined = some sub) : handle < state.enqueued := by
  by_contra absurd
  rw [registered.unborn handle (Nat.le_of_not_lt absurd)] at joined
  contradiction

theorem Registered.serving (registered : Registered state)
    (serves : (state.handles handle).joined = some sub) (untorn : (state.handles handle).torn = false) :
    handle ∈ (state.subs sub).entries ∧ (state.subs sub).closed = false := by
  have member := (registered.joined.member handle sub).mpr ⟨serves, untorn⟩
  refine ⟨member, ?_⟩
  by_contra absurd
  rw [registered.joined.opened sub (Bool.eq_true_of_not_eq_false absurd)] at member
  contradiction

/-! ## Closing an entry -/

theorem closeEntry_waiting (grouped : (state.handles handle).group = some group)
    (idle : (state.handles handle).active = none) :
    state.closeEntry handle = (state.leaveGroup handle group).put handle
      { state.handles handle with group := none, torn := true } := by
  unfold closeEntry
  dsimp only
  rw [grouped, idle]

theorem closeEntry_live (ungrouped : (state.handles handle).group = none)
    (live : (state.handles handle).active = some sub) (opened : (state.subs sub).closed = false) :
    state.closeEntry handle = (state.leaveSub handle sub).put handle
      { state.handles handle with group := none, active := none, torn := true } := by
  unfold closeEntry
  dsimp only
  rw [ungrouped, live]
  dsimp only
  rw [opened, if_neg Bool.false_ne_true]

theorem closeEntry_done (ungrouped : (state.handles handle).group = none)
    (idle : (state.handles handle).active = none) (torn : (state.handles handle).torn = true) :
    state.closeEntry handle = state := by
  have same : (⟨(state.handles handle).req, none, none, (state.handles handle).joined, true,
      (state.handles handle).heard, (state.handles handle).due⟩ : EntryHandle Event Filter) =
      state.handles handle := by
    generalize state.handles handle = old at ungrouped idle torn
    cases old
    cases ungrouped
    cases idle
    cases torn
    rfl
  unfold closeEntry put
  dsimp only
  rw [idle, ungrouped]
  dsimp only
  rw [same, Function.update_eq_self]

theorem leaveGroup_eq (state : RequestCoalescer Event Filter) (handle group : Nat) :
    ∃ pending timer, state.leaveGroup handle group = { state with
      groups := Function.update state.groups group { state.groups group with
        entries := (state.groups group).entries.erase handle }
      pending := pending
      timer := timer } ∧ pending.values.Sublist state.pending.values := by
  unfold leaveGroup
  dsimp only
  split
  · exact ⟨_, _, rfl, List.filter_sublist.map _⟩
  · exact ⟨_, _, rfl, List.Sublist.refl _⟩

theorem values_sublist {pending : OrderedMap String Nat}
    (fewer : pending.values.Sublist state.pending.values) :
    (pending.values ++ state.flushed).Sublist state.waiting :=
  fewer.append_right _

theorem Registered.close_waiting (registered : Registered state)
    (grouped : (state.handles handle).group = some group)
    (idle : (state.handles handle).active = none) (unjoined : (state.handles handle).joined = none)
    (untorn : (state.handles handle).torn = false) :
    Registered (state.closeEntry handle) := by
  rw [closeEntry_waiting grouped idle]
  obtain ⟨pending, timer, left, fewer⟩ := leaveGroup_eq state handle group
  rw [left]
  have queues := values_sublist fewer
  have born : handle < state.enqueued := by
    by_contra absurd
    rw [registered.unborn handle (Nat.le_of_not_lt absurd)] at grouped
    contradiction
  have queued := registered.queued
  have joined := registered.joined
  have others : ∀ {other : Nat} {entry : EntryHandle Event Filter}, other ≠ handle →
      Function.update state.handles handle entry other = state.handles other :=
    fun differs => Function.update_of_ne differs _ _
  have lost : ∀ sub, handle ∉ (state.subs sub).entries := by
    intro sub member
    rw [joined.member, unjoined] at member
    exact nomatch member.1
  constructor
  · intro other less
    by_cases same : other = handle
    · subst same
      refine .done ?_ ?_ ?_ <;> simp [put, idle]
    · dsimp only [put]
      rw [others same]
      exact (registered.phase other less).keep rfl
  · intro other more
    dsimp only [put] at more ⊢
    have differs : other ≠ handle := by omega
    rw [others differs]
    exact registered.unborn other more
  · constructor
    · exact queued.once.sublist queues
    · intro other member
      exact queued.numbered other (queues.subset member)
    · intro other member
      have distinct := queued.distinct other (queues.subset member)
      by_cases same : other = group
      · subst same
        simpa [put] using distinct.erase handle
      · simpa [put, Function.update_of_ne same] using distinct
    · intro other member entry held
      have waits := queues.subset member
      have kept : entry ∈ (state.groups other).entries ∧ entry ≠ handle := by
        by_cases same : other = group
        · subst same
          have held : entry ∈ (state.groups other).entries.erase handle := by
            simpa [put] using held
          exact ⟨List.mem_of_mem_erase held,
            fun equal => (queued.distinct other waits).not_mem_erase (equal ▸ held)⟩
        · have held : entry ∈ (state.groups other).entries := by
            simpa [put, Function.update_of_ne same] using held
          refine ⟨held, fun equal => same ?_⟩
          have found := (queued.entry other waits entry held).2.1
          rw [equal, grouped] at found
          exact (Option.some.inj found).symm
      obtain ⟨bound, inGroup, free, whole, asks⟩ := queued.entry other waits entry kept.1
      dsimp only [put]
      rw [others kept.2]
      refine ⟨bound, inGroup, free, whole, ?_⟩
      by_cases same : other = group
      · subst same
        rw [Function.update_self]
        exact asks
      · rw [Function.update_of_ne same]
        exact asks
  · constructor
    · intro other sub
      dsimp only [put]
      by_cases same : other = handle
      · subst same
        rw [Function.update_self]
        simp [lost sub]
      · rw [others same]
        exact joined.member other sub
    · exact joined.distinct
    · intro other sub
      dsimp only [put]
      by_cases same : other = handle
      · subst same
        rw [Function.update_self]
        exact joined.numbered other sub
      · rw [others same]
        exact joined.numbered other sub
    · exact joined.opened
    · intro sub other member
      have differs : other ≠ handle := fun equal => lost sub (equal ▸ member)
      dsimp only [put]
      rw [others differs]
      exact joined.asks sub other member

theorem Registered.close_live (registered : Registered state)
    (ungrouped : (state.handles handle).group = none)
    (live : (state.handles handle).active = some sub)
    (serves : (state.handles handle).joined = some sub)
    (untorn : (state.handles handle).torn = false) :
    Registered (state.closeEntry handle) := by
  have queued := registered.queued
  have joined := registered.joined
  obtain ⟨member, opened⟩ := registered.serving serves untorn
  rw [closeEntry_live ungrouped live opened]
  have born := registered.born serves
  have others : ∀ {other : Nat} {entry : EntryHandle Event Filter}, other ≠ handle →
      Function.update state.handles handle entry other = state.handles other :=
    fun differs => Function.update_of_ne differs _ _
  constructor
  · intro other less
    by_cases same : other = handle
    · subst same
      refine .done ?_ ?_ ?_ <;> simp [put]
    · dsimp only [put, leaveSub]
      rw [others same]
      exact (registered.phase other less).keep rfl
  · intro other more
    dsimp only [put, leaveSub] at more ⊢
    have differs : other ≠ handle := by omega
    rw [others differs]
    exact registered.unborn other more
  · constructor
    · exact queued.once
    · exact queued.numbered
    · exact queued.distinct
    · intro group waits other held
      obtain ⟨bound, inGroup, rest⟩ := queued.entry group waits other held
      have differs : other ≠ handle := by
        intro same
        rw [same, ungrouped] at inGroup
        contradiction
      dsimp only [put, leaveSub]
      rw [others differs]
      exact ⟨bound, inGroup, rest⟩
  · constructor
    · intro other at_
      dsimp only [put, leaveSub]
      by_cases same : other = handle
      · subst same
        rw [Function.update_self]
        by_cases here : at_ = sub
        · subst here
          simp [(joined.distinct at_).not_mem_erase]
        · rw [Function.update_of_ne here, joined.member, serves]
          simp [Ne.symm here]
      · rw [others same, ← joined.member]
        by_cases here : at_ = sub
        · subst here
          rw [Function.update_self]
          exact List.mem_erase_of_ne same
        · rw [Function.update_of_ne here]
    · intro at_
      dsimp only [put, leaveSub]
      by_cases here : at_ = sub
      · subst here
        rw [Function.update_self]
        exact (joined.distinct at_).erase handle
      · rw [Function.update_of_ne here]
        exact joined.distinct at_
    · intro other at_
      dsimp only [put, leaveSub]
      by_cases same : other = handle
      · subst same
        rw [Function.update_self]
        exact joined.numbered other at_
      · rw [others same]
        exact joined.numbered other at_
    · intro at_
      dsimp only [put, leaveSub]
      by_cases here : at_ = sub
      · subst here
        rw [Function.update_self]
        exact of_decide_eq_true
      · rw [Function.update_of_ne here]
        exact joined.opened at_
    · intro at_ other
      dsimp only [put, leaveSub]
      by_cases here : at_ = sub
      · subst here
        rw [Function.update_self]
        intro held
        have differs : other ≠ handle := by
          intro same
          exact (joined.distinct at_).not_mem_erase (same ▸ held)
        rw [others differs]
        exact joined.asks at_ other (List.mem_of_mem_erase held)
      · rw [Function.update_of_ne here]
        intro held
        have differs : other ≠ handle := by
          intro same
          have found := ((joined.member other at_).mp held).1
          rw [same, serves] at found
          exact here (Option.some.inj found).symm
        rw [others differs]
        exact joined.asks at_ other held

def Settled (state : RequestCoalescer Event Filter) (handle : Nat) : Prop :=
  ∀ group sub, state.firing = some (group, sub) → handle ∉ (state.subs sub).entries

theorem Registered.closeEntry (registered : Registered state) (born : handle < state.enqueued)
    (settled : Settled state handle) : Registered (state.closeEntry handle) := by
  cases registered.phase handle born with
  | waiting grouped idle unjoined untorn =>
    exact registered.close_waiting grouped idle unjoined untorn
  | firing fires _ joins untorn =>
    exact absurd (registered.serving joins untorn).1 (settled _ _ fires)
  | live ungrouped live serves untorn => exact registered.close_live ungrouped live serves untorn
  | done ungrouped idle torn =>
    rw [closeEntry_done ungrouped idle torn]
    exact registered

/-! ## What a handler leaves -/

/-- What enqueueing and closing leave as it was. -/
structure Quiet (state next : RequestCoalescer Event Filter) : Prop where
  enqueued : state.enqueued ≤ next.enqueued
  firing : next.firing = state.firing
  fired : next.fired = state.fired
  handle : ∀ handle, (next.handles handle).joined = (state.handles handle).joined ∧
    (next.handles handle).heard = (state.handles handle).heard ∧
    (next.handles handle).due = (state.handles handle).due ∧
    ((state.handles handle).torn = true → (next.handles handle).torn = true)
  req : ∀ handle < state.enqueued, (next.handles handle).req = (state.handles handle).req
  sub : ∀ sub, (next.subs sub).seen = (state.subs sub).seen ∧
    (next.subs sub).forged = (state.subs sub).forged ∧
    (next.subs sub).filters = (state.subs sub).filters ∧
    (next.subs sub).relays = (state.subs sub).relays

theorem Quiet.refl (state : RequestCoalescer Event Filter) : Quiet state state :=
  ⟨Nat.le_refl _, rfl, rfl, fun _ => ⟨rfl, rfl, rfl, id⟩, fun _ _ => rfl,
    fun _ => ⟨rfl, rfl, rfl, rfl⟩⟩

variable {middle : RequestCoalescer Event Filter}

theorem Quiet.trans (first : Quiet state middle) (rest : Quiet middle next) : Quiet state next := by
  constructor
  · exact first.enqueued.trans rest.enqueued
  · exact rest.firing.trans first.firing
  · exact rest.fired.trans first.fired
  · intro handle
    obtain ⟨joined, heard, due, torn⟩ := first.handle handle
    obtain ⟨joined', heard', due', torn'⟩ := rest.handle handle
    exact ⟨joined'.trans joined, heard'.trans heard, due'.trans due, torn' ∘ torn⟩
  · intro handle less
    exact (rest.req handle (Nat.lt_of_lt_of_le less first.enqueued)).trans (first.req handle less)
  · intro sub
    obtain ⟨seen, forged, filters, relays⟩ := first.sub sub
    obtain ⟨seen', forged', filters', relays'⟩ := rest.sub sub
    exact ⟨seen'.trans seen, forged'.trans forged, filters'.trans filters, relays'.trans relays⟩

theorem Quiet.leaveGroup (state : RequestCoalescer Event Filter) (handle group : Nat) :
    Quiet state (state.leaveGroup handle group) := by
  obtain ⟨pending, timer, left, _⟩ := leaveGroup_eq state handle group
  rw [left]
  exact ⟨Nat.le_refl _, rfl, rfl, fun _ => ⟨rfl, rfl, rfl, id⟩, fun _ _ => rfl,
    fun _ => ⟨rfl, rfl, rfl, rfl⟩⟩

theorem Quiet.leaveSub (state : RequestCoalescer Event Filter) (handle sub : Nat) :
    Quiet state (state.leaveSub handle sub) := by
  refine ⟨Nat.le_refl _, rfl, rfl, fun _ => ⟨rfl, rfl, rfl, id⟩, fun _ _ => rfl, fun other => ?_⟩
  dsimp only [RequestCoalescer.leaveSub]
  by_cases same : other = sub
  · subst same
    rw [Function.update_self]
    exact ⟨rfl, rfl, rfl, rfl⟩
  · rw [Function.update_of_ne same]
    exact ⟨rfl, rfl, rfl, rfl⟩

theorem Quiet.put {entry : EntryHandle Event Filter} (req : entry.req = (state.handles handle).req)
    (joined : entry.joined = (state.handles handle).joined)
    (heard : entry.heard = (state.handles handle).heard)
    (due : entry.due = (state.handles handle).due) (torn : entry.torn = true) :
    Quiet state (state.put handle entry) := by
  refine ⟨Nat.le_refl _, rfl, rfl, fun other => ?_, fun other _ => ?_,
    fun _ => ⟨rfl, rfl, rfl, rfl⟩⟩ <;>
    dsimp only [RequestCoalescer.put]
  · by_cases same : other = handle
    · subst same
      rw [Function.update_self]
      exact ⟨joined, heard, due, fun _ => torn⟩
    · rw [Function.update_of_ne same]
      exact ⟨rfl, rfl, rfl, id⟩
  · by_cases same : other = handle
    · subst same
      rw [Function.update_self]
      exact req
    · rw [Function.update_of_ne same]

@[simp] theorem leaveGroup_handles : (state.leaveGroup handle group).handles = state.handles := by
  obtain ⟨pending, timer, left, _⟩ := leaveGroup_eq state handle group
  rw [left]

theorem Registered.quiet_closeEntry (registered : Registered state) (born : handle < state.enqueued)
    (settled : Settled state handle) : Quiet state (state.closeEntry handle) := by
  cases registered.phase handle born with
  | waiting grouped idle unjoined untorn =>
    rw [closeEntry_waiting grouped idle]
    exact (Quiet.leaveGroup state handle _).trans
      (.put (by simp) (by simp) (by simp) (by simp) rfl)
  | firing fires _ joins untorn =>
    exact absurd (registered.serving joins untorn).1 (settled _ _ fires)
  | live ungrouped live serves untorn =>
    rw [closeEntry_live ungrouped live (registered.serving serves untorn).2]
    exact (Quiet.leaveSub state handle _).trans (.put rfl rfl rfl rfl rfl)
  | done ungrouped idle torn =>
    rw [closeEntry_done ungrouped idle torn]
    exact .refl state

theorem Registered.closeEntry_entries (registered : Registered state)
    (born : handle < state.enqueued) (settled : Settled state handle) (sub : Nat) :
    ((state.closeEntry handle).subs sub).entries = (state.subs sub).entries.erase handle := by
  have absent : (∀ at_, (state.handles handle).joined = some at_ →
      (state.handles handle).torn = true) → handle ∉ (state.subs sub).entries := by
    intro gone member
    obtain ⟨joins, untorn⟩ := (registered.joined.member handle sub).mp member
    rw [gone sub joins] at untorn
    contradiction
  cases registered.phase handle born with
  | waiting grouped idle unjoined untorn =>
    rw [closeEntry_waiting grouped idle]
    obtain ⟨pending, timer, left, _⟩ := leaveGroup_eq state handle _
    rw [left]
    refine (List.erase_of_not_mem (absent fun at_ joins => ?_)).symm
    rw [unjoined] at joins
    contradiction
  | firing fires _ joins untorn =>
    exact absurd (registered.serving joins untorn).1 (settled _ _ fires)
  | @live at_ ungrouped live serves untorn =>
    rw [closeEntry_live ungrouped live (registered.serving serves untorn).2]
    dsimp only [put, leaveSub]
    by_cases here : sub = at_
    · subst here
      rw [Function.update_self]
    · rw [Function.update_of_ne here]
      refine (List.erase_of_not_mem fun held => here ?_).symm
      have found := ((registered.joined.member handle sub).mp held).1
      rw [serves] at found
      exact (Option.some.inj found).symm
  | done ungrouped idle torn =>
    rw [closeEntry_done ungrouped idle torn]
    exact (List.erase_of_not_mem (absent fun _ _ => torn)).symm

/-! ## Enqueueing -/

def Agrees (state : RequestCoalescer Event Filter) (req : CoalescerEnqueue Filter) : Prop :=
  ∀ group, state.pending.get (relayKeyOf req.relays) = some group →
    (state.groups group).relays = sortRelays req.relays

theorem Registered.quiet_enqueue (registered : Registered state) (req : CoalescerEnqueue Filter) :
    Quiet state (state.enqueue req) := by
  refine ⟨Nat.le_succ _, rfl, rfl, fun handle => ?_, fun handle less => ?_,
    fun _ => ⟨rfl, rfl, rfl, rfl⟩⟩ <;>
    dsimp only [RequestCoalescer.enqueue]
  · by_cases newest : handle = state.enqueued
    · subst newest
      rw [registered.unborn _ (Nat.le_refl _), Function.update_self]
      exact ⟨rfl, rfl, rfl, id⟩
    · rw [Function.update_of_ne newest]
      exact ⟨rfl, rfl, rfl, id⟩
  · rw [Function.update_of_ne (Nat.ne_of_lt less)]

theorem enqueue_eq {req : CoalescerEnqueue Filter} (agrees : Agrees state req) : ∃ group pending entries key grouped,
    state.enqueue req = { state with
      handles := Function.update state.handles state.enqueued
        ⟨req, some group, none, none, false, [], []⟩
      enqueued := state.enqueued + 1
      groups := Function.update state.groups group
        ⟨key, sortRelays req.relays, entries ++ [state.enqueued]⟩
      grouped := grouped
      pending := pending
      timer := true } ∧
    ((pending.values = state.pending.values ∧ grouped = state.grouped ∧ group ∈ state.waiting ∧
        state.groups group = ⟨key, sortRelays req.relays, entries⟩) ∨
      (pending.values = state.pending.values ++ [state.grouped] ∧ grouped = state.grouped + 1 ∧
        group = state.grouped ∧ entries = [])) := by
  unfold enqueue
  dsimp only
  cases found : state.pending.get (relayKeyOf req.relays) with
  | some group =>
    have asks := agrees group found
    refine ⟨group, _, (state.groups group).entries, (state.groups group).relayKey, state.grouped,
      ?_, .inl ⟨congrArg OrderedMap.values (OrderedMap.set_of_get found), rfl, ?_, ?_⟩⟩
    rotate_right
    · rw [← asks]
    · rw [← asks]
      rfl
    · exact List.mem_append_left _ (List.mem_map_of_mem (OrderedMap.get_eq_some.mp found))
  | none =>
    refine ⟨state.grouped, _, [], _, state.grouped + 1, rfl, .inr ⟨?_, rfl, rfl, rfl⟩⟩
    unfold OrderedMap.values
    rw [OrderedMap.entries_set_of_none found]
    simp

theorem Registered.enqueue (registered : Registered state) {req : CoalescerEnqueue Filter}
    (agrees : Agrees state req) : Registered (state.enqueue req) := by
  obtain ⟨group, pending, entries, key, grouped, same, either⟩ := enqueue_eq agrees
  rw [same]
  have queued := registered.queued
  have joined := registered.joined
  have others : ∀ {other : Nat} {entry : EntryHandle Event Filter}, other ≠ state.enqueued →
      Function.update state.handles state.enqueued entry other = state.handles other :=
    fun differs => Function.update_of_ne differs _ _
  have unheard : state.handles state.enqueued = fresh.handles state.enqueued :=
    registered.unborn _ (Nat.le_refl _)
  have lost : ∀ sub, state.enqueued ∉ (state.subs sub).entries := by
    intro sub member
    rw [joined.member, unheard] at member
    exact nomatch member.1
  -- What the group had before is in it as it was.
  have before : ∀ handle ∈ entries, group ∈ state.waiting ∧
      handle ∈ (state.groups group).entries := by
    intro handle member
    rcases either with ⟨_, _, waits, are⟩ | ⟨_, _, _, none⟩
    · rw [are]
      exact ⟨waits, member⟩
    · rw [none] at member
      contradiction
  have waiting_cases : ∀ other ∈ pending.values ++ state.flushed, other ≠ group →
      other ∈ state.waiting := by
    intro other member differs
    rcases either with ⟨values, _, _, _⟩ | ⟨values, _, new, _⟩
    · rw [values] at member
      exact member
    · rw [values] at member
      unfold waiting
      rw [new] at differs
      simpa [differs] using member
  constructor
  · intro other less
    by_cases newest : other = state.enqueued
    · subst newest
      dsimp only
      rw [Function.update_self]
      exact .waiting rfl rfl rfl rfl
    · dsimp only at less ⊢
      rw [others newest]
      exact (registered.phase other (by omega)).keep rfl
  · intro other more
    dsimp only at more ⊢
    rw [others (by omega)]
    exact registered.unborn other (by omega)
  · constructor
    · unfold waiting
      rcases either with ⟨values, _, _, _⟩ | ⟨values, _, _, _⟩
      · rw [values]
        exact queued.once
      · rw [values, List.append_assoc, List.singleton_append, List.nodup_middle,
          List.nodup_cons]
        exact ⟨fun member => Nat.lt_irrefl _ (queued.numbered _ member), queued.once⟩
    · intro other member
      dsimp only [waiting] at member ⊢
      rcases either with ⟨values, count, _, _⟩ | ⟨values, count, new, _⟩
      · rw [values] at member
        rw [count]
        exact queued.numbered other member
      · rw [count]
        by_cases here : other = group
        · omega
        · have := queued.numbered other (waiting_cases other member here)
          omega
    · intro other member
      dsimp only [waiting] at member ⊢
      by_cases here : other = group
      · subst here
        rw [Function.update_self]
        refine List.nodup_append.mpr ⟨?_, List.nodup_singleton _, ?_⟩
        · rcases either with ⟨_, _, waits, are⟩ | ⟨_, _, _, none⟩
          · have distinct := queued.distinct other waits
            rw [are] at distinct
            exact distinct
          · rw [none]
            exact List.nodup_nil
        · intro first old second new equal
          obtain ⟨waits, old⟩ := before first old
          have bound := (queued.entry other waits first old).1
          have new := List.mem_singleton.mp new
          omega
      · rw [Function.update_of_ne here]
        exact queued.distinct other (waiting_cases other member here)
    · intro other member handle held
      dsimp only [waiting] at member held ⊢
      by_cases here : other = group
      · subst here
        rw [Function.update_self] at held ⊢
        rcases List.mem_append.mp held with old | new
        · obtain ⟨waits, old⟩ := before handle old
          obtain ⟨bound, inGroup, free, whole, asks⟩ := queued.entry other waits handle old
          have differs : handle ≠ state.enqueued := Nat.ne_of_lt bound
          rw [others differs]
          refine ⟨by omega, inGroup, free, whole, ?_⟩
          rcases either with ⟨_, _, _, are⟩ | ⟨_, _, new, _⟩
          · rw [← asks, are]
          · have := queued.numbered other waits
            omega
        · have new := List.mem_singleton.mp new
          subst new
          rw [Function.update_self]
          exact ⟨Nat.lt_succ_self _, rfl, rfl, rfl, rfl⟩
      · rw [Function.update_of_ne here] at held ⊢
        obtain ⟨bound, inGroup, rest⟩ :=
          queued.entry other (waiting_cases other member here) handle held
        rw [others (Nat.ne_of_lt bound)]
        exact ⟨by omega, inGroup, rest⟩
  · constructor
    · intro other sub
      dsimp only
      by_cases newest : other = state.enqueued
      · subst newest
        rw [Function.update_self]
        simp [lost sub]
      · rw [others newest]
        exact joined.member other sub
    · exact joined.distinct
    · intro other sub
      dsimp only
      by_cases newest : other = state.enqueued
      · subst newest
        rw [Function.update_self]
        intro absurd
        contradiction
      · rw [others newest]
        exact joined.numbered other sub
    · exact joined.opened
    · intro sub other member
      have differs : other ≠ state.enqueued := fun equal => lost sub (equal ▸ member)
      dsimp only
      rw [others differs]
      exact joined.asks sub other member

/-! ## Flushing and firing -/

theorem Registered.requeue (registered : Registered state) {pending : OrderedMap String Nat}
    {timer : Bool} {flushed : List Nat} (once : (pending.values ++ flushed).Nodup)
    (fewer : pending.values ++ flushed ⊆ state.waiting) :
    Registered { state with pending := pending, timer := timer, flushed := flushed } := by
  obtain ⟨_, numbered, distinct, entry⟩ := registered.queued
  obtain ⟨member, separate, fired, opened, asks⟩ := registered.joined
  refine ⟨fun other less => (registered.phase other less).keep rfl, registered.unborn,
    ⟨once, ?_, ?_, ?_⟩, member, separate, fired, opened, asks⟩
  · exact fun other waits => numbered other (fewer waits)
  · exact fun other waits => distinct other (fewer waits)
  · exact fun other waits => entry other (fewer waits)

theorem Registered.flush (registered : Registered state) :
    Registered { state with
      timer := false
      flushed := state.flushed ++ state.pending.values
      pending := ∅ } := by
  have once := List.nodup_append_comm.mp registered.queued.once
  refine registered.requeue once fun other member => ?_
  exact List.mem_append.mpr (List.mem_append.mp (List.mem_append.mp member |>.resolve_left
    fun absurd => (nomatch absurd))).symm

theorem Registered.skip {rest : List Nat} (registered : Registered state)
    (flushed : state.flushed = group :: rest) : Registered { state with flushed := rest } := by
  have fewer : (state.pending.values ++ rest).Sublist state.waiting := by
    unfold waiting
    rw [flushed]
    exact (List.Sublist.refl _).append (List.sublist_cons_self _ _)
  exact registered.requeue (registered.queued.once.sublist fewer) fewer.subset

theorem Registered.fireGroup (registered : Registered state) (idle : state.firing = none)
    (left : group ∉ state.waiting)
    (distinct : (state.groups group).entries.Nodup)
    (entry : ∀ handle ∈ (state.groups group).entries,
      handle < state.enqueued ∧ (state.handles handle).group = some group ∧
        (state.handles handle).joined = none ∧ (state.handles handle).torn = false ∧
        (state.groups group).relays = sortRelays (state.handles handle).req.relays) :
    Registered (state.fireGroup group) := by
  have queued := registered.queued
  have joined := registered.joined
  unfold RequestCoalescer.fireGroup
  dsimp only
  split
  · exact registered
  have unfired : ∀ handle, (state.handles handle).joined ≠ some state.fired :=
    fun handle found => Nat.lt_irrefl _ (joined.numbered handle _ found)
  constructor
  · intro other less
    dsimp only
    split
    · rename_i member
      obtain ⟨_, inGroup, unjoined, untorn, _⟩ := entry other member
      have inactive : (state.handles other).active = none := by
        cases registered.phase other less with
        | waiting _ idle _ _ => exact idle
        | firing fires _ _ _ =>
          rw [idle] at fires
          contradiction
        | live ungrouped _ _ _ =>
          rw [ungrouped] at inGroup
          contradiction
        | done _ inactive _ => exact inactive
      exact .firing rfl inactive rfl untorn
    · cases registered.phase other less with
      | waiting grouped inactive unjoined untorn => exact .waiting grouped inactive unjoined untorn
      | firing fires _ _ _ =>
        rw [idle] at fires
        contradiction
      | live ungrouped active joins untorn => exact .live ungrouped active joins untorn
      | done ungrouped inactive torn => exact .done ungrouped inactive torn
  · intro other more
    dsimp only at more ⊢
    rw [if_neg fun member => Nat.not_lt.mpr more (entry other member).1]
    exact registered.unborn other more
  · constructor
    · exact queued.once
    · exact queued.numbered
    · exact queued.distinct
    · intro other waits handle held
      obtain ⟨bound, inGroup, rest⟩ := queued.entry other waits handle held
      have apart : handle ∉ (state.groups group).entries := by
        intro member
        have found := (entry handle member).2.1
        rw [inGroup] at found
        exact left (Option.some.inj found ▸ waits)
      dsimp only
      rw [if_neg apart]
      exact ⟨bound, inGroup, rest⟩
  · constructor
    · intro other sub
      dsimp only
      by_cases here : sub = state.fired
      · subst here
        rw [Function.update_self]
        dsimp only
        split
        · rename_i member
          simp [member, (entry other member).2.2.2.1]
        · rename_i outside
          simp [outside, unfired other]
      · rw [Function.update_of_ne here, joined.member]
        split
        · rename_i member
          simp [(entry other member).2.2.1, Ne.symm here]
        · exact Iff.rfl
    · intro sub
      dsimp only
      by_cases here : sub = state.fired
      · subst here
        rw [Function.update_self]
        exact distinct
      · rw [Function.update_of_ne here]
        exact joined.distinct sub
    · intro other sub
      dsimp only
      split
      · intro found
        exact Option.some.inj found ▸ Nat.lt_succ_self _
      · intro found
        exact Nat.lt_succ_of_lt (joined.numbered other sub found)
    · intro sub
      dsimp only
      by_cases here : sub = state.fired
      · subst here
        rw [Function.update_self]
        intro absurd
        contradiction
      · rw [Function.update_of_ne here]
        exact joined.opened sub
    · intro sub other
      dsimp only
      by_cases here : sub = state.fired
      · subst here
        rw [Function.update_self]
        intro member
        dsimp only at member ⊢
        rw [if_pos member]
        refine ⟨(entry other member).2.2.2.2, fun filter held => ?_⟩
        exact List.mem_flatMap.mpr ⟨other, member, held⟩
      · rw [Function.update_of_ne here]
        intro member
        have asks := joined.asks sub other member
        split <;> exact asks

theorem Registered.adopt (registered : Registered state) (fires : state.firing = some (group, sub)) :
    Registered (state.adopt sub) := by
  have queued := registered.queued
  have joined := registered.joined
  have kept : ∀ other, ((state.adopt sub).handles other).joined = (state.handles other).joined ∧
      ((state.adopt sub).handles other).torn = (state.handles other).torn ∧
      ((state.adopt sub).handles other).req = (state.handles other).req := by
    intro other
    unfold RequestCoalescer.adopt
    dsimp only
    split <;> exact ⟨rfl, rfl, rfl⟩
  constructor
  · intro other less
    dsimp only [RequestCoalescer.adopt]
    split
    · rename_i member
      obtain ⟨joins, untorn⟩ := (joined.member other sub).mp member
      exact .live rfl rfl joins untorn
    · rename_i outside
      cases registered.phase other less with
      | waiting grouped inactive unjoined untorn => exact .waiting grouped inactive unjoined untorn
      | firing also _ joins untorn =>
        rw [fires] at also
        cases also
        exact absurd (registered.serving joins untorn).1 outside
      | live ungrouped active joins untorn => exact .live ungrouped active joins untorn
      | done ungrouped inactive torn => exact .done ungrouped inactive torn
  · intro other more
    dsimp only [RequestCoalescer.adopt] at more ⊢
    rw [if_neg fun member => ?_]
    · exact registered.unborn other more
    · have joins := ((joined.member other sub).mp member).1
      exact absurd (registered.born joins) (Nat.not_lt.mpr more)
  · refine ⟨queued.once, queued.numbered, queued.distinct, fun other waits handle held => ?_⟩
    obtain ⟨bound, inGroup, unjoined, rest⟩ := queued.entry other waits handle held
    dsimp only [RequestCoalescer.adopt]
    rw [if_neg fun member => ?_]
    · exact ⟨bound, inGroup, unjoined, rest⟩
    · have joins := ((joined.member handle sub).mp member).1
      rw [unjoined] at joins
      contradiction
  · constructor
    · intro other at_
      rw [(kept other).1, (kept other).2.1]
      exact joined.member other at_
    · exact joined.distinct
    · intro other at_
      rw [(kept other).1]
      exact joined.numbered other at_
    · exact joined.opened
    · intro at_ other member
      rw [(kept other).2.2]
      exact joined.asks at_ other member

/-! ## What a handler does -/

/-- What a handler may do for the others to be served. -/
def Fits (state : RequestCoalescer Event Filter) : Act Filter → Prop
  | .enqueue req => Agrees state req
  | .close handle => Settled state handle

def AllFit (state : RequestCoalescer Event Filter) : List (Act Filter) → Prop
  | [] => True
  | act :: rest => Fits state act ∧ AllFit (state.act act) rest

/-- The consumers that a handler tears down. -/
def closes (acts : List (Act Filter)) : List Nat := acts.filterMap fun act =>
  match act with
  | .close handle => some handle
  | .enqueue _ => none

theorem Registered.act (registered : Registered state) {act : Act Filter} (fits : Fits state act) :
    Registered (state.act act) ∧ Quiet state (state.act act) ∧
      ∀ sub, ((state.act act).subs sub).entries =
        (state.subs sub).entries.filter (· ∉ closes [act]) := by
  cases act with
  | enqueue req =>
    have all : ∀ sub, (state.subs sub).entries =
        (state.subs sub).entries.filter (· ∉ closes [(.enqueue req : Act Filter)]) := by
      intro sub
      exact (List.filter_eq_self.mpr fun _ _ => decide_eq_true List.not_mem_nil).symm
    exact ⟨registered.enqueue fits, registered.quiet_enqueue req, all⟩
  | close handle =>
    have one : ∀ entries : List Nat,
        entries.filter (· ∉ closes [(.close handle : Act Filter)]) =
          entries.filter (· ≠ handle) := by
      intro entries
      refine List.filter_congr fun other _ => ?_
      simp [closes]
    dsimp only [RequestCoalescer.act]
    split
    · rename_i born
      refine ⟨registered.closeEntry born fits, registered.quiet_closeEntry born fits,
        fun sub => ?_⟩
      rw [registered.closeEntry_entries born fits, one,
        (registered.joined.distinct sub).erase_eq_filter]
      refine List.filter_congr fun other _ => ?_
      by_cases same : other = handle <;> simp [same]
    · rename_i unborn
      refine ⟨registered, .refl state, fun sub => ?_⟩
      rw [one]
      refine (List.filter_eq_self.mpr fun other member => ?_).symm
      have joins := ((registered.joined.member other sub).mp member).1
      have differs : other ≠ handle := fun same => unborn (same ▸ registered.born joins)
      exact decide_eq_true differs

theorem Registered.acts {acts : List (Act Filter)} (registered : Registered state)
    (fit : AllFit state acts) :
    Registered (acts.foldl RequestCoalescer.act state) ∧
      Quiet state (acts.foldl RequestCoalescer.act state) ∧
      ∀ sub, ((acts.foldl RequestCoalescer.act state).subs sub).entries =
        (state.subs sub).entries.filter (· ∉ closes acts) := by
  induction acts generalizing state with
  | nil =>
    refine ⟨registered, .refl state, fun sub => ?_⟩
    exact (List.filter_eq_self.mpr fun _ _ => decide_eq_true List.not_mem_nil).symm
  | cons act rest ih =>
    obtain ⟨one, quiet, entries⟩ := registered.act fit.1
    obtain ⟨all, quiet', entries'⟩ := ih one fit.2
    refine ⟨all, quiet.trans quiet', fun sub => ?_⟩
    have split : closes (act :: rest) = closes [act] ++ closes rest :=
      @List.filterMap_append _ _ [act] rest _
    rw [List.foldl_cons, entries', entries, List.filter_filter, split]
    refine List.filter_congr fun other _ => ?_
    simp [and_comm]

/-! ## What consumers receive -/

def received (entry : EntryHandle Event Filter) : List Event := entry.heard.filterMap Heard.event?

def receivedIds (nostr : Nostr Event Filter) (entry : EntryHandle Event Filter) : List String :=
  (received entry).map nostr.id

structure Served (nostr : Nostr Event Filter) (entry : EntryHandle Event Filter) : Prop where
  once : (receivedIds nostr entry).Nodup
  wanted : ∀ event ∈ received entry,
    nostr.verifyEvent event = true ∧ wants nostr entry.req event = true
  due : ∀ event ∈ entry.due, nostr.id event ∈ receivedIds nostr entry

structure Fed (nostr : Nostr Event Filter) (state : RequestCoalescer Event Filter) : Prop where
  served : ∀ handle, Served nostr (state.handles handle)
  seen : ∀ handle sub, (state.handles handle).joined = some sub →
    receivedIds nostr (state.handles handle) ⊆ (state.subs sub).seen
  unheard : ∀ handle, (state.handles handle).joined = none → received (state.handles handle) = []

/-- An id that is seen is one that every consumer has received, unless a bad copy was first, or
it is `late`. -/
def Caught (nostr : Nostr Event Filter) (late : Nat → String → Prop)
    (state : RequestCoalescer Event Filter) : Prop :=
  ∀ sub, ∀ handle ∈ (state.subs sub).entries, ∀ id ∈ (state.subs sub).seen,
    id ∉ (state.subs sub).forged → ¬late sub id → id ∈ receivedIds nostr (state.handles handle)

theorem received_congr {left right : EntryHandle Event Filter} (same : left.heard = right.heard) :
    received left = received right := congrArg (List.filterMap _) same

theorem receivedIds_congr {left right : EntryHandle Event Filter} (same : left.heard = right.heard) :
    receivedIds nostr left = receivedIds nostr right := congrArg (List.map _) (received_congr same)

theorem Fed.quiet (fed : Fed nostr state) (registered : Registered state) (quiet : Quiet state next) :
    Fed nostr next := by
  have same : ∀ handle, receivedIds nostr (next.handles handle) =
      receivedIds nostr (state.handles handle) :=
    fun handle => receivedIds_congr (quiet.handle handle).2.1
  constructor
  · intro handle
    obtain ⟨joined, heard, due, _⟩ := quiet.handle handle
    obtain ⟨once, wanted, whole⟩ := fed.served handle
    refine ⟨same handle ▸ once, fun event member => ?_, fun event member => ?_⟩
    · rw [received_congr heard] at member
      by_cases born : handle < state.enqueued
      · rw [quiet.req handle born]
        exact wanted event member
      · rw [registered.unborn handle (Nat.le_of_not_lt born)] at member
        contradiction
    · rw [due] at member
      rw [same]
      exact whole event member
  · intro handle sub joins
    rw [(quiet.handle handle).1] at joins
    rw [same, (quiet.sub sub).1]
    exact fed.seen handle sub joins
  · intro handle alone
    rw [(quiet.handle handle).1] at alone
    rw [received_congr (quiet.handle handle).2.1]
    exact fed.unheard handle alone

variable {late : Nat → String → Prop}

theorem Caught.quiet (caught : Caught nostr late state) (quiet : Quiet state next)
    (fewer : ∀ sub, (next.subs sub).entries ⊆ (state.subs sub).entries) :
    Caught nostr late next := by
  intro sub handle member id seen genuine early
  obtain ⟨sameSeen, sameForged, _⟩ := quiet.sub sub
  rw [sameSeen] at seen
  rw [sameForged] at genuine
  rw [receivedIds_congr (quiet.handle handle).2.1]
  exact caught sub handle (fewer sub member) id seen genuine early

/-! ## Telling one consumer -/

theorem Registered.alike (registered : Registered state)
    {handles : Nat → EntryHandle Event Filter} {subs : Nat → ActiveSub Filter}
    (unborn : ∀ handle, state.enqueued ≤ handle → handles handle = state.handles handle)
    (same : ∀ handle, (handles handle).req = (state.handles handle).req ∧
      (handles handle).group = (state.handles handle).group ∧
      (handles handle).active = (state.handles handle).active ∧
      (handles handle).joined = (state.handles handle).joined ∧
      (handles handle).torn = (state.handles handle).torn)
    (alike : ∀ sub, (subs sub).relays = (state.subs sub).relays ∧
      (subs sub).filters = (state.subs sub).filters ∧
      (subs sub).entries = (state.subs sub).entries ∧
      (subs sub).closed = (state.subs sub).closed) :
    Registered { state with handles := handles, subs := subs } := by
  have queued := registered.queued
  have joined := registered.joined
  constructor
  · intro handle born
    obtain ⟨_, group, active, joins, torn⟩ := same handle
    cases registered.phase handle born with
    | waiting grouped inactive unjoined untorn =>
      exact .waiting (group.trans grouped) (active.trans inactive) (joins.trans unjoined)
        (torn.trans untorn)
    | firing fires inactive serves untorn =>
      exact .firing fires (active.trans inactive) (joins.trans serves) (torn.trans untorn)
    | live ungrouped live serves untorn =>
      exact .live (group.trans ungrouped) (active.trans live) (joins.trans serves)
        (torn.trans untorn)
    | done ungrouped inactive gone =>
      exact .done (group.trans ungrouped) (active.trans inactive) (torn.trans gone)
  · intro handle more
    exact (unborn handle more).trans (registered.unborn handle more)
  · refine ⟨queued.once, queued.numbered, queued.distinct, fun group waits handle member => ?_⟩
    obtain ⟨req, grouped, _, joins, torn⟩ := same handle
    have entry := queued.entry group waits handle member
    dsimp only
    rw [req, grouped, joins, torn]
    exact entry
  · constructor
    · intro handle sub
      dsimp only
      rw [(alike sub).2.2.1, (same handle).2.2.2.1, (same handle).2.2.2.2]
      exact joined.member handle sub
    · intro sub
      dsimp only
      rw [(alike sub).2.2.1]
      exact joined.distinct sub
    · intro handle sub
      dsimp only
      rw [(same handle).2.2.2.1]
      exact joined.numbered handle sub
    · intro sub
      dsimp only
      rw [(alike sub).2.2.1, (alike sub).2.2.2]
      exact joined.opened sub
    · intro sub handle
      obtain ⟨relays, filters, entries, _⟩ := alike sub
      dsimp only
      rw [entries, relays, filters, (same handle).1]
      exact joined.asks sub handle

theorem Registered.tell (registered : Registered state) (born : handle < state.enqueued)
    (heard : Heard Event) : Registered (state.tell handle heard) := by
  refine registered.alike (fun other more => ?_) (fun other => ?_)
    fun _ => ⟨rfl, rfl, rfl, rfl⟩
  · exact Function.update_of_ne (by omega) _ _
  · by_cases same : other = handle
    · subst same
      rw [Function.update_self]
      exact ⟨rfl, rfl, rfl, rfl, rfl⟩
    · rw [Function.update_of_ne same]
      exact ⟨rfl, rfl, rfl, rfl, rfl⟩

theorem Registered.see (registered : Registered state) (sub : Nat) (event : Event) :
    Registered (state.see nostr sub event) := by
  refine registered.alike (fun _ _ => rfl) (fun _ => ⟨rfl, rfl, rfl, rfl, rfl⟩) fun other => ?_
  by_cases same : other = sub
  · subst same
    rw [Function.update_self]
    exact ⟨rfl, rfl, rfl, rfl⟩
  · rw [Function.update_of_ne same]
    exact ⟨rfl, rfl, rfl, rfl⟩

theorem Registered.owe (registered : Registered state) (sub : Nat) (event : Event) :
    Registered (state.owe nostr sub event) := by
  unfold RequestCoalescer.owe
  split
  · refine registered.alike (fun other more => ?_) (fun other => ?_)
      fun _ => ⟨rfl, rfl, rfl, rfl⟩
    · dsimp only
      rw [if_neg fun owed => ?_]
      exact Nat.not_lt.mpr more (registered.born owed.1)
    · dsimp only
      split <;> exact ⟨rfl, rfl, rfl, rfl, rfl⟩
  · exact registered

theorem tell_handle (state : RequestCoalescer Event Filter) (handle : Nat) (heard : Heard Event)
    (other : Nat) :
    ((state.tell handle heard).handles other).req = (state.handles other).req ∧
      ((state.tell handle heard).handles other).joined = (state.handles other).joined ∧
      ((state.tell handle heard).handles other).torn = (state.handles other).torn ∧
      ((state.tell handle heard).handles other).due = (state.handles other).due ∧
      received ((state.tell handle heard).handles other) =
        received (state.handles other) ++ if other = handle then heard.event?.toList else [] := by
  dsimp only [tell, put]
  by_cases here : other = handle
  · subst here
    rw [Function.update_self, if_pos rfl]
    refine ⟨rfl, rfl, rfl, rfl, ?_⟩
    unfold received
    rw [List.filterMap_append]
    cases heard <;> rfl
  · rw [Function.update_of_ne here, if_neg here, List.append_nil]
    exact ⟨rfl, rfl, rfl, rfl, rfl⟩

def Welcome (nostr : Nostr Event Filter) (state : RequestCoalescer Event Filter) (handle : Nat) :
    Heard Event → Prop
  | .event event => nostr.verifyEvent event = true ∧
      wants nostr (state.handles handle).req event = true ∧
      nostr.id event ∉ receivedIds nostr (state.handles handle) ∧
      ∃ sub, (state.handles handle).joined = some sub ∧ nostr.id event ∈ (state.subs sub).seen
  | .eose _ => True

theorem Fed.tell (fed : Fed nostr state) {heard : Heard Event}
    (welcome : Welcome nostr state handle heard) : Fed nostr (state.tell handle heard) := by
  have told := tell_handle state handle heard
  have unchanged : ∀ other, (other = handle → heard.event? = none) →
      received ((state.tell handle heard).handles other) = received (state.handles other) := by
    intro other silent
    rw [(told other).2.2.2.2]
    split
    · rename_i here
      rw [silent here]
      exact List.append_nil _
    · exact List.append_nil _
  have kept : ∀ other, (other = handle → heard.event? = none) →
      Served nostr ((state.tell handle heard).handles other) := by
    intro other silent
    obtain ⟨once, wanted, whole⟩ := fed.served other
    obtain ⟨req, _, _, due, _⟩ := told other
    refine ⟨?_, ?_, ?_⟩
    · unfold receivedIds
      rw [unchanged other silent]
      exact once
    · rw [unchanged other silent, req]
      exact wanted
    · unfold receivedIds
      rw [unchanged other silent, due]
      exact whole
  have idle : ∀ other, (other = handle → heard.event? = none) →
      receivedIds nostr ((state.tell handle heard).handles other) =
        receivedIds nostr (state.handles other) :=
    fun other silent => congrArg (List.map _) (unchanged other silent)
  cases heard with
  | eose relay =>
    refine ⟨fun other => kept other fun _ => rfl, fun other sub joins => ?_, fun other => ?_⟩
    · rw [(told other).2.1] at joins
      rw [idle other fun _ => rfl]
      exact fed.seen other sub joins
    · rw [(told other).2.1, unchanged other fun _ => rfl]
      exact fed.unheard other
  | event event =>
    obtain ⟨valid, wanted, unheard, sub, joins, seen⟩ := welcome
    have ids : receivedIds nostr ((state.tell handle (.event event)).handles handle) =
        receivedIds nostr (state.handles handle) ++ [nostr.id event] := by
      unfold receivedIds
      rw [(told handle).2.2.2.2, if_pos rfl, List.map_append]
      rfl
    refine ⟨fun other => ?_, fun other at_ served => ?_, fun other alone => ?_⟩
    · by_cases here : other = handle
      · subst here
        obtain ⟨once, all, whole⟩ := fed.served other
        obtain ⟨req, _, _, due, grown⟩ := told other
        refine ⟨?_, fun one member => ?_, fun one member => ?_⟩
        · rw [ids, List.nodup_append]
          refine ⟨once, List.nodup_singleton _, fun first old second new same => unheard ?_⟩
          exact List.mem_singleton.mp new ▸ same ▸ old
        · rw [grown, if_pos rfl] at member
          rw [req]
          rcases List.mem_append.mp member with old | new
          · exact all one old
          · rw [List.mem_singleton.mp new]
            exact ⟨valid, wanted⟩
        · rw [due] at member
          rw [ids]
          exact List.mem_append_left _ (whole one member)
      · exact kept other fun same => absurd same here
    · rw [(told other).2.1] at served
      by_cases here : other = handle
      · subst here
        rw [ids]
        intro id member
        rcases List.mem_append.mp member with old | new
        · exact fed.seen other at_ served old
        · rw [joins] at served
          rw [List.mem_singleton.mp new, ← Option.some.inj served]
          exact seen
      · rw [idle other fun same => absurd same here]
        exact fed.seen other at_ served
    · rw [(told other).2.1] at alone
      have apart : other ≠ handle := by
        intro here
        rw [here, joins] at alone
        contradiction
      rw [unchanged other fun same => absurd same apart]
      exact fed.unheard other alone

theorem Caught.tell (caught : Caught nostr late state) (handle : Nat) (heard : Heard Event) :
    Caught nostr late (state.tell handle heard) := by
  intro sub other member id seen genuine early
  have old := caught sub other member id seen genuine early
  unfold receivedIds
  rw [(tell_handle state handle heard other).2.2.2.2, List.map_append]
  exact List.mem_append_left _ old

/-! ## Handing round -/

/-- A handler tears down none of the consumers that are called already, nor itself, unless no
other is to be called. -/
def Spares (entries : List Nat) (index : Nat) (acts : List (Act Filter)) : Prop :=
  (∀ handle ∈ closes acts, handle ∉ entries.take (index + 1)) ∨
    ∀ handle ∈ entries.drop (index + 1), handle ∈ closes acts

/-- The consumers that are called want what they are called with, and their handlers leave the
others where they are. -/
def Rounds (nostr : Nostr Event Filter) (heard : Heard Event) (sub : Nat) :
    Nat → Nat → List (List (Act Filter)) → RequestCoalescer Event Filter → Prop
  | 0, _, _, _ => True
  | calls + 1, index, acts, state =>
    ∀ handle, (state.subs sub).entries[index]? = some handle →
      (∀ event, heard = .event event → wants nostr (state.handles handle).req event = true ∧
        Spares (state.subs sub).entries index (acts.headD [])) ∧
      AllFit (state.tell handle heard) (acts.headD []) ∧
      Rounds nostr heard sub calls (index + 1) acts.tail
        ((acts.headD []).foldl act (state.tell handle heard))

/-- What no round changes. -/
structure Later (state next : RequestCoalescer Event Filter) : Prop where
  torn : ∀ handle, (state.handles handle).torn = true → (next.handles handle).torn = true ∧
    (next.handles handle).heard = (state.handles handle).heard

theorem Later.refl (state : RequestCoalescer Event Filter) : Later state state :=
  ⟨fun _ torn => ⟨torn, rfl⟩⟩

theorem Later.trans (first : Later state middle) (rest : Later middle next) : Later state next := by
  refine ⟨fun handle torn => ?_⟩
  obtain ⟨still, same⟩ := first.torn handle torn
  obtain ⟨yet, equal⟩ := rest.torn handle still
  exact ⟨yet, equal.trans same⟩

theorem Quiet.later (quiet : Quiet state next) : Later state next := by
  refine ⟨fun handle torn => ?_⟩
  obtain ⟨_, heard, _, kept⟩ := quiet.handle handle
  exact ⟨kept torn, heard⟩

theorem Later.tell (untorn : (state.handles handle).torn = false) (heard : Heard Event) :
    Later state (state.tell handle heard) := by
  refine ⟨fun other torn => ?_⟩
  have differs : other ≠ handle := by
    intro same
    rw [same, untorn] at torn
    contradiction
  dsimp only [RequestCoalescer.tell, put]
  rw [Function.update_of_ne differs]
  exact ⟨torn, rfl⟩

structure Halfway (nostr : Nostr Event Filter) (heard : Heard Event) (entries : List Nat)
    (index : Nat) (state : RequestCoalescer Event Filter) : Prop where
  told : ∀ event, heard = .event event → ∀ handle ∈ entries.take index,
    nostr.id event ∈ receivedIds nostr (state.handles handle)
  untold : ∀ event, heard = .event event → ∀ handle ∈ entries.drop index,
    nostr.id event ∉ receivedIds nostr (state.handles handle)

theorem Spares.filter {entries : List Nat} {index : Nat} {acts : List (Act Filter)}
    (spares : Spares entries index acts) (within : index < entries.length) :
    (entries.filter (· ∉ closes acts)).take (index + 1) ⊆ entries.take (index + 1) ∧
      (entries.filter (· ∉ closes acts)).drop (index + 1) ⊆ entries.drop (index + 1) := by
  have split := List.take_append_drop (index + 1) entries
  have length : (entries.take (index + 1)).length = index + 1 :=
    List.length_take_of_le within
  have parts : entries.filter (· ∉ closes acts) =
      (entries.take (index + 1)).filter (· ∉ closes acts) ++
        (entries.drop (index + 1)).filter (· ∉ closes acts) := by
    rw [← List.filter_append, split]
  rcases spares with before | behind
  · have whole : (entries.take (index + 1)).filter (· ∉ closes acts) = entries.take (index + 1) :=
      List.filter_eq_self.mpr fun handle member => decide_eq_true fun closed =>
        before handle closed member
    rw [parts, whole]
    constructor
    · rw [List.take_left' length]
      exact fun _ => id
    · rw [List.drop_left' length]
      exact List.filter_sublist.subset
  · have none : (entries.drop (index + 1)).filter (· ∉ closes acts) = [] :=
      List.filter_eq_nil_iff.mpr fun handle member absurd =>
        of_decide_eq_true absurd (behind handle member)
    have short : ((entries.take (index + 1)).filter (· ∉ closes acts)).length ≤ index + 1 :=
      (List.length_filter_le _ _).trans (Nat.le_of_eq length)
    rw [parts, none, List.append_nil]
    constructor
    · rw [List.take_of_length_le short]
      exact List.filter_sublist.subset
    · rw [List.drop_of_length_le short]
      exact List.nil_subset _

theorem Halfway.advance {heard : Heard Event} {index : Nat} {acts : List (Act Filter)}
    (halfway : Halfway nostr heard (state.subs sub).entries index state)
    (registered : Registered state) (at_ : (state.subs sub).entries[index]? = some handle)
    (spares : ∀ event, heard = .event event → Spares (state.subs sub).entries index acts)
    (quiet : Quiet (state.tell handle heard) next) :
    Halfway nostr heard ((state.subs sub).entries.filter (· ∉ closes acts)) (index + 1) next := by
  obtain ⟨within, is⟩ := List.getElem?_eq_some_iff.mp at_
  have told := tell_handle state handle heard
  have same : ∀ other, receivedIds nostr (next.handles other) =
      receivedIds nostr ((state.tell handle heard).handles other) :=
    fun other => receivedIds_congr (quiet.handle other).2.1
  constructor
  · intro event event_ other member
    have member := ((spares event event_).filter within).1 member
    rw [List.take_succ_eq_append_getElem within, List.mem_append, List.mem_singleton, is] at member
    rw [same]
    unfold receivedIds
    rw [(told other).2.2.2.2, List.map_append]
    rcases member with before | now
    · exact List.mem_append_left _ (halfway.told event event_ other before)
    · rw [if_pos now, event_]
      exact List.mem_append_right _ List.mem_cons_self
  · intro event event_ other member
    have member := ((spares event event_).filter within).2 member
    have behind : (state.subs sub).entries.drop index =
        handle :: (state.subs sub).entries.drop (index + 1) := by
      rw [List.drop_eq_getElem_cons within, is]
    have distinct := (registered.joined.distinct sub).sublist (List.drop_sublist index _)
    rw [behind, List.nodup_cons] at distinct
    have apart : other ≠ handle := fun equal => distinct.1 (equal ▸ member)
    have untold := halfway.untold event event_ other (behind ▸ List.mem_cons_of_mem _ member)
    rw [same]
    unfold receivedIds
    rw [(told other).2.2.2.2, if_neg apart, List.append_nil]
    exact untold

/-- What a whole round leaves. -/
structure Handed (nostr : Nostr Event Filter) (heard : Heard Event) (sub : Nat)
    (late : Nat → String → Prop) (state next : RequestCoalescer Event Filter) : Prop where
  registered : Registered next
  fed : Fed nostr next
  caught : Caught nostr late next
  later : Later state next
  seen : ∀ other, (next.subs other).seen = (state.subs other).seen ∧
    (next.subs other).forged = (state.subs other).forged
  told : ∀ event, heard = .event event → ∀ handle ∈ (next.subs sub).entries,
    nostr.id event ∈ receivedIds nostr (next.handles handle)

theorem fanOut_handed {heard : Heard Event} {calls index : Nat} {acts : List (List (Act Filter))}
    (registered : Registered state) (fed : Fed nostr state) (caught : Caught nostr late state)
    (genuine : ∀ event, heard = .event event →
      nostr.verifyEvent event = true ∧ nostr.id event ∈ (state.subs sub).seen)
    (halfway : Halfway nostr heard (state.subs sub).entries index state)
    (enough : (state.subs sub).entries.length ≤ calls + index)
    (rounds : Rounds nostr heard sub calls index acts state) :
    Handed nostr heard sub late state (fanOut heard sub calls index acts state) := by
  induction calls generalizing index acts state with
  | zero =>
    refine ⟨registered, fed, caught, .refl state, fun _ => ⟨rfl, rfl⟩, fun event event_ => ?_⟩
    have told := halfway.told event event_
    rw [List.take_of_length_le (by omega)] at told
    exact told
  | succ calls ih =>
    unfold fanOut
    cases at_ : (state.subs sub).entries[index]? with
    | none =>
      have ended := List.getElem?_eq_none_iff.mp at_
      refine ⟨registered, fed, caught, .refl state, fun _ => ⟨rfl, rfl⟩, fun event event_ => ?_⟩
      have told := halfway.told event event_
      rw [List.take_of_length_le ended] at told
      exact told
    | some handle =>
      obtain ⟨wanted, fit, others⟩ := rounds handle at_
      have member : handle ∈ (state.subs sub).entries := List.mem_of_getElem? at_
      obtain ⟨joins, untorn⟩ := (registered.joined.member handle sub).mp member
      obtain ⟨within, is⟩ := List.getElem?_eq_some_iff.mp at_
      have welcome : Welcome nostr state handle heard := by
        cases heard with
        | eose relay => trivial
        | event event =>
          refine ⟨(genuine event rfl).1, (wanted event rfl).1, ?_, sub, joins,
            (genuine event rfl).2⟩
          refine halfway.untold event rfl handle ?_
          rw [List.drop_eq_getElem_cons within, is]
          exact List.mem_cons_self
      have telling := registered.tell (registered.born joins) heard
      obtain ⟨left, quiet, entries⟩ := telling.acts fit
      have all := halfway.advance registered at_ (fun event event_ => (wanted event event_).2) quiet
      have fewer : ∀ at_, ((List.foldl act (state.tell handle heard) (acts.headD [])).subs
          at_).entries ⊆ ((state.tell handle heard).subs at_).entries := by
        intro at_
        rw [entries]
        exact List.filter_sublist.subset
      have sees := fun at_ => quiet.sub at_
      have rest := ih left ((fed.tell welcome).quiet telling quiet)
        ((caught.tell handle heard).quiet quiet fewer)
        (fun event event_ => by
          rw [(sees sub).1]
          exact genuine event event_)
        (by
          rw [entries]
          exact all)
        (by
          have shorter : (calls + 1) + index = calls + (index + 1) := by omega
          rw [entries, ← shorter]
          exact (List.length_filter_le _ _).trans enough)
        others
      exact ⟨rest.registered, rest.fed, rest.caught,
        ((Later.tell untorn heard).trans quiet.later).trans rest.later,
        fun at_ => ⟨(rest.seen at_).1.trans (sees at_).1,
          (rest.seen at_).2.trans (sees at_).2.1⟩,
        rest.told⟩

/-! ## Runs -/

/-- Consumers that share a subscription want the same events, no id comes with a bad copy first,
no handler tears a consumer down in the way of a round or while its group is being fired, a
subscription that is served is not timed out, and relay sets of one key are one. -/
def Orderly (nostr : Nostr Event Filter) (state : RequestCoalescer Event Filter) :
    Move Event Filter → Prop
  | .act act => Fits state act
  | .flush | .fire | .adopt => True
  | .event sub event acts =>
    (nostr.verifyEvent event = true → nostr.id event ∈ (state.subs sub).forged →
      ∀ handle ∈ (state.subs sub).entries,
        wants nostr (state.handles handle).req event = false) ∧
    (nostr.verifyEvent event = true → nostr.id event ∉ (state.subs sub).seen →
      Rounds nostr (.event event) sub (state.subs sub).entries.length 0 acts
        (state.see nostr sub event))
  | .eose sub relay acts =>
    Rounds nostr (.eose relay) sub (state.subs sub).entries.length 0 acts state
  | .timeout sub => (state.subs sub).closed = true

structure Sound (nostr : Nostr Event Filter) (state : RequestCoalescer Event Filter) : Prop where
  registered : Registered state
  fed : Fed nostr state
  caught : Caught nostr (fun _ _ => False) state

theorem Sound.act (sound : Sound nostr state) {act : Act Filter} (fits : Fits state act) :
    Sound nostr (state.act act) ∧ Later state (state.act act) := by
  obtain ⟨registered, quiet, entries⟩ := sound.registered.act fits
  have fewer : ∀ sub, ((state.act act).subs sub).entries ⊆ (state.subs sub).entries := by
    intro sub
    rw [entries]
    exact List.filter_sublist.subset
  exact ⟨⟨registered, sound.fed.quiet sound.registered quiet, sound.caught.quiet quiet fewer⟩,
    quiet.later⟩

theorem Sound.fireGroup {rest : List Nat} (sound : Sound nostr state) (idle : state.firing = none)
    (flushed : state.flushed = group :: rest) :
    Sound nostr ({ state with flushed := rest }.fireGroup group) ∧
      Later state ({ state with flushed := rest }.fireGroup group) := by
  have queued := sound.registered.queued
  have waits : group ∈ state.waiting := by
    unfold waiting
    rw [flushed]
    exact List.mem_append_right _ List.mem_cons_self
  have left : group ∉ state.pending.values ++ rest := by
    have once := queued.once
    unfold waiting at once
    rw [flushed, List.nodup_middle, List.nodup_cons] at once
    exact once.1
  have entry := queued.entry group waits
  have registered := (sound.registered.skip flushed).fireGroup idle left
    (queued.distinct group waits) entry
  refine ⟨⟨registered, ⟨fun handle => ?_, fun handle sub joins => ?_, fun handle alone => ?_⟩,
    fun sub handle member id seen genuine _ => ?_⟩, ⟨fun handle torn => ?_⟩⟩
  · have served := sound.fed.served handle
    unfold RequestCoalescer.fireGroup
    dsimp only
    split
    · exact served
    · dsimp only
      split <;> exact ⟨served.once, served.wanted, served.due⟩
  · unfold RequestCoalescer.fireGroup at joins ⊢
    dsimp only at joins ⊢
    split at joins
    · rename_i nobody
      rw [if_pos nobody]
      exact sound.fed.seen handle sub joins
    · rename_i somebody
      rw [if_neg somebody]
      dsimp only at joins ⊢
      split at joins
      · rename_i member
        have silent : receivedIds nostr (state.handles handle) = [] :=
          congrArg (List.map _) (sound.fed.unheard handle (entry handle member).2.2.1)
        rw [if_pos member]
        unfold receivedIds received at silent ⊢
        dsimp only
        rw [silent]
        exact List.nil_subset _
      · rename_i outside
        have known := sound.registered.joined.numbered handle sub joins
        rw [if_neg outside, Function.update_of_ne (Nat.ne_of_lt known)]
        exact sound.fed.seen handle sub joins
  · unfold RequestCoalescer.fireGroup at alone ⊢
    dsimp only at alone ⊢
    split at alone
    · rename_i nobody
      rw [if_pos nobody]
      exact sound.fed.unheard handle alone
    · rename_i somebody
      rw [if_neg somebody]
      dsimp only at alone ⊢
      split at alone
      · contradiction
      · rename_i outside
        rw [if_neg outside]
        exact sound.fed.unheard handle alone
  · unfold RequestCoalescer.fireGroup at member seen genuine ⊢
    dsimp only at member seen genuine ⊢
    split at member
    · rename_i nobody
      rw [if_pos nobody] at seen genuine ⊢
      exact sound.caught sub handle member id seen genuine fun absurd => absurd
    · rename_i somebody
      rw [if_neg somebody] at seen genuine ⊢
      dsimp only at member seen genuine ⊢
      by_cases here : sub = state.fired
      · subst here
        rw [Function.update_self] at seen
        contradiction
      · rw [Function.update_of_ne here] at member seen genuine
        have caught := sound.caught sub handle member id seen genuine fun absurd => absurd
        split <;> exact caught
  · unfold RequestCoalescer.fireGroup
    dsimp only
    split
    · exact ⟨torn, rfl⟩
    · dsimp only
      split <;> exact ⟨torn, rfl⟩

theorem Sound.adopt (sound : Sound nostr state) (fires : state.firing = some (group, sub)) :
    Sound nostr (state.adopt sub) ∧ Later state (state.adopt sub) := by
  have same : ∀ handle, ∃ group active, (state.adopt sub).handles handle =
      { state.handles handle with group := group, active := active } := by
    intro handle
    unfold RequestCoalescer.adopt
    dsimp only
    split
    · exact ⟨_, _, rfl⟩
    · exact ⟨_, _, rfl⟩
  refine ⟨⟨sound.registered.adopt fires, ⟨fun handle => ?_, fun handle at_ => ?_,
    fun handle => ?_⟩, fun at_ handle member id seen genuine early => ?_⟩, ⟨fun handle torn => ?_⟩⟩
  all_goals
    obtain ⟨group, active, is⟩ := same handle
    rw [is]
  · have served := sound.fed.served handle
    exact ⟨served.once, served.wanted, served.due⟩
  · exact sound.fed.seen handle at_
  · exact sound.fed.unheard handle
  · exact sound.caught at_ handle member id seen genuine early
  · exact ⟨torn, rfl⟩

theorem Sound.owe {event : Event} (sound : Sound nostr state)
    (paid : nostr.verifyEvent event = true → ∀ handle ∈ (state.subs sub).entries,
      wants nostr (state.handles handle).req event = true →
        nostr.id event ∈ receivedIds nostr (state.handles handle)) :
    Sound nostr (state.owe nostr sub event) ∧ Later state (state.owe nostr sub event) := by
  have same : ∀ handle, ∃ due, (state.owe nostr sub event).handles handle =
      { state.handles handle with due := due } ∧
      ∀ one ∈ due, nostr.id one ∈ receivedIds nostr (state.handles handle) := by
    intro handle
    have old := (sound.fed.served handle).due
    unfold RequestCoalescer.owe
    split
    · rename_i valid
      dsimp only
      split
      · rename_i owed
        obtain ⟨joins, untorn, wanted⟩ := owed
        have member := (sound.registered.serving joins untorn).1
        refine ⟨_, rfl, fun one listed => ?_⟩
        rcases List.mem_append.mp listed with before | now
        · exact old one before
        · rw [List.mem_singleton.mp now]
          exact paid valid handle member wanted
      · exact ⟨_, rfl, old⟩
    · exact ⟨_, rfl, old⟩
  have subs : (state.owe nostr sub event).subs = state.subs := by
    unfold RequestCoalescer.owe
    split <;> rfl
  refine ⟨⟨sound.registered.owe sub event, ⟨fun handle => ?_, fun handle at_ => ?_,
    fun handle => ?_⟩, fun at_ handle member id seen genuine early => ?_⟩, ⟨fun handle torn => ?_⟩⟩
  all_goals
    obtain ⟨due, is, all⟩ := same handle
    rw [is]
  · have served := sound.fed.served handle
    exact ⟨served.once, served.wanted, all⟩
  · rw [subs]
    exact sound.fed.seen handle at_
  · exact sound.fed.unheard handle
  · rw [subs] at member seen genuine
    exact sound.caught at_ handle member id seen genuine early
  · exact ⟨torn, rfl⟩

theorem Sound.see (sound : Sound nostr state) (sub : Nat) (event : Event) :
    Registered (state.see nostr sub event) ∧ Fed nostr (state.see nostr sub event) ∧
      Caught nostr (fun at_ id => at_ = sub ∧ id = nostr.id event ∧ nostr.verifyEvent event = true)
        (state.see nostr sub event) := by
  refine ⟨sound.registered.see sub event, ⟨sound.fed.served, fun handle at_ joins => ?_,
    sound.fed.unheard⟩, fun at_ handle member id seen genuine early => ?_⟩
  · have seen := sound.fed.seen handle at_ joins
    dsimp only [RequestCoalescer.see]
    by_cases here : at_ = sub
    · subst here
      rw [Function.update_self]
      exact List.Subset.trans seen (List.subset_cons_self _ _)
    · rw [Function.update_of_ne here]
      exact seen
  · dsimp only [RequestCoalescer.see] at member seen genuine
    by_cases here : at_ = sub
    · subst here
      rw [Function.update_self] at member seen genuine
      dsimp only at member seen genuine
      split at genuine
      · rename_i valid
        have differs : id ≠ nostr.id event := fun same => early ⟨rfl, same, valid⟩
        have older := (List.mem_cons.mp seen).resolve_left differs
        exact sound.caught at_ handle member id older genuine fun absurd => absurd
      · have differs : id ≠ nostr.id event := fun same => genuine (same ▸ List.mem_cons_self)
        have older := (List.mem_cons.mp seen).resolve_left differs
        have whole : id ∉ (state.subs at_).forged :=
          fun forged => genuine (List.mem_cons_of_mem _ forged)
        exact sound.caught at_ handle member id older whole fun absurd => absurd
    · rw [Function.update_of_ne here] at member seen genuine
      exact sound.caught at_ handle member id seen genuine fun absurd => absurd

theorem Sound.onevent {event : Event} {acts : List (List (Act Filter))} (sound : Sound nostr state)
    (orderly : Orderly nostr state (.event sub event acts)) :
    let after := (state.onevent nostr sub event acts).owe nostr sub event
    Sound nostr after ∧ Later state after := by
  obtain ⟨untainted, rounds⟩ := orderly
  intro after
  by_cases old : nostr.id event ∈ (state.subs sub).seen
  · have quiet : state.onevent nostr sub event acts = state := if_pos old
    refine quiet.symm ▸ sound.owe fun valid handle member wanted => ?_
    by_cases forged : nostr.id event ∈ (state.subs sub).forged
    · rw [untainted valid forged handle member] at wanted
      contradiction
    · exact sound.caught sub handle member _ old forged fun absurd => absurd
  · obtain ⟨registered, fed, caught⟩ := sound.see sub event
    cases valid : nostr.verifyEvent event with
    | false =>
      have only : state.onevent nostr sub event acts = state.see nostr sub event := by
        unfold RequestCoalescer.onevent
        rw [if_neg old]
        dsimp only
        rw [valid, if_neg Bool.false_ne_true]
      have marked : Sound nostr (state.see nostr sub event) := by
        refine ⟨registered, fed, fun at_ handle member id seen genuine _ => ?_⟩
        refine caught at_ handle member id seen genuine fun late => ?_
        rw [valid] at late
        exact Bool.false_ne_true late.2.2
      have owed : Sound nostr ((state.see nostr sub event).owe nostr sub event) ∧
          Later (state.see nostr sub event) ((state.see nostr sub event).owe nostr sub event) :=
        marked.owe fun absurd => by
          rw [valid] at absurd
          contradiction
      have later : Later state (state.see nostr sub event) := ⟨fun _ torn => ⟨torn, rfl⟩⟩
      have done := And.intro owed.1 (later.trans owed.2)
      rw [← only] at done
      exact done
    | true =>
      have fans : state.onevent nostr sub event acts =
          fanOut (.event event) sub (state.subs sub).entries.length 0 acts
            (state.see nostr sub event) := by
        unfold RequestCoalescer.onevent
        rw [if_neg old]
        dsimp only
        rw [valid, if_pos rfl]
      have entries : ((state.see nostr sub event).subs sub).entries = (state.subs sub).entries := by
        dsimp only [RequestCoalescer.see]
        rw [Function.update_self]
      have marked : nostr.id event ∈ ((state.see nostr sub event).subs sub).seen := by
        dsimp only [RequestCoalescer.see]
        rw [Function.update_self]
        exact List.mem_cons_self
      have halfway : Halfway nostr (.event event)
          ((state.see nostr sub event).subs sub).entries 0 (state.see nostr sub event) := by
        refine ⟨fun _ _ _ absurd => (nomatch absurd), fun one same handle member received => ?_⟩
        cases same
        rw [List.drop_zero, entries] at member
        have joins := ((sound.registered.joined.member handle sub).mp member).1
        exact old (sound.fed.seen handle sub joins received)
      have handed := fanOut_handed registered fed caught
        (fun one same => by
          cases same
          exact ⟨valid, marked⟩)
        halfway (Nat.le_of_eq (congrArg List.length entries)) (rounds valid old)
      rw [← fans] at handed
      have whole : Sound nostr (state.onevent nostr sub event acts) := by
        refine ⟨handed.registered, handed.fed, fun at_ handle member id seen genuine _ => ?_⟩
        by_cases now : at_ = sub ∧ id = nostr.id event
        · obtain ⟨rfl, rfl⟩ := now
          exact handed.told event rfl handle member
        · exact handed.caught at_ handle member id seen genuine fun late =>
            now ⟨late.1, late.2.1⟩
      have owed := whole.owe fun _ handle member _ => handed.told event rfl handle member
      have later : Later state (state.see nostr sub event) := ⟨fun _ torn => ⟨torn, rfl⟩⟩
      exact ⟨owed.1, (later.trans handed.later).trans owed.2⟩

theorem sound_step (sound : Sound nostr state) {move : Move Event Filter}
    (orderly : Orderly nostr state move) (moved : step nostr state move = some next) :
    Sound nostr next ∧ Later state next := by
  cases move with
  | act act =>
    cases moved
    exact sound.act orderly
  | flush =>
    simp only [step] at moved
    split at moved
    · cases moved
      obtain ⟨registered, fed, caught⟩ := sound
      exact ⟨⟨registered.flush, ⟨fed.served, fed.seen, fed.unheard⟩, caught⟩,
        ⟨fun _ torn => ⟨torn, rfl⟩⟩⟩
    · contradiction
  | fire =>
    simp only [step] at moved
    split at moved
    · rename_i idle flushed
      cases moved
      exact sound.fireGroup idle flushed
    · contradiction
  | adopt =>
    simp only [step] at moved
    split at moved
    · rename_i fires
      cases moved
      exact sound.adopt fires
    · contradiction
  | event sub event acts =>
    simp only [step] at moved
    split at moved
    · cases moved
      exact sound.onevent orderly
    · contradiction
  | eose sub relay acts =>
    simp only [step] at moved
    split at moved
    · cases moved
      have never : ∀ event : Event, Heard.eose relay ≠ .event event :=
        fun _ absurd => (nomatch absurd)
      have halfway : Halfway nostr (.eose relay) (state.subs sub).entries 0 state :=
        ⟨fun event same => absurd same (never event), fun event same => absurd same (never event)⟩
      have handed := fanOut_handed sound.registered sound.fed sound.caught
        (fun event same => absurd same (never event)) halfway (Nat.le_refl _) orderly
      exact ⟨⟨handed.registered, handed.fed, handed.caught⟩, handed.later⟩
    · contradiction
  | timeout sub =>
    simp only [step] at moved
    split at moved
    · have closed : (state.subs sub).closed = true := orderly
      rw [if_pos closed] at moved
      cases moved
      exact ⟨sound, .refl state⟩
    · contradiction

theorem sound_fresh : Sound nostr fresh := by
  have never : ∀ group, group ∉ (fresh : RequestCoalescer Event Filter).waiting :=
    fun _ absurd => (nomatch absurd)
  refine ⟨⟨fun _ less => absurd less (Nat.not_lt_zero _), fun _ _ => rfl,
    ⟨List.nodup_nil, fun group waits => absurd waits (never group),
      fun group waits => absurd waits (never group),
      fun group waits => absurd waits (never group)⟩,
    ⟨fun _ _ => ⟨fun absurd => (nomatch absurd), fun absurd => (nomatch absurd.1)⟩,
      fun _ => List.nodup_nil, fun _ _ absurd => (nomatch absurd), fun _ _ => rfl,
      fun _ _ absurd => (nomatch absurd)⟩⟩,
    ⟨fun _ => ⟨List.nodup_nil, fun _ absurd => (nomatch absurd), fun _ absurd => (nomatch absurd)⟩,
      fun _ _ absurd => (nomatch absurd), fun _ _ => rfl⟩,
    fun _ _ absurd => (nomatch absurd)⟩

/-- Events of a kind, of which those signed with `true` are valid. -/
def byKind : Nostr (String × Nat × Bool) Nat where
  id event := event.1
  verifyEvent event := event.2.2
  matchFilter filter event := decide (event.2.1 = filter)

/-- A consumer of kind 1 and one of kind 3, then a note, and a contact list that comes first with
a bad signature. -/
def shared : List (Move (String × Nat × Bool) Nat) :=
  [.act (.enqueue ⟨[1], ["wss://a"]⟩), .act (.enqueue ⟨[3], ["wss://a"]⟩), .flush, .fire, .adopt,
    .event 0 ("note", 1, true) [], .event 0 ("list", 3, false) [], .event 0 ("list", 3, true) []]

end RequestCoalescer

end NostrWot.Relay
