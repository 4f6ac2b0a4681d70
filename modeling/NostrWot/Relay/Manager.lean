import NostrWot.Sync.Run
import Mathlib.Data.List.Basic

namespace NostrWot.Relay

open NostrWot.Sync

/-! # The feed of a relay manager

`RelayManager` over `RelayPool`, whose subscriptions fire `onclose` when their relays close them
and when the caller does.
-/

/-- Who closed a subscription whose `onclose` fires. -/
inductive Closer where
  | relays
  | reconnect
  | destroy
  deriving DecidableEq

structure Manager where
  pool : Bool
  urls : List String
  feedSub : Option Nat := none
  /-- The feed subscriptions among `_activeSubs`. -/
  activeSubs : List Nat := []
  openSubs : List Nat := []
  /-- The subscriptions that are closed, and whose `onclose` has yet to fire. -/
  closing : List Closer := []
  waiting : Nat := 0
  timers : List Closer := []
  opened : Nat := 0
  destroyed : Bool := false

namespace Manager

/-- `close` of a subscription of the pool; one that is closed stays so. -/
def closeSub (closer : Closer) (state : Manager) (sub : Nat) : Manager :=
  if sub ∈ state.openSubs then
    { state with
      openSubs := state.openSubs.filter (· ≠ sub)
      closing := state.closing ++ [closer] }
  else state

/-- `close` of the handle that `RelayPool.subscribe` gives. -/
def closeFeed (closer : Closer) (state : Manager) : Manager :=
  match state.feedSub with
  | some sub =>
    let closed := state.closeSub closer sub
    { closed with activeSubs := closed.activeSubs.erase sub, feedSub := none }
  | none => state

/-- Closing every subscription of the pool. -/
def closeAll (closer : Closer) (state : Manager) : Manager :=
  { state.activeSubs.foldl (closeSub closer) state with activeSubs := [] }

/-- `_connectFeed`, up to its `await`. -/
def connectFeed (state : Manager) : Manager :=
  if state.pool then { state with waiting := state.waiting + 1 } else state

def reconnect (state : Manager) (relays : List String) : Manager :=
  let closed := (state.closeFeed .reconnect).closeAll .reconnect
  { closed with urls := relays }.connectFeed

/-- What `_connectFeed` does once it has the timestamp; without a pool `subscribe` throws. -/
def subscribe (state : Manager) : Manager :=
  if state.pool then
    { state with
      feedSub := some state.opened
      activeSubs := state.activeSubs ++ [state.opened]
      openSubs := state.openSubs ++ [state.opened]
      opened := state.opened + 1 }
  else state

end Manager

inductive Move where
  | initFeed
  /-- `getLatestCachedTimestamp` settles. -/
  | timestamp
  | reconnect (relays : List String)
  | addRelay (url : String) (relays : List String)
  | removeRelay (url : String) (relays : List String)
  | destroy
  | disconnect (sub : Nat)
  | onclose (closer : Closer)
  | timer (closer : Closer) (relays : List String)

def step (state : Manager) : Move → Option Manager
  | .initFeed =>
    if state.pool && state.feedSub.isSome then some state else some state.connectFeed
  | .timestamp =>
    if 0 < state.waiting then some { state with waiting := state.waiting - 1 }.subscribe
    else none
  | .reconnect relays => some (state.reconnect relays)
  | .addRelay url relays =>
    if url ∈ state.urls then some state
    else some ({ state with urls := state.urls ++ [url] }.reconnect relays)
  | .removeRelay url relays =>
    let filtered := state.urls.filter (· ≠ url)
    if filtered.length = state.urls.length ∨ filtered.length = 0 then some state
    else some ({ state with urls := filtered }.reconnect relays)
  | .destroy =>
    let closed := (state.closeFeed .destroy).closeAll .destroy
    some { closed with pool := false, destroyed := true }
  | .disconnect sub => if sub ∈ state.openSubs then some (state.closeSub .relays sub) else none
  | .onclose closer =>
    if closer ∈ state.closing then
      some { state with closing := state.closing.erase closer, timers := state.timers ++ [closer] }
    else none
  | .timer closer relays =>
    if closer ∈ state.timers then
      some ({ state with timers := state.timers.erase closer }.reconnect relays)
    else none

/-- Whether a move connects the feed anew, and closes it first where `closes`. -/
inductive Connects where
  | no
  | opens
  | closesFirst
  deriving DecidableEq

def Move.connects (state : Manager) : Move → Connects
  | .initFeed => if state.pool && state.feedSub.isSome then .no else .opens
  | .reconnect _ | .timer _ _ => .closesFirst
  | .addRelay url _ => if url ∈ state.urls then .no else .closesFirst
  | .removeRelay url _ =>
    let filtered := state.urls.filter (· ≠ url)
    if filtered.length = state.urls.length ∨ filtered.length = 0 then .no else .closesFirst
  | .timestamp | .destroy | .disconnect _ | .onclose _ => .no

/-- The feed is connected anew only while no other connect waits for its timestamp, and a
reconnect finds no open subscription to close. -/
structure Orderly (state : Manager) (move : Move) : Prop where
  alone : move.connects state ≠ .no → state.waiting = 0
  closed : move.connects state = .closesFirst → state.openSubs = []

/-! ## Closing -/

variable {state next : Manager} {closer : Closer} {relays : List String}

namespace Manager

/-- What is about to fire once some subscriptions are closed. -/
structure Due (closer : Closer) (state : Manager) (closing : List Closer) : Prop where
  only : ∀ other ∈ closing, other ∈ state.closing ∨ other = closer
  unopened : state.openSubs = [] → closing = state.closing

theorem foldl_closeSub (closer : Closer) (subs : List Nat) : ∀ state : Manager, ∃ closing,
    subs.foldl (closeSub closer) state =
      { state with openSubs := state.openSubs.filter (· ∉ subs), closing := closing } ∧
    Due closer state closing := by
  induction subs with
  | nil => exact fun state => ⟨state.closing, by simp, fun _ => .inl, fun _ => rfl⟩
  | cons sub rest ih =>
    intro state
    obtain ⟨closing, closed, due⟩ := ih (state.closeSub closer sub)
    refine ⟨closing, ?_, fun other member => ?_, fun none => ?_⟩
    · rw [List.foldl_cons, closed]
      unfold closeSub
      split
      · have both : ((state.openSubs.filter (· ≠ sub)).filter (· ∉ rest)) =
            state.openSubs.filter (· ∉ sub :: rest) := by
          rw [List.filter_filter]
          refine List.filter_congr fun other _ => ?_
          by_cases same : other = sub <;> simp [same]
        rw [← both]
      · rename_i absent
        have same : state.openSubs.filter (· ∉ rest) =
            state.openSubs.filter (· ∉ sub :: rest) := by
          refine List.filter_congr fun other held => ?_
          have differs : other ≠ sub := fun equal => absent (equal ▸ held)
          simp [differs]
        rw [same]
    · rcases due.only other member with held | same
      · unfold closeSub at held
        split at held
        · rcases List.mem_append.mp held with old | last
          · exact .inl old
          · exact .inr (List.mem_singleton.mp last)
        · exact .inl held
      · exact .inr same
    · have same : state.closeSub closer sub = state := by
        unfold closeSub
        rw [none]
        exact if_neg List.not_mem_nil
      rw [same] at due
      exact due.unopened none

theorem closeSub_due (closer : Closer) (state : Manager) (sub : Nat) :
    Due closer state (state.closeSub closer sub).closing := by
  unfold closeSub
  split
  · rename_i held
    refine ⟨fun other member => ?_, fun none => ?_⟩
    · exact (List.mem_append.mp member).imp_right List.mem_singleton.mp
    · rw [none] at held
      contradiction
  · exact ⟨fun _ => .inl, fun _ => rfl⟩

/-- Every feed subscription that is open is one that a reconnect closes. -/
def Tracked (state : Manager) : Prop := ∀ sub ∈ state.openSubs, sub ∈ state.activeSubs

theorem closeFeed_eq (closer : Closer) (state : Manager) : ∃ closing activeSubs openSubs,
    state.closeFeed closer = { state with
      feedSub := none
      activeSubs := activeSubs
      openSubs := openSubs
      closing := closing } ∧
    Due closer state closing ∧ (state.openSubs = [] → openSubs = []) ∧
    (state.Tracked → ∀ sub ∈ openSubs, sub ∈ activeSubs) := by
  obtain ⟨pool, urls, feedSub, actives, opens, due, waiting, timers, opened, destroyed⟩ := state
  cases feedSub with
  | none => exact ⟨due, actives, opens, rfl, ⟨fun _ => .inl, fun _ => rfl⟩, id, id⟩
  | some sub =>
    generalize held : ({
      pool := pool, urls := urls, feedSub := some sub, activeSubs := actives, openSubs := opens,
      closing := due, waiting := waiting, timers := timers, opened := opened,
      destroyed := destroyed } : Manager) = state
    have feed : state.feedSub = some sub := by rw [← held]
    have due := closeSub_due closer state sub
    refine ⟨(state.closeSub closer sub).closing, (state.closeSub closer sub).activeSubs.erase sub,
      (state.closeSub closer sub).openSubs, ?_, due, fun none => ?_, fun tracked other held => ?_⟩
    · unfold closeFeed
      rw [feed]
      by_cases open_ : sub ∈ state.openSubs
      · simp only [closeSub, if_pos open_]
      · simp only [closeSub, if_neg open_]
    · unfold closeSub
      rw [none, if_neg List.not_mem_nil]
      exact none
    · unfold closeSub at held ⊢
      split at held
      · rename_i open_
        rw [if_pos open_]
        obtain ⟨member, differs⟩ := List.mem_filter.mp held
        exact (List.mem_erase_of_ne (of_decide_eq_true differs)).mpr (tracked other member)
      · rename_i shut
        rw [if_neg shut]
        have differs : other ≠ sub := fun same => shut (same ▸ held)
        exact (List.mem_erase_of_ne differs).mpr (tracked other held)

theorem shut_eq (closer : Closer) (state : Manager) : ∃ closing openSubs,
    (state.closeFeed closer).closeAll closer = { state with
      feedSub := none
      activeSubs := []
      openSubs := openSubs
      closing := closing } ∧
    Due closer state closing ∧ (state.openSubs = [] ∨ state.Tracked → openSubs = []) := by
  obtain ⟨closing, activeSubs, openSubs, closed, due, none, tracked⟩ := closeFeed_eq closer state
  rw [closed]
  unfold closeAll
  obtain ⟨closing', shut, due'⟩ := foldl_closeSub closer activeSubs { state with
    feedSub := Option.none
    activeSubs := activeSubs
    openSubs := openSubs
    closing := closing }
  dsimp only
  rw [shut]
  refine ⟨closing', _, rfl, ⟨fun other member => ?_, fun empty => ?_⟩, fun either => ?_⟩
  · rcases due'.only other member with held | same
    · exact due.only other held
    · exact .inr same
  · exact (due'.unopened (none empty)).trans (due.unopened empty)
  · refine List.filter_eq_nil_iff.mpr fun sub held => ?_
    rcases either with empty | track
    · rw [none empty] at held
      contradiction
    · simp [tracked track sub held]

theorem reconnect_eq (state : Manager) (relays : List String) : ∃ closing openSubs,
    state.reconnect relays = { state with
      urls := relays
      feedSub := none
      activeSubs := []
      openSubs := openSubs
      closing := closing
      waiting := if state.pool then state.waiting + 1 else state.waiting } ∧
    Due .reconnect state closing ∧ (state.openSubs = [] ∨ state.Tracked → openSubs = []) := by
  obtain ⟨closing, openSubs, shut, due, empty⟩ := shut_eq .reconnect state
  refine ⟨closing, openSubs, ?_, due, empty⟩
  unfold reconnect connectFeed
  dsimp only
  rw [shut]
  split <;> rfl

end Manager

open Manager

/-! ## Runs -/

structure Sound (state : Manager) : Prop where
  one : state.openSubs = [] ∨ ∃ sub, state.openSubs = [sub] ∧ state.feedSub = some sub
  tracked : state.Tracked
  waiting : state.waiting ≤ 1
  idle : 0 < state.waiting → state.openSubs = []
  due : .reconnect ∉ state.closing
  timers : .reconnect ∉ state.timers

theorem Sound.reconnect (sound : Sound state) (alone : state.waiting = 0) (closed : state.openSubs = [])
    (relays : List String) : Sound (state.reconnect relays) := by
  obtain ⟨closing, openSubs, same, due, empty⟩ := reconnect_eq state relays
  have none := empty (.inl closed)
  have kept := due.unopened closed
  rw [same, none, kept]
  refine ⟨.inl rfl, fun _ absurd => (nomatch absurd), ?_, fun _ => rfl, sound.due, sound.timers⟩
  dsimp only
  split <;> omega

theorem Sound.connectFeed (sound : Sound state) (alone : state.waiting = 0)
    (closed : state.openSubs = []) : Sound state.connectFeed := by
  unfold Manager.connectFeed
  split
  · exact ⟨sound.one, sound.tracked, by dsimp only; omega, fun _ => closed, sound.due, sound.timers⟩
  · exact sound

theorem sound_step (sound : Sound state) {move : Move} (orderly : Orderly state move)
    (moved : step state move = some next) : Sound next := by
  cases move with
  | initFeed =>
    simp only [step] at moved
    split at moved
    · cases moved
      exact sound
    · rename_i unheld
      cases moved
      have opens : (Move.initFeed).connects state ≠ .no := by
        simp only [Move.connects, unheld]
        decide
      have alone := orderly.alone opens
      cases pool : state.pool with
      | false =>
        unfold Manager.connectFeed
        rw [pool]
        exact sound
      | true =>
        refine sound.connectFeed alone ?_
        rcases sound.one with none | ⟨sub, _, held⟩
        · exact none
        · rw [pool, held] at unheld
          exact absurd rfl unheld
  | timestamp =>
    simp only [step] at moved
    split at moved
    · rename_i waits
      cases moved
      have none := sound.idle waits
      have one := sound.waiting
      unfold Manager.subscribe
      dsimp only
      split
      · refine ⟨.inr ⟨state.opened, by rw [none]; rfl, rfl⟩, fun sub held => ?_,
          by dsimp only; omega, fun absurd => ?_, sound.due, sound.timers⟩
        · rw [none] at held
          have same := List.mem_singleton.mp held
          rw [same]
          exact List.mem_append_right _ List.mem_cons_self
        · dsimp only at absurd
          omega
      · exact ⟨.inl none, sound.tracked, by dsimp only; omega, fun _ => none, sound.due,
          sound.timers⟩
    · contradiction
  | reconnect relays =>
    cases moved
    exact sound.reconnect (orderly.alone fun absurd => (nomatch absurd)) (orderly.closed rfl) relays
  | addRelay url relays =>
    simp only [step] at moved
    split at moved
    · cases moved
      exact sound
    · rename_i added
      cases moved
      have connects : (Move.addRelay url relays).connects state = .closesFirst := by
        simp only [Move.connects, added, if_false]
      have kept : Sound { state with urls := state.urls ++ [url] } :=
        ⟨sound.one, sound.tracked, sound.waiting, sound.idle, sound.due, sound.timers⟩
      exact kept.reconnect (orderly.alone (by rw [connects]; decide)) (orderly.closed connects) relays
  | removeRelay url relays =>
    simp only [step] at moved
    split at moved
    · cases moved
      exact sound
    · rename_i removed
      cases moved
      have connects : (Move.removeRelay url relays).connects state = .closesFirst := by
        simp only [Move.connects, removed, if_false]
      have kept : Sound { state with urls := state.urls.filter (· ≠ url) } :=
        ⟨sound.one, sound.tracked, sound.waiting, sound.idle, sound.due, sound.timers⟩
      exact kept.reconnect (orderly.alone (by rw [connects]; decide)) (orderly.closed connects) relays
  | destroy =>
    simp only [step] at moved
    obtain ⟨closing, openSubs, shut, due, empty⟩ := shut_eq .destroy state
    rw [shut] at moved
    cases moved
    have none := empty (.inr sound.tracked)
    refine ⟨.inl none, fun _ held => ?_, sound.waiting, fun _ => none, fun member => ?_,
      sound.timers⟩
    · rw [none] at held
      contradiction
    · rcases due.only _ member with held | absurd
      · exact sound.due held
      · contradiction
  | disconnect sub =>
    simp only [step] at moved
    split at moved
    · rename_i held
      cases moved
      unfold Manager.closeSub
      rw [if_pos held]
      have closed : state.openSubs.filter (· ≠ sub) = [] := by
        rcases sound.one with none | ⟨other, is, _⟩
        · rw [none]
          rfl
        · rw [is] at held ⊢
          simp [List.mem_singleton.mp held]
      refine ⟨.inl closed, fun _ held => ?_, sound.waiting, fun _ => closed, fun member => ?_,
        sound.timers⟩
      · rw [closed] at held
        contradiction
      · rcases List.mem_append.mp member with old | last
        · exact sound.due old
        · exact absurd (List.mem_singleton.mp last) (by decide)
    · contradiction
  | onclose closer =>
    simp only [step] at moved
    split at moved
    · rename_i held
      cases moved
      refine ⟨sound.one, sound.tracked, sound.waiting, sound.idle,
        fun member => sound.due (List.mem_of_mem_erase member), fun member => ?_⟩
      rcases List.mem_append.mp member with old | last
      · exact sound.timers old
      · rw [← List.mem_singleton.mp last] at held
        exact sound.due held
    · contradiction
  | timer closer relays =>
    simp only [step] at moved
    split at moved
    · cases moved
      have kept : Sound { state with timers := state.timers.erase closer } :=
        ⟨sound.one, sound.tracked, sound.waiting, sound.idle, sound.due,
          fun member => sound.timers (List.mem_of_mem_erase member)⟩
      exact kept.reconnect (orderly.alone fun absurd => (nomatch absurd)) (orderly.closed rfl) relays
    · contradiction

/-- What holds however the moves are ordered: the open subscriptions can be closed, and without a
pool there are none. -/
structure Kept (state : Manager) : Prop where
  tracked : state.Tracked
  down : state.destroyed = true → state.pool = false ∧ state.openSubs = []

theorem Kept.reconnect (kept : Kept state) (relays : List String) :
    Kept (state.reconnect relays) ∧ (state.reconnect relays).opened = state.opened := by
  obtain ⟨closing, openSubs, same, _, empty⟩ := reconnect_eq state relays
  rw [same, empty (.inr kept.tracked)]
  exact ⟨⟨fun _ absurd => (nomatch absurd), fun destroyed => ⟨(kept.down destroyed).1, rfl⟩⟩, rfl⟩

theorem Kept.connectFeed (kept : Kept state) :
    Kept state.connectFeed ∧ state.connectFeed.opened = state.opened := by
  unfold Manager.connectFeed
  split
  · exact ⟨⟨kept.tracked, kept.down⟩, rfl⟩
  · exact ⟨kept, rfl⟩

theorem kept_step (kept : Kept state) {move : Move} (moved : step state move = some next) :
    Kept next ∧ (state.destroyed = true → next.destroyed = true ∧ next.opened = state.opened) := by
  have reconnects : ∀ (other : Manager) (relays : List String), Kept other →
      other.destroyed = state.destroyed → other.opened = state.opened →
        Kept (other.reconnect relays) ∧ (state.destroyed = true →
          (other.reconnect relays).destroyed = true ∧
            (other.reconnect relays).opened = state.opened) := by
    intro other relays held destroyed opened
    have whole := held.reconnect relays
    refine ⟨whole.1, fun down => ⟨?_, whole.2.trans opened⟩⟩
    obtain ⟨_, _, same, _⟩ := reconnect_eq other relays
    rw [same]
    exact destroyed.trans down
  cases move with
  | initFeed =>
    simp only [step] at moved
    split at moved
    · cases moved
      exact ⟨kept, fun down => ⟨down, rfl⟩⟩
    · cases moved
      refine ⟨kept.connectFeed.1, fun down => ⟨?_, kept.connectFeed.2⟩⟩
      unfold Manager.connectFeed
      split <;> exact down
  | timestamp =>
    simp only [step] at moved
    split at moved
    · cases moved
      unfold Manager.subscribe
      dsimp only
      split
      · rename_i pool
        refine ⟨⟨fun sub held => ?_, fun down => ?_⟩, fun down => ?_⟩
        · rcases List.mem_append.mp held with old | last
          · exact List.mem_append_left _ (kept.tracked sub old)
          · exact List.mem_append_right _ last
        all_goals
          rw [(kept.down down).1] at pool
          contradiction
      · exact ⟨⟨kept.tracked, kept.down⟩, fun down => ⟨down, rfl⟩⟩
    · contradiction
  | reconnect relays =>
    cases moved
    exact reconnects state relays kept rfl rfl
  | addRelay url relays =>
    simp only [step] at moved
    split at moved
    · cases moved
      exact ⟨kept, fun down => ⟨down, rfl⟩⟩
    · cases moved
      exact reconnects { state with urls := state.urls ++ [url] } relays
        ⟨kept.tracked, kept.down⟩ rfl rfl
  | removeRelay url relays =>
    simp only [step] at moved
    split at moved
    · cases moved
      exact ⟨kept, fun down => ⟨down, rfl⟩⟩
    · cases moved
      exact reconnects { state with urls := state.urls.filter (· ≠ url) } relays
        ⟨kept.tracked, kept.down⟩ rfl rfl
  | destroy =>
    simp only [step] at moved
    obtain ⟨closing, openSubs, shut, _, empty⟩ := shut_eq .destroy state
    rw [shut] at moved
    cases moved
    have none := empty (.inr kept.tracked)
    refine ⟨⟨fun _ held => ?_, fun _ => ⟨rfl, none⟩⟩, fun _ => ⟨rfl, rfl⟩⟩
    rw [none] at held
    contradiction
  | disconnect sub =>
    simp only [step] at moved
    split at moved
    · rename_i held
      cases moved
      unfold Manager.closeSub
      rw [if_pos held]
      refine ⟨⟨fun other member => kept.tracked other (List.mem_filter.mp member).1,
        fun down => ?_⟩, fun down => ⟨down, rfl⟩⟩
      rw [(kept.down down).2] at held
      contradiction
    · contradiction
  | onclose closer =>
    simp only [step] at moved
    split at moved
    · cases moved
      exact ⟨⟨kept.tracked, kept.down⟩, fun down => ⟨down, rfl⟩⟩
    · contradiction
  | timer closer relays =>
    simp only [step] at moved
    split at moved
    · cases moved
      exact reconnects { state with timers := state.timers.erase closer } relays
        ⟨kept.tracked, kept.down⟩ rfl rfl
    · contradiction

def begun (pool : Bool) (urls : List String) : Manager := { pool := pool, urls := urls }

/-- At most one feed is open, no reconnect schedules another, and nothing is opened after
`destroy`. -/
theorem feed_is_single {pool : Bool} {urls : List String}
    (reaches : Reaches step Orderly (begun pool urls) state) :
    state.openSubs.length ≤ 1 ∧ .reconnect ∉ state.timers ∧
      (state.destroyed = true → ∀ later, Reaches step (fun _ _ => True) state later →
        later.opened = state.opened ∧ later.openSubs = []) := by
  have start : Sound (begun pool urls) :=
    ⟨.inl rfl, fun _ absurd => (nomatch absurd), Nat.zero_le _, fun _ => rfl,
      fun absurd => (nomatch absurd), fun absurd => (nomatch absurd)⟩
  have sound : Sound state :=
    reaches.invariant start fun _ _ _ sound orderly moved => sound_step sound orderly moved
  have kept : Kept state :=
    reaches.invariant ⟨start.tracked, fun absurd => (nomatch absurd)⟩
      fun _ _ _ kept _ moved => (kept_step kept moved).1
  refine ⟨?_, sound.timers, fun destroyed later onwards => ?_⟩
  · rcases sound.one with none | ⟨sub, is, _⟩
    · rw [none]
      exact Nat.zero_le _
    · rw [is]
      exact Nat.le_refl _
  · have ended : Kept later ∧ later.destroyed = true ∧ later.opened = state.opened :=
      @Reaches.invariant _ _ _ _ _ _ (fun later : Manager => Kept later ∧
        later.destroyed = true ∧ later.opened = state.opened) onwards ⟨kept, destroyed, rfl⟩
        fun _ _ _ held _ moved => by
          obtain ⟨still, down⟩ := kept_step held.1 moved
          obtain ⟨destroyed, opened⟩ := down held.2.1
          exact ⟨still, destroyed, opened.trans held.2.2⟩
    exact ⟨ended.2.2, (ended.1.down ended.2.1).2⟩

/-- A feed that its relays close and that is opened again. -/
theorem feed_is_single_reopened :
    ∃ state, exec step (begun true ["wss://a"])
        [.initFeed, .timestamp, .disconnect 0, .onclose .relays, .timer .relays ["wss://a"],
          .timestamp] = some state ∧
      state.openSubs.length ≤ 1 ∧ .reconnect ∉ state.timers := by
  have executed : ∃ state, exec step (begun true ["wss://a"])
      [.initFeed, .timestamp, .disconnect 0, .onclose .relays, .timer .relays ["wss://a"],
        .timestamp] = some state := ⟨_, rfl⟩
  obtain ⟨state, executed⟩ := executed
  have reaches : Reaches step Orderly (begun true ["wss://a"]) state := by
    refine .of_permitted executed ⟨⟨fun _ => rfl, fun _ => rfl⟩, fun _ first => ?_⟩
    cases first
    refine ⟨⟨fun absurd => absurd.elim rfl, fun absurd => (nomatch absurd)⟩, fun _ second => ?_⟩
    cases second
    refine ⟨⟨fun absurd => absurd.elim rfl, fun absurd => (nomatch absurd)⟩, fun _ third => ?_⟩
    cases third
    refine ⟨⟨fun absurd => absurd.elim rfl, fun absurd => (nomatch absurd)⟩, fun _ fourth => ?_⟩
    cases fourth
    refine ⟨⟨fun _ => rfl, fun _ => rfl⟩, fun _ fifth => ?_⟩
    cases fifth
    exact ⟨⟨fun absurd => absurd.elim rfl, fun absurd => (nomatch absurd)⟩, fun _ _ => trivial⟩
  have single := feed_is_single reaches
  exact ⟨state, executed, single.1, single.2.1⟩

/-- Two first feeds are both open, and a reconnect of an open feed schedules another one. -/
theorem feeds_leak :
    (∃ state, exec step (begun true ["wss://a"]) [.initFeed, .initFeed, .timestamp, .timestamp] =
        some state ∧ state.openSubs = [0, 1]) ∧
    ∃ state, exec step (begun true ["wss://a"])
        [.initFeed, .timestamp, .reconnect ["wss://a"], .onclose .reconnect] = some state ∧
      .reconnect ∈ state.timers :=
  ⟨⟨_, rfl, rfl⟩, ⟨_, rfl, List.mem_cons_self⟩⟩

end NostrWot.Relay
