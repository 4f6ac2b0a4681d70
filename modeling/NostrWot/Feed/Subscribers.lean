import NostrWot.Feed.Observable
import Mathlib.Data.List.Induction
import Mathlib.Data.List.Nodup
import Mathlib.Logic.Function.Basic

namespace NostrWot.Feed.Subscribers

open NostrWot.Data

/-! # Subscribers of a keyed observable

The sets of callbacks of each key and the functions that take a callback out again. Callbacks are
numbers; what a callback does is to call functions that `subscribe` returned.
-/

/-- A function that `subscribe` returned, with the set it captured. -/
structure Subscription (κ : Type) where
  key : κ
  callback : Nat
  set : Nat

structure Call (κ α : Type) where
  callback : Nat
  key : κ
  slot : Slot α
  subscribed : Bool

/-- `subscribed` keeps who is subscribed and not unsubscribed since; `crossed` is set when a function
is called whose set is then empty while the map holds another set for the key. -/
structure KeyedObservable (κ α : Type) where
  slots : Slots κ α
  perKey : κ → Option Nat
  sets : Nat → List Nat
  nextSet : Nat
  functions : List (Subscription κ)
  calls : List (Call κ α)
  subscribed : κ → Nat → Bool
  crossed : Bool

namespace KeyedObservable

variable {κ α : Type}

def fresh : KeyedObservable κ α :=
  ⟨∅, fun _ => none, fun _ => [], 0, [], [], fun _ _ => false, false⟩

variable [DecidableEq κ]

def subscribe (state : KeyedObservable κ α) (key : κ) (callback : Nat) : KeyedObservable κ α :=
  let subscribed := Function.update state.subscribed key
    (Function.update (state.subscribed key) callback true)
  match state.perKey key with
  | some set => { state with
      sets := Function.update state.sets set
        (if (state.sets set).contains callback then state.sets set else state.sets set ++ [callback])
      functions := state.functions ++ [⟨key, callback, set⟩]
      subscribed := subscribed }
  | none => { state with
      perKey := Function.update state.perKey key (some state.nextSet)
      sets := Function.update state.sets state.nextSet [callback]
      nextSet := state.nextSet + 1
      functions := state.functions ++ [⟨key, callback, state.nextSet⟩]
      subscribed := subscribed }

/-- A call of the function that the `index`-th `subscribe` returned. -/
def unsubscribe (state : KeyedObservable κ α) (index : Nat) : KeyedObservable κ α :=
  match state.functions[index]? with
  | none => state
  | some function =>
    let set := (state.sets function.set).erase function.callback
    let held := state.perKey function.key
    { state with
      sets := Function.update state.sets function.set set
      perKey := if set = [] then Function.update state.perKey function.key none else state.perKey
      subscribed := Function.update state.subscribed function.key
        (Function.update (state.subscribed function.key) function.callback false)
      crossed := state.crossed || (set = [] && held ≠ none && held ≠ some function.set) }

/-- The turn of a callback in `forEach`, which passes by those that are no longer in the set. -/
def turn (acts : κ → Nat → List Nat) (key : κ) (slot : Slot α) (set : Nat)
    (state : KeyedObservable κ α) (callback : Nat) : KeyedObservable κ α :=
  if (state.sets set).contains callback then
    (acts key callback).foldl unsubscribe { state with
      calls := state.calls ++ [⟨callback, key, slot, state.subscribed key callback⟩] }
  else state

def notify (acts : κ → Nat → List Nat) (state : KeyedObservable κ α) (key : κ) (slot : Slot α) :
    KeyedObservable κ α :=
  match state.perKey key with
  | none => state
  | some set => (state.sets set).foldl (turn acts key slot set) state

def setSlot (equal : α → α → Bool) (acts : κ → Nat → List Nat) (state : KeyedObservable κ α) (key : κ)
    (value : α) (now : Nat) : KeyedObservable κ α :=
  match state.slots.put equal now key value with
  | (slots, none) => { state with slots := slots }
  | (slots, some next) => notify acts { state with slots := slots } key next

def setStatus (acts : κ → Nat → List Nat) (state : KeyedObservable κ α) (key : κ)
    (status : SlotStatus) : KeyedObservable κ α :=
  match state.slots.setStatus key status with
  | (slots, none) => { state with slots := slots }
  | (slots, some next) => notify acts { state with slots := slots } key next

def clear (acts : κ → Nat → List Nat) (state : KeyedObservable κ α) : KeyedObservable κ α :=
  state.slots.keys.foldl (fun state key => notify acts state key (state.slots.slot key))
    { state with slots := ∅ }

end KeyedObservable

inductive Op (κ α : Type) where
  | subscribe (key : κ) (callback : Nat)
  | unsubscribe (index : Nat)
  | set (key : κ) (value : α) (now : Nat) (acts : κ → Nat → List Nat)
  | setStatus (key : κ) (status : SlotStatus) (acts : κ → Nat → List Nat)
  | clear (acts : κ → Nat → List Nat)

section Runs

variable {κ α : Type} [DecidableEq κ] (equal : α → α → Bool)

open KeyedObservable

def step (state : KeyedObservable κ α) : Op κ α → KeyedObservable κ α
  | .subscribe key callback => state.subscribe key callback
  | .unsubscribe index => state.unsubscribe index
  | .set key value now acts => state.setSlot equal acts key value now
  | .setStatus key status acts => state.setStatus acts key status
  | .clear acts => state.clear acts

def after (ops : List (Op κ α)) : KeyedObservable κ α := ops.foldl (step equal) fresh

def changes (slots : Slots κ α) : Op κ α → List (κ × Slot α)
  | .subscribe _ _ | .unsubscribe _ => []
  | .set key value now _ => ((slots.put equal now key value).2.map fun next => (key, next)).toList
  | .setStatus key status _ => ((slots.setStatus key status).2.map fun next => (key, next)).toList
  | .clear _ => slots.keys.map fun key => (key, Slot.EMPTY)

/-- Each subscriber of a changed key that stays one is told of its new slot, once; and only
subscribers are told. -/
def Tells (state next : KeyedObservable κ α) (changed : List (κ × Slot α)) : Prop :=
  ∃ told : κ → List Nat,
    next.calls = state.calls ++ changed.flatMap (fun change =>
      (told change.1).map fun callback => ⟨callback, change.1, change.2, true⟩) ∧
    ∀ change ∈ changed, next.slots.slot change.1 = change.2 ∧ (told change.1).Nodup ∧
      ∀ callback, state.subscribed change.1 callback = true →
        next.subscribed change.1 callback = true → callback ∈ told change.1

/-! ## What unsubscribing keeps -/

/-- The set is the one that the map holds for the key, unless nobody is in it. -/
def Held (state : KeyedObservable κ α) (key : κ) (set : Nat) : Prop :=
  state.perKey key = some set ∨ state.sets set = []

structure Sound (state : KeyedObservable κ α) : Prop where
  subscribed : ∀ key callback, state.subscribed key callback = true ↔
    ∃ set, state.perKey key = some set ∧ callback ∈ state.sets set
  held : ∀ function ∈ state.functions, Held state function.key function.set
  apart : ∀ key other set, state.perKey key = some set → state.perKey other = some set → key = other
  filled : ∀ key set, state.perKey key = some set → state.sets set ≠ []
  known : ∀ key set, state.perKey key = some set → set < state.nextSet
  old : ∀ function ∈ state.functions, function.set < state.nextSet
  nodup : ∀ set, (state.sets set).Nodup

structure Fewer (state next : KeyedObservable κ α) : Prop where
  sound : Sound state → Sound next
  held : ∀ key set, Held state key set → Held next key set
  kept : ∀ key set, next.perKey key = some set → state.perKey key = some set
  fewer : ∀ set callback, callback ∈ next.sets set → callback ∈ state.sets set

variable {equal} {state next middle : KeyedObservable κ α} {acts : κ → Nat → List Nat} {key : κ}
  {slot : Slot α} {set : Nat}

omit [DecidableEq κ] in
theorem Fewer.refl : Fewer state state :=
  ⟨fun sound => sound, fun _ _ held => held, fun _ _ kept => kept, fun _ _ member => member⟩

omit [DecidableEq κ] in
theorem Fewer.trans (first : Fewer state middle) (rest : Fewer middle next) : Fewer state next where
  sound sound := rest.sound (first.sound sound)
  held key set held := rest.held key set (first.held key set held)
  kept key set kept := first.kept key set (rest.kept key set kept)
  fewer set callback member := first.fewer set callback (rest.fewer set callback member)

omit [DecidableEq κ] in
theorem Fewer.subscribed (fewer : Fewer state next) (sound : Sound state) {callback : Nat}
    (still : next.subscribed key callback = true) : state.subscribed key callback = true := by
  obtain ⟨set, holds, member⟩ := ((fewer.sound sound).subscribed key callback).mp still
  exact (sound.subscribed key callback).mpr
    ⟨set, fewer.kept key set holds, fewer.fewer set callback member⟩

theorem unsubscribe_fewer {index : Nat} (kept : (state.unsubscribe index).crossed = false) :
    Fewer state (state.unsubscribe index) := by
  unfold unsubscribe at kept ⊢
  split
  · exact .refl
  · next function found =>
    simp only [found, Bool.or_eq_false_iff] at kept
    dsimp only
    generalize left : (state.sets function.set).erase function.callback = rest at kept
    have own : rest = [] → state.perKey function.key = none ∨
        state.perKey function.key = some function.set := by
      intro empty
      by_contra other
      have crossed := kept.2
      simp [empty, not_or.mp other] at crossed
    have holds : ∀ key set, (if rest = [] then Function.update state.perKey function.key none
        else state.perKey) key = some set → state.perKey key = some set := by
      intro key set holds
      split at holds
      · by_cases same : key = function.key
        · rw [same, Function.update_self] at holds
          contradiction
        · rwa [Function.update_of_ne same] at holds
      · exact holds
    have shrinks : ∀ set callback, callback ∈ Function.update state.sets function.set rest set →
        callback ∈ state.sets set := by
      intro set callback member
      by_cases same : set = function.set
      · rw [same, Function.update_self, ← left] at member
        rw [same]
        exact List.mem_of_mem_erase member
      · rwa [Function.update_of_ne same] at member
    have bare : ∀ set, state.sets set = [] → Function.update state.sets function.set rest set = [] := by
      intro set empty
      refine List.eq_nil_iff_forall_not_mem.mpr fun callback member => ?_
      exact List.not_mem_nil (empty ▸ shrinks set callback member)
    have stays : ∀ key set, Held state key set →
        (if rest = [] then Function.update state.perKey function.key none
          else state.perKey) key = some set ∨ Function.update state.sets function.set rest set = [] := by
      rintro key set (holds | empty)
      · by_cases gone : rest = [] ∧ key = function.key
        · obtain ⟨empty, rfl⟩ := gone
          rcases own empty with none_ | some_
          · exact absurd (none_.symm.trans holds) (by simp)
          · obtain rfl := Option.some.inj (some_.symm.trans holds)
            exact .inr ((Function.update_self _ _ _).trans empty)
        · left
          split
          · next empty =>
            rw [Function.update_of_ne fun same => gone ⟨empty, same⟩]
            exact holds
          · exact holds
      · exact .inr (bare set empty)
    refine ⟨fun sound => ?_, stays, holds, shrinks⟩
    refine ⟨fun key callback => ?_, fun other member => stays _ _ (sound.held other member),
      fun key other set one two => sound.apart key other set (holds key set one) (holds other set two),
      fun key set holds' bare' => ?_, fun key set holds' => sound.known key set (holds key set holds'), sound.old, fun set => ?_⟩
    · have held := sound.held function (List.mem_of_getElem? found)
      dsimp only
      constructor
      · intro still
        have changed : ¬(key = function.key ∧ callback = function.callback) := by
          rintro ⟨rfl, rfl⟩
          rw [Function.update_self, Function.update_self] at still
          contradiction
        have before : state.subscribed key callback = true := by
          by_cases same : key = function.key
          · subst same
            rwa [Function.update_self, Function.update_of_ne fun same => changed ⟨rfl, same⟩] at still
          · rwa [Function.update_of_ne same] at still
        obtain ⟨set, holds, member⟩ := (sound.subscribed key callback).mp before
        have within : callback ∈ Function.update state.sets function.set rest set := by
          by_cases same : set = function.set
          · subst same
            have alike : key = function.key := by
              rcases held with own | empty
              · exact sound.apart key function.key function.set holds own
              · exact absurd (empty ▸ member) List.not_mem_nil
            rw [Function.update_self, ← left]
            exact (List.mem_erase_of_ne fun same => changed ⟨alike, same⟩).mpr member
          · rwa [Function.update_of_ne same]
        rcases stays key set (.inl holds) with holds' | empty
        · exact ⟨set, holds', within⟩
        · exact absurd (empty ▸ within) List.not_mem_nil
      · rintro ⟨set, holds', member⟩
        have before := (sound.subscribed key callback).mpr
          ⟨set, holds key set holds', shrinks set callback member⟩
        by_cases changed : key = function.key ∧ callback = function.callback
        · obtain ⟨rfl, rfl⟩ := changed
          rcases held with own | empty
          · obtain rfl := Option.some.inj (own.symm.trans (holds _ set holds'))
            rw [Function.update_self, ← left] at member
            exact absurd rfl ((sound.nodup _).mem_erase_iff.mp member).1
          · rw [empty, List.erase_nil] at left
            rw [if_pos left.symm, Function.update_self] at holds'
            contradiction
        · by_cases same : key = function.key
          · subst same
            rwa [Function.update_self, Function.update_of_ne fun same => changed ⟨rfl, same⟩]
          · rwa [Function.update_of_ne same]
    · have before := sound.filled key set (holds key set holds')
      dsimp only at holds' bare'
      by_cases same : set = function.set
      · subst same
        rw [Function.update_self] at bare'
        rw [if_pos bare'] at holds'
        have alike : key = function.key := by
          rcases sound.held function (List.mem_of_getElem? found) with own | empty
          · exact sound.apart key function.key _ (holds key _ (by rwa [if_pos bare'])) own
          · exact absurd empty before
        rw [alike, Function.update_self] at holds'
        contradiction
      · rw [Function.update_of_ne same] at bare'
        exact before bare'
    · dsimp only
      by_cases same : set = function.set
      · rw [same, Function.update_self, ← left]
        exact (sound.nodup _).erase _
      · rw [Function.update_of_ne same]
        exact sound.nodup set

/-! ## What is told -/

theorem crossed_unsubscribe {index : Nat} (crossed : state.crossed = true) :
    (state.unsubscribe index).crossed = true := by
  unfold unsubscribe
  split
  · exact crossed
  · simp [crossed]

omit [DecidableEq κ] in
theorem crossed_foldl {δ : Type} {change : KeyedObservable κ α → δ → KeyedObservable κ α}
    (keeps : ∀ state item, state.crossed = true → (change state item).crossed = true) {items : List δ}
    (kept : (items.foldl change state).crossed = false) : state.crossed = false := by
  induction items generalizing state with
  | nil => exact kept
  | cons item rest ih =>
    have later := ih kept
    by_contra crossed
    rw [keeps state item (Bool.not_eq_false _ ▸ crossed)] at later
    contradiction

theorem crossed_turn {callback : Nat} (crossed : state.crossed = true) :
    (turn acts key slot set state callback).crossed = true := by
  unfold turn
  split
  · by_contra kept
    have before := crossed_foldl (fun _ _ => crossed_unsubscribe) (Bool.not_eq_true _ ▸ kept)
    exact absurd (crossed.symm.trans before) (by decide)
  · exact crossed

theorem crossed_notify (crossed : state.crossed = true) :
    (notify acts state key slot).crossed = true := by
  unfold notify
  split
  · exact crossed
  · by_contra kept
    have before := crossed_foldl (fun _ _ => crossed_turn) (Bool.not_eq_true _ ▸ kept)
    exact absurd (crossed.symm.trans before) (by decide)

theorem unsubscribe_frame (index : Nat) :
    (state.unsubscribe index).slots = state.slots ∧ (state.unsubscribe index).calls = state.calls := by
  unfold unsubscribe
  split
  · exact ⟨rfl, rfl⟩
  · exact ⟨rfl, rfl⟩

theorem unsubscribes_frame (indices : List Nat) :
    (indices.foldl unsubscribe state).slots = state.slots ∧
      (indices.foldl unsubscribe state).calls = state.calls := by
  induction indices generalizing state with
  | nil => exact ⟨rfl, rfl⟩
  | cons index rest ih =>
    obtain ⟨slots, calls⟩ := @unsubscribe_frame κ α _ state index
    exact ⟨ih.1.trans slots, ih.2.trans calls⟩

theorem unsubscribes_fewer {indices : List Nat}
    (kept : (indices.foldl unsubscribe state).crossed = false) :
    Fewer state (indices.foldl unsubscribe state) := by
  induction indices generalizing state with
  | nil => exact .refl
  | cons index rest ih =>
    have first : (state.unsubscribe index).crossed = false :=
      crossed_foldl (fun _ _ => crossed_unsubscribe) kept
    exact (unsubscribe_fewer first).trans (ih kept)

/-- The turns of the callbacks of a set, the ones of `todo` still to come. -/
theorem turns {todo : List Nat} (sound : Sound state) (held : Held state key set)
    (kept : (todo.foldl (turn acts key slot set) state).crossed = false) :
    Fewer state (todo.foldl (turn acts key slot set) state) ∧ ∃ told : List Nat, told.Sublist todo ∧
      (todo.foldl (turn acts key slot set) state).calls =
        state.calls ++ told.map (fun callback => ⟨callback, key, slot, true⟩) ∧
      ∀ callback ∈ todo, callback ∈ (todo.foldl (turn acts key slot set) state).sets set →
        callback ∈ told := by
  induction todo generalizing state with
  | nil => exact ⟨.refl, [], List.Sublist.refl _, (List.append_nil _).symm, fun _ member _ => member⟩
  | cons callback rest ih =>
    rw [List.foldl_cons] at kept ⊢
    have first := crossed_foldl (fun _ _ => crossed_turn) kept
    by_cases within : (state.sets set).contains callback = true
    · have member := List.contains_iff_mem.mp within
      have own : state.perKey key = some set :=
        held.resolve_right fun empty => List.not_mem_nil (empty ▸ member)
      have subscribed := (sound.subscribed key callback).mpr ⟨set, own, member⟩
      have called : Fewer state { state with
          calls := state.calls ++ [⟨callback, key, slot, state.subscribed key callback⟩] } :=
        ⟨fun sound => ⟨sound.subscribed, sound.held, sound.apart, sound.filled, sound.known, sound.old,
          sound.nodup⟩,
          fun _ _ held => held, fun _ _ kept => kept, fun _ _ member => member⟩
      have visited : turn acts key slot set state callback = _ := if_pos within
      have made := (unsubscribes_frame (acts key callback)).2.symm.trans (congrArg _ visited.symm)
      rw [visited] at first
      have fewer := called.trans (unsubscribes_fewer first)
      rw [← visited] at fewer
      obtain ⟨later, told, among, calls, all⟩ := ih (fewer.sound sound) (fewer.held key set held) kept
      refine ⟨fewer.trans later, callback :: told, among.cons_cons _, ?_, fun other member still => ?_⟩
      · rw [calls, ← made, subscribed, List.append_assoc]
        rfl
      · rcases List.mem_cons.mp member with rfl | member
        · exact List.mem_cons_self
        · exact List.mem_cons_of_mem _ (all other member still)
    · have passed : turn acts key slot set state callback = state := if_neg within
      rw [passed] at kept ⊢
      obtain ⟨fewer, told, among, calls, all⟩ := ih sound held kept
      refine ⟨fewer, told, among.cons _, calls, fun other member still => ?_⟩
      rcases List.mem_cons.mp member with rfl | member
      · exact absurd (List.contains_iff_mem.mpr (fewer.fewer set other still)) within
      · exact all other member still

/-- The subscribers of a key that stay so are told, once each. -/
theorem notify_tells (sound : Sound state) (kept : (notify acts state key slot).crossed = false) :
    Fewer state (notify acts state key slot) ∧ ∃ told : List Nat, told.Nodup ∧
      (notify acts state key slot).calls =
        state.calls ++ told.map (fun callback => ⟨callback, key, slot, true⟩) ∧
      ∀ callback, state.subscribed key callback = true →
        (notify acts state key slot).subscribed key callback = true → callback ∈ told := by
  cases holds : state.perKey key with
  | none =>
    have silent : notify acts state key slot = state := by
      unfold notify
      rw [holds]
    rw [silent]
    refine ⟨.refl, [], List.nodup_nil, (List.append_nil _).symm, fun callback now _ => ?_⟩
    obtain ⟨set, holds', -⟩ := (sound.subscribed key callback).mp now
    exact absurd (holds.symm.trans holds') (by simp)
  | some set =>
    have visits : notify acts state key slot =
        (state.sets set).foldl (turn acts key slot set) state := by
      unfold notify
      rw [holds]
    rw [visits] at kept ⊢
    obtain ⟨fewer, told, among, calls, all⟩ := turns sound (.inl holds) kept
    refine ⟨fewer, told, (sound.nodup set).sublist among, calls, fun callback now still => ?_⟩
    obtain ⟨other, holds', member⟩ := ((fewer.sound sound).subscribed key callback).mp still
    obtain rfl := Option.some.inj (holds.symm.trans (fewer.kept key other holds'))
    exact all callback (fewer.fewer _ callback member) member

theorem notifies_tell {changed : List (κ × Slot α)} (keys : (changed.map Prod.fst).Nodup)
    (sound : Sound state)
    (kept : (changed.foldl (fun state change => notify acts state change.1 change.2) state).crossed =
      false) :
    Fewer state (changed.foldl (fun state change => notify acts state change.1 change.2) state) ∧
      ∃ told : κ → List Nat,
        (changed.foldl (fun state change => notify acts state change.1 change.2) state).calls =
          state.calls ++ changed.flatMap (fun change =>
            (told change.1).map fun callback => ⟨callback, change.1, change.2, true⟩) ∧
        ∀ change ∈ changed, (told change.1).Nodup ∧ ∀ callback,
          state.subscribed change.1 callback = true →
          (changed.foldl (fun state change => notify acts state change.1 change.2) state).subscribed
            change.1 callback = true → callback ∈ told change.1 := by
  induction changed generalizing state with
  | nil =>
    exact ⟨.refl, fun _ => [], (List.append_nil _).symm, fun _ member => (List.not_mem_nil member).elim⟩
  | cons change rest ih =>
    obtain ⟨apart, keys⟩ := List.nodup_cons.mp keys
    rw [List.foldl_cons] at kept ⊢
    have first := crossed_foldl (fun _ _ => crossed_notify) kept
    obtain ⟨fewer, told, nodup, calls, all⟩ := notify_tells sound first
    obtain ⟨later, others, calls', all'⟩ := ih keys (fewer.sound sound) kept
    have other : ∀ more ∈ rest, Function.update others change.1 told more.1 = others more.1 := by
      intro more member
      refine Function.update_of_ne (fun same => apart ?_) _ _
      rw [← same]
      exact List.mem_map_of_mem member
    refine ⟨fewer.trans later, Function.update others change.1 told, ?_, ?_⟩
    · rw [calls', calls, List.flatMap_cons, Function.update_self, List.append_assoc]
      refine congrArg _ (congrArg _ (List.flatMap_congr fun more member => ?_))
      rw [other more member]
    · intro more member
      rcases List.mem_cons.mp member with rfl | member
      · rw [Function.update_self]
        exact ⟨nodup, fun callback now still => all callback now
          (later.subscribed (fewer.sound sound) still)⟩
      · rw [other more member]
        obtain ⟨nodup', all'⟩ := all' more member
        exact ⟨nodup', fun callback now still => all' callback
          (later.subscribed (fewer.sound sound) still) still⟩

/-! ## Runs -/

theorem slots_notify : (notify acts state key slot).slots = state.slots := by
  have visits : ∀ (set : Nat) (todo : List Nat) (state : KeyedObservable κ α),
      (todo.foldl (turn acts key slot set) state).slots = state.slots := by
    intro set todo
    induction todo with
    | nil => exact fun _ => rfl
    | cons callback rest ih =>
      intro state
      refine (ih _).trans ?_
      unfold turn
      split
      · exact (unsubscribes_frame _).1
      · rfl
  unfold notify
  split
  · rfl
  · exact visits _ _ _

theorem slots_notifies (changed : List (κ × Slot α)) :
    (changed.foldl (fun state change => notify acts state change.1 change.2) state).slots =
      state.slots := by
  induction changed generalizing state with
  | nil => rfl
  | cons change rest ih => exact (ih).trans slots_notify

/-- What the callbacks that an operation calls do. -/
def actsOf : Op κ α → κ → Nat → List Nat
  | .subscribe _ _ | .unsubscribe _ => fun _ _ => []
  | .set _ _ _ acts | .setStatus _ _ acts | .clear acts => acts

/-- An operation on the slots first makes its changes and then tells of them. -/
theorem step_eq (op : Op κ α) (other : ∀ key callback, op ≠ .subscribe key callback)
    (other' : ∀ index, op ≠ .unsubscribe index) :
    ∃ slots : Slots κ α, (∀ change ∈ changes equal state.slots op, slots.slot change.1 = change.2) ∧
      step equal state op = (changes equal state.slots op).foldl
        (fun state change => notify (actsOf op) state change.1 change.2)
        { state with slots := slots } := by
  cases op with
  | subscribe key callback => exact absurd rfl (other key callback)
  | unsubscribe index => exact absurd rfl (other' index)
  | set key value now acts =>
    refine ⟨(state.slots.put equal now key value).1, ?_, ?_⟩
    · rcases Slots.put_cases state.slots equal now key value with
        ⟨_, -, -, none_, -⟩ | ⟨-, some_, changed⟩
      · simp [changes, none_]
      · simp [changes, some_, changed]
    · unfold step setSlot changes
      dsimp only
      rcases state.slots.put equal now key value with ⟨slots, _ | next⟩
      · rfl
      · rfl
  | setStatus key status acts =>
    exact ⟨(state.slots.setStatus key status).1, by simp [changes, Slots.setStatus], rfl⟩
  | clear acts =>
    refine ⟨∅, ?_, ?_⟩
    · intro change member
      obtain ⟨key, -, rfl⟩ := List.mem_map.mp member
      rfl
    · have told : ∀ (keys : List κ) (state : KeyedObservable κ α), state.slots = ∅ →
          keys.foldl (fun state key => notify acts state key (state.slots.slot key)) state =
            (keys.map fun key => (key, Slot.EMPTY)).foldl
              (fun state change => notify acts state change.1 change.2) state := by
        intro keys
        induction keys with
        | nil => exact fun _ _ => rfl
        | cons key rest ih =>
          intro state empty
          have slot : state.slots.slot key = Slot.EMPTY := by
            rw [empty]
            rfl
          rw [List.foldl_cons, slot]
          exact ih _ (slots_notify.trans empty)
      exact told _ _ rfl

/-- A callback is put into the set of a key, which is the one the map holds or a new one. -/
theorem Sound.put (sound : Sound state) {callback nextSet : Nat} {rest : List Nat}
    (own : state.perKey key = some set ∨ state.perKey key = none ∧ set = state.nextSet)
    (members : ∀ other, other ∈ rest ↔ state.subscribed key other = true ∨ other = callback)
    (nodup : rest.Nodup) (old : state.nextSet ≤ nextSet) (known : set < nextSet) :
    Sound { state with
      perKey := Function.update state.perKey key (some set)
      sets := Function.update state.sets set rest
      nextSet := nextSet
      functions := state.functions ++ [⟨key, callback, set⟩]
      subscribed := Function.update state.subscribed key
        (Function.update (state.subscribed key) callback true) } := by
  have nonempty : rest ≠ [] := List.ne_nil_of_mem ((members callback).mpr (.inr rfl))
  have placed : ∀ other own', Function.update state.perKey key (some set) other = some own' →
      other = key ∧ own' = set ∨ other ≠ key ∧ own' ≠ set ∧ state.perKey other = some own' := by
    intro other own' holds
    by_cases same : other = key
    · rw [same, Function.update_self] at holds
      exact .inl ⟨same, (Option.some.inj holds).symm⟩
    · rw [Function.update_of_ne same] at holds
      refine .inr ⟨same, ?_, holds⟩
      rintro rfl
      rcases own with own | ⟨-, new⟩
      · exact same (sound.apart other key own' holds own)
      · exact absurd (sound.known other own' holds) (new ▸ Nat.lt_irrefl _)
  constructor
  · intro other late
    dsimp only
    by_cases same : other = key
    · subst same
      simp only [Function.update_self, Option.some.injEq, exists_eq_left', members]
      by_cases alike : late = callback
      · simp [alike]
      · simp [alike]
    · rw [Function.update_of_ne same, Function.update_of_ne same, sound.subscribed other late]
      refine exists_congr fun own' => and_congr_right fun holds => ?_
      obtain ⟨-, differs, -⟩ := (placed other own' ((Function.update_of_ne same _ _).trans holds)).resolve_left
        fun both => same both.1
      rw [Function.update_of_ne differs]
  · intro function member
    rcases List.mem_append.mp member with among | last
    · rcases sound.held function among with held | empty
      · left
        dsimp only
        by_cases same : function.key = key
        · rw [same] at held ⊢
          rcases own with own | ⟨none_, -⟩
          · rw [Function.update_self, ← own, held]
          · exact absurd (none_.symm.trans held) (by simp)
        · rwa [Function.update_of_ne same]
      · refine .inr ((Function.update_of_ne ?_ _ _).trans empty)
        intro same
        rcases own with own | ⟨-, new⟩
        · exact sound.filled key set own (same ▸ empty)
        · exact absurd (sound.old function among) (same.trans new ▸ Nat.lt_irrefl _)
    · rw [List.mem_singleton.mp last]
      exact .inl (Function.update_self _ _ _)
  · intro one two own' first second
    rcases placed one own' first with ⟨rfl, rfl⟩ | ⟨-, differs, first⟩ <;>
      rcases placed two _ second with ⟨rfl, same⟩ | ⟨-, differs', second⟩
    · rfl
    · exact absurd rfl differs'
    · exact absurd same differs
    · exact sound.apart one two own' first second
  · intro other own' holds
    dsimp only
    rcases placed other own' holds with ⟨-, rfl⟩ | ⟨-, differs, holds⟩
    · rwa [Function.update_self]
    · rw [Function.update_of_ne differs]
      exact sound.filled other own' holds
  · intro other own' holds
    rcases placed other own' holds with ⟨-, rfl⟩ | ⟨-, -, holds⟩
    · exact known
    · exact Nat.lt_of_lt_of_le (sound.known other own' holds) old
  · intro function member
    rcases List.mem_append.mp member with among | last
    · exact Nat.lt_of_lt_of_le (sound.old function among) old
    · rw [List.mem_singleton.mp last]
      exact known
  · intro other
    dsimp only
    by_cases same : other = set
    · rw [same, Function.update_self]
      exact nodup
    · rw [Function.update_of_ne same]
      exact sound.nodup other

theorem Sound.subscribe (sound : Sound state) (key : κ) (callback : Nat) :
    Sound (state.subscribe key callback) := by
  unfold KeyedObservable.subscribe
  dsimp only
  cases holds : state.perKey key with
  | none =>
    have nobody : ∀ late, state.subscribed key late = false := by
      intro late
      refine Bool.eq_false_iff.mpr fun now => ?_
      obtain ⟨set, holds', -⟩ := (sound.subscribed key late).mp now
      exact absurd (holds.symm.trans holds') (by simp)
    exact sound.put (.inr ⟨holds, rfl⟩) (fun other => by simp [nobody other])
      (List.nodup_singleton _) (Nat.le_succ _) (Nat.lt_succ_self _)
  | some set =>
    have there : ∀ other, state.subscribed key other = true ↔ other ∈ state.sets set := by
      intro other
      rw [sound.subscribed, holds]
      simp
    have same : Function.update state.perKey key (some set) = state.perKey := by
      rw [← holds]
      exact Function.update_eq_self _ _
    have old := sound.known key set holds
    dsimp only
    split
    · next within =>
      have member := List.contains_iff_mem.mp within
      have whole := @Sound.put _ _ _ _ key set sound callback _ _ (.inl holds) (fun other => by
        rw [there]
        exact ⟨.inl, fun either => either.elim id (fun same => same ▸ member)⟩)
        (sound.nodup set) (Nat.le_refl _) old
      rwa [same] at whole
    · next outside =>
      have nodup : (state.sets set ++ [callback]).Nodup := by
        refine List.nodup_append.mpr ⟨sound.nodup set, List.nodup_singleton _, ?_⟩
        intro one among another last alike
        rw [alike, List.mem_singleton.mp last] at among
        exact outside (List.contains_iff_mem.mpr among)
      have whole := @Sound.put _ _ _ _ key set sound callback _ _ (.inl holds) (fun other => by
        rw [there, List.mem_append, List.mem_singleton]) nodup (Nat.le_refl _) old
      rwa [same] at whole

theorem nodup_changes (op : Op κ α) : ((changes equal state.slots op).map Prod.fst).Nodup := by
  cases op with
  | subscribe key callback => exact List.nodup_nil
  | unsubscribe index => exact List.nodup_nil
  | set key value now acts =>
    unfold changes
    dsimp only
    cases (state.slots.put equal now key value).2 with
    | none => exact List.nodup_nil
    | some next => exact List.nodup_singleton _
  | setStatus key status acts => exact List.nodup_singleton _
  | clear acts =>
    have keys : (Prod.fst ∘ fun key : κ => (key, (Slot.EMPTY : Slot α))) = id := rfl
    unfold changes
    rw [List.map_map, keys, List.map_id]
    exact state.slots.nodup

theorem step_sound (sound : Sound state) {op : Op κ α} (kept : (step equal state op).crossed = false) :
    Sound (step equal state op) ∧
      Tells state (step equal state op) (changes equal state.slots op) := by
  have silent : ∀ next : KeyedObservable κ α, next.calls = state.calls → Tells state next [] :=
    fun next calls => ⟨fun _ => [], calls.trans (List.append_nil _).symm,
      fun _ member => (List.not_mem_nil member).elim⟩
  by_cases subscribes : ∃ key callback, op = .subscribe key callback
  · obtain ⟨key, callback, rfl⟩ := subscribes
    refine ⟨sound.subscribe key callback, silent _ ?_⟩
    unfold step subscribe
    dsimp only
    split
    · rfl
    · rfl
  by_cases unsubscribes : ∃ index, op = .unsubscribe index
  · obtain ⟨index, rfl⟩ := unsubscribes
    exact ⟨(unsubscribe_fewer kept).sound sound, silent _ (unsubscribe_frame index).2⟩
  obtain ⟨slots, changed, same⟩ := @step_eq κ α _ equal state op
    (fun key callback alike => subscribes ⟨key, callback, alike⟩)
    (fun index alike => unsubscribes ⟨index, alike⟩)
  have ready : Sound { state with slots := slots } :=
    ⟨sound.subscribed, sound.held, sound.apart, sound.filled, sound.known, sound.old, sound.nodup⟩
  rw [same] at kept ⊢
  obtain ⟨fewer, told, calls, all⟩ := notifies_tell (nodup_changes op) ready kept
  refine ⟨fewer.sound ready, told, calls, fun change member => ⟨?_, all change member⟩⟩
  rw [slots_notifies]
  exact changed change member

theorem crossed_step {op : Op κ α} (kept : (step equal state op).crossed = false) :
    state.crossed = false := by
  by_cases subscribes : ∃ key callback, op = .subscribe key callback
  · obtain ⟨key, callback, rfl⟩ := subscribes
    unfold step subscribe at kept
    dsimp only at kept
    split at kept
    · exact kept
    · exact kept
  by_cases unsubscribes : ∃ index, op = .unsubscribe index
  · obtain ⟨index, rfl⟩ := unsubscribes
    by_contra crossed
    have later := @crossed_unsubscribe κ α _ state index (Bool.not_eq_false _ ▸ crossed)
    exact absurd (later.symm.trans kept) (by decide)
  obtain ⟨slots, -, same⟩ := @step_eq κ α _ equal state op
    (fun key callback alike => subscribes ⟨key, callback, alike⟩)
    (fun index alike => unsubscribes ⟨index, alike⟩)
  rw [same] at kept
  have before : ({ state with slots := slots } : KeyedObservable κ α).crossed = false :=
    crossed_foldl (fun _ _ => crossed_notify) kept
  exact before

theorem after_sound {ops : List (Op κ α)} (kept : (after equal ops).crossed = false) :
    Sound (after equal ops) := by
  induction ops using List.reverseRecOn with
  | nil =>
    have none_ : ∀ key set, (fresh : KeyedObservable κ α).perKey key ≠ some set :=
      fun _ _ => Option.some_ne_none _ ∘ Eq.symm
    exact ⟨fun _ _ => ⟨fun absurd => (Bool.false_ne_true absurd).elim,
        fun found => found.elim fun _ both => (none_ _ _ both.1).elim⟩,
      fun _ member => (List.not_mem_nil member).elim, fun _ _ _ holds => (none_ _ _ holds).elim,
      fun _ _ holds => (none_ _ _ holds).elim, fun _ _ holds => (none_ _ _ holds).elim,
      fun _ member => (List.not_mem_nil member).elim, fun _ => List.nodup_nil⟩
  | append_singleton ops op ih =>
    have last : after equal (ops ++ [op]) = step equal (after equal ops) op := by
      unfold after
      rw [List.foldl_append]
      rfl
    rw [last] at kept ⊢
    exact (step_sound (ih (crossed_step kept)) kept).1

/-- While no function is called whose set is then empty and another one is held for its key, each
change is told to the subscribers of its key, and to no one else. -/
theorem observable_tells (equal : α → α → Bool) (ops : List (Op κ α)) (op : Op κ α)
    (kept : (step equal (after equal ops) op).crossed = false) :
    Tells (after equal ops) (step equal (after equal ops) op)
      (changes equal (after equal ops).slots op) :=
  (step_sound (after_sound (crossed_step kept)) kept).2

theorem observable_tells_others :
    Tells (after (· == ·) [.subscribe 7 0, .subscribe 7 1])
      (step (· == ·) (after (· == ·) [.subscribe 7 0, .subscribe 7 1])
        (.set 7 5 0 fun (_ : Nat) callback => if callback = 0 then [0, 0] else []))
      [(7, ⟨some 5, .fresh, 0⟩)] :=
  observable_tells (· == ·) [.subscribe 7 0, .subscribe 7 1] (.set 7 5 0 _) rfl

/-- Unless a call crossed, a key has a set exactly as long as it has a subscriber. -/
theorem sets_have_subscribers (equal : α → α → Bool) (ops : List (Op κ α))
    (kept : (after equal ops).crossed = false) (key : κ) :
    ((after equal ops).perKey key).isSome ↔
      ∃ callback, (after equal ops).subscribed key callback = true := by
  have sound := after_sound kept
  rw [Option.isSome_iff_exists]
  constructor
  · rintro ⟨set, held⟩
    obtain ⟨callback, member⟩ := List.exists_mem_of_ne_nil _ (sound.filled key set held)
    exact ⟨callback, (sound.subscribed key callback).mpr ⟨set, held, member⟩⟩
  · rintro ⟨callback, subscribed⟩
    obtain ⟨set, held, -⟩ := (sound.subscribed key callback).mp subscribed
    exact ⟨set, held⟩

theorem sets_have_subscribers_one :
    ((after (· == ·) [(.subscribe 7 0 : Op Nat Nat)]).perKey 7).isSome :=
  (sets_have_subscribers (· == ·) [.subscribe 7 0] rfl 7).mpr ⟨0, rfl⟩

/-- A second call of a function takes out the subscribers that came since. -/
theorem observable_drops :
    ¬∀ (ops : List (Op Nat Nat)) (op : Op Nat Nat), Tells (after (· == ·) ops)
      (step (· == ·) (after (· == ·) ops) op) (changes (· == ·) (after (· == ·) ops).slots op) := by
  intro all
  obtain ⟨told, calls, each⟩ := all [.subscribe 7 0, .unsubscribe 0, .subscribe 7 1, .unsubscribe 0]
    (.set 7 5 0 fun _ _ => [])
  obtain ⟨-, -, within⟩ := each (7, ⟨some 5, .fresh, 0⟩) List.mem_cons_self
  have one := within 1 rfl rfl
  have silent : [] = (told 7).map (fun callback =>
      (⟨callback, 7, ⟨some 5, .fresh, 0⟩, true⟩ : Call Nat Nat)) ++ [] := calls
  rw [List.append_nil] at silent
  rw [List.map_eq_nil_iff.mp silent.symm] at one
  exact List.not_mem_nil one

end Runs

end NostrWot.Feed.Subscribers
