import NostrWot.Hub.BoundedMap

namespace NostrWot.Hub.Profiles

open NostrWot.Data NostrWot.Hub.Bounded

/-! # The profile cache

Profiles by the key of their author, and the authors that have none. The clock is read once an
operation.
-/

structure ProfileCacheOptions where
  maxEntries : Nat
  trimTo : Int
  hiddenTrimAfterMs : Int
  ttlMs : Int
  negativeCooldownMs : Int
  negativeMax : Nat
  some_ : 1 ≤ maxEntries ∧ 1 ≤ negativeMax

structure Holder (α : Type) where
  value : α
  fetchedAt : Int

variable {α : Type} (options : ProfileCacheOptions)

namespace ProfileCacheOptions

def entries : BoundedMapOptions String (Holder α) where
  maxEntries := some options.maxEntries
  positive _ limit := Option.some.inj limit ▸ options.some_.1
  policy := .lru
  maxBytes := none
  sizeOf _ _ := 0
  ttlMs := none

def negative : BoundedMapOptions String Int where
  maxEntries := some options.negativeMax
  positive _ limit := Option.some.inj limit ▸ options.some_.2
  policy := .fifo
  maxBytes := none
  sizeOf _ _ := 0
  ttlMs := some options.negativeCooldownMs

end ProfileCacheOptions

/-- `hiddenTimer` is the time at which the timer is due. -/
structure ProfileCache (α : Type) where
  entries : BoundedMap String (Holder α)
  negative : BoundedMap String Int
  hiddenTimer : Option Int

namespace ProfileCache

def fresh : ProfileCache α := ⟨.fresh, .fresh, none⟩

/-- What `onEvict` is called with. -/
def evicted (cache : ProfileCache α) : List ((String × α) × EvictReason) :=
  (cache.entries.evicted.filter fun call => call.2 = .capacity || call.2 = .trim).map fun call =>
    ((call.1.1, call.1.2.value), call.2)

def get (cache : ProfileCache α) (pubkey : String) (now : Int) : ProfileCache α × Option α :=
  let (entries, holder) := cache.entries.get options.entries pubkey now
  ({ cache with entries := entries }, holder.map Holder.value)

def peek (cache : ProfileCache α) (pubkey : String) (now : Int) : ProfileCache α × Option α :=
  let (entries, holder) := cache.entries.peek pubkey now
  ({ cache with entries := entries }, holder.map Holder.value)

def set (cache : ProfileCache α) (pubkey : String) (value : α) (fetchedAt : Option Int) (now : Int) :
    ProfileCache α :=
  { cache with
    negative := cache.negative.delete pubkey
    entries := cache.entries.set options.entries pubkey ⟨value, fetchedAt.getD now⟩ none now }

def markMissing (cache : ProfileCache α) (pubkey : String) (now : Int) : ProfileCache α :=
  let (entries, held) := cache.entries.has pubkey now
  if held then { cache with entries := entries }
  else { cache with
    entries := entries, negative := cache.negative.set options.negative pubkey now none now }

def isMissing (cache : ProfileCache α) (pubkey : String) (now : Int) : ProfileCache α × Bool :=
  let (negative, missing) := cache.negative.has pubkey now
  ({ cache with negative := negative }, missing)

def shouldFetch (cache : ProfileCache α) (pubkey : String) (now : Int) : ProfileCache α × Bool :=
  let (entries, holder) := cache.entries.peek pubkey now
  let cache := { cache with entries := entries }
  if holder.any fun holder => now - holder.fetchedAt < options.ttlMs then (cache, false)
  else
    let (cache, missing) := cache.isMissing pubkey now
    (cache, !missing)

def delete (cache : ProfileCache α) (pubkey : String) : ProfileCache α :=
  { cache with entries := cache.entries.delete pubkey, negative := cache.negative.delete pubkey }

def clear (cache : ProfileCache α) : ProfileCache α :=
  { cache with entries := cache.entries.clear, negative := cache.negative.clear }

def onVisibility (cache : ProfileCache α) (hidden : Bool) (now : Int) : ProfileCache α :=
  if !hidden then { cache with hiddenTimer := none }
  else if cache.hiddenTimer.isSome then cache
  else { cache with hiddenTimer := some (now + options.hiddenTrimAfterMs) }

def timer (cache : ProfileCache α) (now : Int) : ProfileCache α :=
  if cache.hiddenTimer.any fun due => due ≤ now then
    { cache with hiddenTimer := none, entries := cache.entries.trimTo options.trimTo }
  else cache

end ProfileCache

inductive Op (α : Type) where
  | set (pubkey : String) (value : α) (fetchedAt : Option Int)
  | markMissing (pubkey : String)
  | get (pubkey : String)
  | peek (pubkey : String)
  | isMissing (pubkey : String)
  | shouldFetch (pubkey : String)
  | delete (pubkey : String)
  | clear
  | visibility (hidden : Bool)
  | timer
  | advance (ms : Nat)

structure State (α : Type) where
  cache : ProfileCache α
  now : Int
  lastSet : String → Option α

def ProfileCache.apply (cache : ProfileCache α) (now : Int) : Op α → ProfileCache α
  | .set pubkey value fetchedAt => cache.set options pubkey value fetchedAt now
  | .markMissing pubkey => cache.markMissing options pubkey now
  | .get pubkey => (cache.get options pubkey now).1
  | .peek pubkey => (cache.peek pubkey now).1
  | .isMissing pubkey => (cache.isMissing pubkey now).1
  | .shouldFetch pubkey => (cache.shouldFetch options pubkey now).1
  | .delete pubkey => cache.delete pubkey
  | .clear => cache.clear
  | .visibility hidden => cache.onVisibility options hidden now
  | .timer => cache.timer options now
  | .advance _ => cache

def State.step (state : State α) (op : Op α) : State α where
  cache := state.cache.apply options state.now op
  now := match op with
    | .advance ms => state.now + ms
    | _ => state.now
  lastSet := match op with
    | .set pubkey value _ => Function.update state.lastSet pubkey (some value)
    | _ => state.lastSet

def State.run (state : State α) (ops : List (Op α)) : State α := ops.foldl (State.step options) state

def after (start : Int) (ops : List (Op α)) : State α :=
  State.run options ⟨.fresh, start, fun _ => none⟩ ops

/-- The operations that may take what is marked or set for a key away. -/
def Op.touches (pubkey : String) : Op α → Bool
  | .set other _ _ | .delete other => other = pubkey
  | .clear => true
  | _ => false

def Op.isMiss : Op α → Bool
  | .markMissing _ => true
  | _ => false

/-- The first entries leave, and `onEvict` is called with each. -/
def Drops (reason : EvictReason) (all : List (String × Entry (Holder α)))
    (cache next : ProfileCache α) : Prop :=
  ∃ count, next.entries.map.entries = all.drop count ∧ next.evicted = cache.evicted ++
    (all.take count).map fun gone => ((gone.1, gone.2.value.value), reason)

/-- What an operation does to the entries, and when `onEvict` is called. -/
def Changes (cache : ProfileCache α) (now : Int) (next : ProfileCache α) : Op α → Prop
  | .set pubkey value fetchedAt => Drops .capacity (cache.entries.withLast pubkey
      (BoundedMap.entryOf options.entries pubkey ⟨value, fetchedAt.getD now⟩ none now)) cache next
  | .timer => Drops .trim cache.entries.map.entries cache next
  | .get _ => next.entries.map.entries.Perm cache.entries.map.entries ∧ next.evicted = cache.evicted
  | .delete pubkey => next.entries.map.entries = cache.entries.map.entries.filter
      (fun entry => entry.1 ≠ pubkey) ∧ next.evicted = cache.evicted
  | .clear => next.entries.map.entries = [] ∧ next.evicted = cache.evicted
  | _ => next.entries = cache.entries

/-! ## What is evicted -/

section Maps

variable {κ β : Type} [DecidableEq κ] {limits : BoundedMapOptions κ β} {cache next : BoundedMap κ β}
  {key : κ} {entry : Entry β} {now : Int}

omit [DecidableEq κ] in
/-- With no limit on the bytes only the first entries leave, as many as are too many. -/
theorem evicts_capacity {all : List (κ × Entry β)} (unlimited : limits.maxBytes = none)
    (evicts : BoundedMap.Evicts limits all cache next) :
    ∃ count, next.map.entries = all.drop count ∧
      next.evicted = cache.evicted ++
        (BoundedMap.valuesOf (all.take count)).map (fun gone => (gone, .capacity)) ∧
      ∀ fewer < count, ∃ max, limits.maxEntries = some max ∧ max < all.length - fewer := by
  obtain ⟨count, heavy, entries, told, many, large⟩ := evicts
  have none_ : heavy = 0 := by
    by_contra some_
    obtain ⟨max, limit, -⟩ := large 0 (Nat.pos_of_ne_zero some_)
    exact absurd (unlimited.symm.trans limit) (by simp)
  subst none_
  refine ⟨count, entries, told.trans ?_, many⟩
  simp [BoundedMap.valuesOf]

omit [DecidableEq κ] in
theorem evicts_keeps {before after : List (κ × Entry β)} {max : Nat}
    (unlimited : limits.maxBytes = none) (limit : limits.maxEntries = some max)
    (room : after.length + 1 ≤ max)
    (evicts : BoundedMap.Evicts limits (before ++ (key, entry) :: after) cache next) :
    ∃ count, next.map.entries = before.drop count ++ (key, entry) :: after := by
  obtain ⟨count, entries, -, many⟩ := evicts_capacity unlimited evicts
  have few : count ≤ before.length := by
    by_contra beyond
    obtain ⟨max', limit', more⟩ := many before.length (by omega)
    rw [List.length_append, List.length_cons] at more
    have same := Option.some.inj (limit.symm.trans limit')
    omega
  exact ⟨count, entries.trans (List.drop_append_of_le_length few)⟩

theorem evicted_removeAll (reason : EvictReason) (entries : List (κ × Entry β)) :
    (cache.removeAll reason entries).evicted =
      cache.evicted ++ (BoundedMap.valuesOf entries).map fun gone => (gone, reason) := by
  induction entries generalizing cache with
  | nil => exact (List.append_nil _).symm
  | cons entry rest ih =>
    refine (@ih (cache.remove entry.1 entry.2 reason true)).trans ?_
    exact List.append_assoc _ _ _

theorem clear_spec (cache : BoundedMap κ β) : cache.clear.map.entries = [] ∧
    cache.clear.evicted = cache.evicted ++
      (BoundedMap.valuesOf cache.map.entries).map fun gone => (gone, .clear) := by
  have told := @evicted_removeAll κ β _ cache .clear cache.map.entries
  have all := BoundedMap.leaves_held cache (fun _ => true) .clear
  rw [List.filter_true] at all
  obtain ⟨calls, told', perm⟩ := all.told
  refine ⟨?_, told⟩
  have same := List.append_cancel_left (told'.symm.trans told)
  rw [same, List.map_map, Function.comp_def, List.map_id'] at perm
  have length := perm.length_eq
  rw [List.length_append] at length
  refine List.map_eq_nil_iff.mp (List.eq_nil_of_length_eq_zero (?_ :
    (BoundedMap.valuesOf (cache.removeAll .clear cache.map.entries).map.entries).length = 0))
  omega

theorem delete_spec (cache : BoundedMap κ β) (key : κ) :
    (cache.delete key).map.entries = cache.map.entries.filter (fun entry => entry.1 ≠ key) ∧
      ∃ calls, (cache.delete key).evicted = cache.evicted ++ calls ∧
        ∀ call ∈ calls, call.2 = .delete := by
  unfold BoundedMap.delete
  split
  · next absent =>
    have same := congrArg OrderedMap.entries (OrderedMap.delete_of_none absent)
    exact ⟨same.symm, [], (List.append_nil _).symm, fun _ member => (List.not_mem_nil member).elim⟩
  · refine ⟨rfl, _, rfl, fun call member => ?_⟩
    rw [List.mem_singleton.mp member]

def Lasting (cache : BoundedMap κ β) : Prop :=
  ∀ entry ∈ cache.map.entries, entry.2.expiresAt = none

theorem Lasting.peek (lasting : Lasting cache) (key : κ) (now : Int) :
    cache.peek key now = (cache, (cache.map.get key).map Entry.value) := by
  unfold BoundedMap.peek
  split
  · next absent => rw [absent]; rfl
  · next entry held =>
    have never : entry.expiresAt = none := lasting (key, entry) (OrderedMap.get_eq_some.mp held)
    rw [if_neg (by simp [BoundedMap.isExpired, never]), held]
    rfl

end Maps

variable {options} {cache next : ProfileCache α} {now : Int}

structure Sound (options : ProfileCacheOptions) (cache : ProfileCache α) : Prop where
  entries : BoundedMap.Counted options.entries cache.entries
  lasting : Lasting cache.entries
  negative : BoundedMap.Counted options.negative cache.negative

theorem evicted_of_calls {calls : List ((String × Holder α) × EvictReason)}
    (told : next.entries.evicted = cache.entries.evicted ++ calls)
    (silent : ∀ call ∈ calls, call.2 = .delete ∨ call.2 = .clear) : next.evicted = cache.evicted := by
  have none_ : calls.filter (fun call => call.2 = .capacity || call.2 = .trim) = [] := by
    refine List.filter_eq_nil_iff.mpr fun call member => ?_
    rcases silent call member with reason | reason <;> simp [reason]
  unfold ProfileCache.evicted
  rw [told, List.filter_append, none_, List.append_nil]

theorem drops_of_calls {reason : EvictReason} {all : List (String × Entry (Holder α))} {count : Nat}
    (entries : next.entries.map.entries = all.drop count)
    (told : next.entries.evicted = cache.entries.evicted ++
      (BoundedMap.valuesOf (all.take count)).map fun gone => (gone, reason))
    (ours : reason = .capacity ∨ reason = .trim) : Drops reason all cache next := by
  have all_ : ((BoundedMap.valuesOf (all.take count)).map fun gone => (gone, reason)).filter
      (fun call => call.2 = .capacity || call.2 = .trim) =
        (BoundedMap.valuesOf (all.take count)).map fun gone => (gone, reason) := by
    refine List.filter_eq_self.mpr fun call member => ?_
    obtain ⟨gone, -, rfl⟩ := List.mem_map.mp member
    simpa using ours
  refine ⟨count, entries, ?_⟩
  unfold ProfileCache.evicted
  rw [told, List.filter_append, List.map_append, all_, BoundedMap.valuesOf, List.map_map, List.map_map]
  rfl

/-- `cache` with other entries. -/
theorem Sound.with (sound : Sound options cache) (entries : next.entries = cache.entries)
    (negative : BoundedMap.Counted options.negative next.negative) : Sound options next := by
  refine ⟨?_, ?_, negative⟩
  · rw [entries]
    exact sound.entries
  · rw [entries]
    exact sound.lasting

theorem Sound.leaves (sound : Sound options cache)
    (leaves : BoundedMap.Leaves cache.entries next.entries)
    (negative : BoundedMap.Counted options.negative next.negative) : Sound options next :=
  ⟨sound.entries.leaves leaves, fun entry member => sound.lasting entry (leaves.kept.subset member),
    negative⟩

theorem Sound.apply (sound : Sound options cache) (now : Int) (op : Op α) :
    Sound options (cache.apply options now op) ∧
      Changes options cache now (cache.apply options now op) op := by
  have cleared := BoundedMap.leaves_held cache.negative (fun _ => true) .clear
  rw [List.filter_true] at cleared
  cases op with
  | set pubkey value fetchedAt =>
    obtain ⟨counted, -, fewer, evicts⟩ :=
      BoundedMap.set_spec sound.entries pubkey ⟨value, fetchedAt.getD now⟩ none now
    obtain ⟨count, entries, told, -⟩ := evicts_capacity rfl evicts
    refine ⟨⟨counted, fun entry member => ?_, sound.negative.leaves (BoundedMap.leaves_delete _ _)⟩,
      drops_of_calls entries told (.inl rfl)⟩
    rcases List.mem_append.mp (fewer.subset member) with old | new
    · exact sound.lasting entry (List.mem_filter.mp old).1
    · rw [List.mem_singleton.mp new]
      rfl
  | markMissing pubkey =>
    have same : (cache.markMissing options pubkey now).entries = cache.entries := by
      unfold ProfileCache.markMissing BoundedMap.has
      rw [sound.lasting.peek]
      dsimp only
      split <;> rfl
    refine ⟨sound.with same ?_, same⟩
    unfold ProfileCache.apply ProfileCache.markMissing
    dsimp only
    split
    · exact sound.negative
    · exact (BoundedMap.set_spec sound.negative pubkey now none now).1
  | get pubkey =>
    obtain ⟨-, ⟨same, -⟩ | ⟨-, -, entry, held, moved⟩⟩ :=
      @BoundedMap.get_cases _ _ _ options.entries cache.entries pubkey now
    · have entries : (cache.get options pubkey now).1.entries = cache.entries := by
        refine Eq.trans same ?_
        rw [sound.lasting.peek]
      have evicted : (cache.get options pubkey now).1.evicted = cache.evicted := by
        unfold ProfileCache.evicted
        rw [entries]
      exact ⟨sound.with entries sound.negative,
        List.Perm.of_eq (congrArg (fun entries => entries.map.entries) entries), evicted⟩
    · have entries : (cache.get options pubkey now).1.entries = _ := moved
      obtain ⟨first, rest, split, -, placed⟩ := BoundedMap.entries_moved held
      have perm : (cache.get options pubkey now).1.entries.map.entries.Perm
          cache.entries.map.entries := by
        rw [entries, split]
        dsimp only
        rw [placed]
        exact (List.perm_append_singleton _ _).trans List.perm_middle.symm
      have evicted : (cache.get options pubkey now).1.evicted = cache.evicted := by
        unfold ProfileCache.evicted
        rw [entries]
      refine ⟨⟨?_, fun other member => sound.lasting other (perm.subset member), sound.negative⟩,
        perm, evicted⟩
      exact entries ▸ sound.entries.moved held
  | peek pubkey =>
    have same : (cache.peek pubkey now).1.entries = cache.entries := by
      unfold ProfileCache.peek
      rw [sound.lasting.peek]
    exact ⟨sound.with same sound.negative, same⟩
  | isMissing pubkey =>
    exact ⟨sound.with rfl (sound.negative.leaves (BoundedMap.leaves_peek _ _ _)), rfl⟩
  | shouldFetch pubkey =>
    have same : (cache.shouldFetch options pubkey now).1.entries = cache.entries := by
      unfold ProfileCache.shouldFetch
      rw [sound.lasting.peek]
      dsimp only
      split <;> rfl
    refine ⟨sound.with same ?_, same⟩
    unfold ProfileCache.apply ProfileCache.shouldFetch
    dsimp only
    split
    · exact sound.negative
    · exact sound.negative.leaves (BoundedMap.leaves_peek _ _ _)
  | delete pubkey =>
    obtain ⟨entries, calls, told, silent⟩ := delete_spec cache.entries pubkey
    exact ⟨sound.leaves (BoundedMap.leaves_delete _ _)
      (sound.negative.leaves (BoundedMap.leaves_delete _ _)), entries,
      evicted_of_calls told fun call member => .inl (silent call member)⟩
  | clear =>
    obtain ⟨entries, told⟩ := clear_spec cache.entries
    have leaves := BoundedMap.leaves_held cache.entries (fun _ => true) .clear
    rw [List.filter_true] at leaves
    refine ⟨sound.leaves leaves (sound.negative.leaves cleared), entries,
      evicted_of_calls told fun call member => ?_⟩
    obtain ⟨gone, -, rfl⟩ := List.mem_map.mp member
    exact .inr rfl
  | visibility hidden =>
    have same : (cache.onVisibility options hidden now).entries = cache.entries ∧
        (cache.onVisibility options hidden now).negative = cache.negative := by
      unfold ProfileCache.onVisibility
      split
      · exact ⟨rfl, rfl⟩
      · split <;> exact ⟨rfl, rfl⟩
    exact ⟨sound.with same.1 (same.2 ▸ sound.negative), same.1⟩
  | timer =>
    unfold ProfileCache.apply ProfileCache.timer
    dsimp only
    split
    · obtain ⟨count, -, left, -⟩ := @BoundedMap.evictWhile_eq _ _ _ cache.entries .trim
        (fun cache => options.trimTo.toNat < cache.map.size) _ (Nat.le_refl _)
      have trimmed : cache.entries.trimTo options.trimTo = cache.entries.shed .trim count := left
      refine ⟨sound.leaves (BoundedMap.leaves_trimTo _ _) sound.negative,
        @drops_of_calls α _ _ .trim _ count ?_ ?_ (.inr rfl)⟩
      · exact congrArg (fun entries => entries.map.entries) trimmed
      · refine (congrArg BoundedMap.evicted trimmed).trans ?_
        rw [BoundedMap.valuesOf, List.map_map]
        rfl
    · exact ⟨sound, 0, rfl, (List.append_nil _).symm⟩
  | advance ms => exact ⟨sound, rfl⟩

/-! ## What stays of an entry -/

/-- An entry that no operation touches stays until `onEvict` is called for it. -/
theorem Changes.kept {op : Op α} (changes : Changes options cache now next op) :
    ∃ calls, next.evicted = cache.evicted ++ calls ∧ ∀ entry ∈ cache.entries.map.entries,
      op.touches entry.1 = false → entry ∈ next.entries.map.entries ∨ ∃ call ∈ calls, call.1.1 = entry.1 := by
  have still : next.entries = cache.entries → ∃ calls, next.evicted = cache.evicted ++ calls ∧
      ∀ entry ∈ cache.entries.map.entries, op.touches entry.1 = false →
        entry ∈ next.entries.map.entries ∨ ∃ call ∈ calls, call.1.1 = entry.1 := by
    intro same
    refine ⟨[], ?_, fun entry member _ => .inl (same ▸ member)⟩
    unfold ProfileCache.evicted
    rw [same, List.append_nil]
  have dropped : ∀ {reason : EvictReason} {all : List (String × Entry (Holder α))},
      Drops reason all cache next → ∃ calls, next.evicted = cache.evicted ++ calls ∧ ∀ entry ∈ all,
        entry ∈ next.entries.map.entries ∨ ∃ call ∈ calls, call.1.1 = entry.1 := by
    rintro reason all ⟨count, entries, told⟩
    refine ⟨_, told, fun entry member => ?_⟩
    rw [← List.take_append_drop count all] at member
    rcases List.mem_append.mp member with gone | left
    · exact .inr ⟨_, List.mem_map_of_mem gone, rfl⟩
    · exact .inl (entries ▸ left)
  cases op with
  | set pubkey value fetchedAt =>
    obtain ⟨calls, told, all⟩ := dropped changes
    refine ⟨calls, told, fun entry member apart => all entry (List.mem_append_left _ ?_)⟩
    have differs : entry.1 ≠ pubkey := fun same => of_decide_eq_false apart same.symm
    exact List.mem_filter.mpr ⟨member, decide_eq_true differs⟩
  | timer =>
    obtain ⟨calls, told, all⟩ := dropped changes
    exact ⟨calls, told, fun entry member _ => all entry member⟩
  | get pubkey =>
    exact ⟨[], changes.2.trans (List.append_nil _).symm,
      fun entry member _ => .inl (changes.1.symm.subset member)⟩
  | delete pubkey =>
    refine ⟨[], changes.2.trans (List.append_nil _).symm, fun entry member apart => .inl ?_⟩
    have differs : entry.1 ≠ pubkey := fun same => of_decide_eq_false apart same.symm
    rw [changes.1]
    exact List.mem_filter.mpr ⟨member, decide_eq_true differs⟩
  | clear => exact ⟨[], changes.2.trans (List.append_nil _).symm, fun _ _ touched => by cases touched⟩
  | _ => exact still changes

def Known (state : State α) : Prop :=
  ∀ entry ∈ state.cache.entries.map.entries, state.lastSet entry.1 = some entry.2.value.value

theorem Known.step {state : State α} (sound : Sound options state.cache) (known : Known state)
    (op : Op α) : Known (state.step options op) := by
  have changes := (sound.apply state.now op).2
  intro entry member
  have old : (∀ pubkey value fetchedAt, op ≠ .set pubkey value fetchedAt) →
      entry ∈ state.cache.entries.map.entries →
      (state.step options op).lastSet entry.1 = some entry.2.value.value := by
    intro other among
    refine Eq.trans ?_ (known entry among)
    cases op with
    | set pubkey value fetchedAt => exact absurd rfl (other pubkey value fetchedAt)
    | _ => rfl
  cases op with
  | set pubkey value fetchedAt =>
    obtain ⟨count, entries, -⟩ := changes
    have among := List.mem_of_mem_drop (entries ▸ member)
    unfold State.step
    dsimp only
    rcases List.mem_append.mp among with before | new
    · obtain ⟨before, differs⟩ := List.mem_filter.mp before
      rw [Function.update_of_ne (of_decide_eq_true differs)]
      exact known entry before
    · rw [List.mem_singleton.mp new, Function.update_self]
      rfl
  | timer =>
    obtain ⟨count, entries, -⟩ := changes
    exact old (by rintro _ _ _ ⟨⟩) (List.mem_of_mem_drop (entries ▸ member))
  | get pubkey => exact old (by rintro _ _ _ ⟨⟩) (changes.1.subset member)
  | delete pubkey =>
    exact old (by rintro _ _ _ ⟨⟩) (List.mem_filter.mp (changes.1 ▸ member)).1
  | clear =>
    have empty : (state.step options .clear).cache.entries.map.entries = [] := changes.1
    rw [empty] at member
    exact (List.not_mem_nil member).elim
  | _ =>
    have same := congrArg (fun entries => entries.map.entries) changes
    exact old (by rintro _ _ _ ⟨⟩) (same ▸ member)

/-! ## What stays of a miss -/

/-- A key is marked until a time, with at most `later` marks after it. -/
def Marked (negative : BoundedMap String Int) (pubkey : String) (deadline : Int) (later : Nat) : Prop :=
  ∃ before entry after expires, negative.map.entries = before ++ (pubkey, entry) :: after ∧
    entry.expiresAt = some expires ∧ deadline ≤ expires ∧ after.length ≤ later

section Marks

variable {negative : BoundedMap String Int} {pubkey other : String} {deadline : Int} {later : Nat}

theorem Marked.without (marked : Marked negative pubkey deadline later) (apart : other ≠ pubkey) :
    ∃ before entry after expires, negative.map.entries.filter (fun entry => entry.1 ≠ other) =
      before ++ (pubkey, entry) :: after ∧ entry.expiresAt = some expires ∧ deadline ≤ expires ∧
      after.length ≤ later := by
  obtain ⟨before, entry, after, expires, entries, expiry, late, few⟩ := marked
  refine ⟨before.filter (fun entry => entry.1 ≠ other), entry,
    after.filter (fun entry => entry.1 ≠ other), expires, ?_, expiry, late,
    Nat.le_trans (List.length_filter_le _ after) few⟩
  have stays : decide ((pubkey, entry).1 ≠ other) = true := decide_eq_true apart.symm
  rw [entries, List.filter_append, List.filter_cons, if_pos stays]

theorem Marked.delete (marked : Marked negative pubkey deadline later) (apart : other ≠ pubkey) :
    Marked (negative.delete other) pubkey deadline later := by
  obtain ⟨before, entry, after, expires, entries, rest⟩ := marked.without apart
  exact ⟨before, entry, after, expires, (delete_spec negative other).1.trans entries, rest⟩

/-- A mark is found before its time, and no look at another takes it away. -/
theorem Marked.peek (marked : Marked negative pubkey deadline later) (early : now < deadline)
    (other : String) : Marked (negative.peek other now).1 pubkey deadline later ∧
      (other = pubkey → (negative.peek other now).2.isSome = true) := by
  obtain ⟨before, entry, after, expires, entries, expiry, late, few⟩ := marked
  have held : negative.map.get pubkey = some entry :=
    OrderedMap.get_eq_some.mpr (entries ▸ List.mem_append_right _ List.mem_cons_self)
  have lasts : BoundedMap.isExpired now entry = false := by
    simp only [BoundedMap.isExpired, expiry, Option.any_some, decide_eq_false_iff_not]
    omega
  by_cases same : other = pubkey
  · rw [same]
    unfold BoundedMap.peek
    rw [held]
    simp only [lasts, Bool.false_eq_true, if_false]
    exact ⟨⟨before, entry, after, expires, entries, expiry, late, few⟩, fun _ => rfl⟩
  · refine ⟨?_, fun alike => absurd alike same⟩
    unfold BoundedMap.peek
    split
    · exact ⟨before, entry, after, expires, entries, expiry, late, few⟩
    · split
      · exact Marked.without ⟨before, entry, after, expires, entries, expiry, late, few⟩ same
      · exact ⟨before, entry, after, expires, entries, expiry, late, few⟩

theorem marked_set (counted : BoundedMap.Counted options.negative negative) (now : Int) :
    Marked (negative.set options.negative pubkey now none now) pubkey
      (now + options.negativeCooldownMs) 0 := by
  obtain ⟨-, -, -, evicts⟩ := BoundedMap.set_spec counted pubkey now none now
  obtain ⟨count, entries⟩ := evicts_keeps rfl rfl options.some_.2 evicts
  exact ⟨_, _, [], _, entries, rfl, Int.le_refl _, Nat.le_refl _⟩

theorem Marked.set (counted : BoundedMap.Counted options.negative negative)
    (marked : Marked negative pubkey deadline later) (apart : other ≠ pubkey)
    (room : later + 1 < options.negativeMax) (now : Int) :
    Marked (negative.set options.negative other now none now) pubkey deadline (later + 1) := by
  obtain ⟨-, -, -, evicts⟩ := BoundedMap.set_spec counted other now none now
  obtain ⟨before, entry, after, expires, entries, expiry, late, few⟩ := marked.without apart
  have whole : negative.withLast other (BoundedMap.entryOf options.negative other now none now) =
      before ++ (pubkey, entry) ::
        (after ++ [(other, BoundedMap.entryOf options.negative other now none now)]) := by
    unfold BoundedMap.withLast
    rw [entries, List.append_assoc, List.cons_append]
  rw [whole] at evicts
  have length : (after ++ [(other, BoundedMap.entryOf options.negative other now none now)]).length =
      after.length + 1 := List.length_append
  obtain ⟨count, left⟩ := evicts_keeps rfl rfl (by omega) evicts
  exact ⟨_, entry, _, expires, left, expiry, late, by omega⟩

end Marks

/-! ## Runs -/

section Runs

variable {state : State α} {pubkey : String} {deadline : Int} {later : Nat}

theorem Marked.step (sound : Sound options state.cache)
    (marked : Marked state.cache.negative pubkey deadline later) (early : state.now < deadline)
    (begun : deadline ≤ state.now + options.negativeCooldownMs) {op : Op α}
    (untouched : op.touches pubkey = false)
    (room : op.isMiss = true → later + 1 < options.negativeMax) :
    Marked (state.step options op).cache.negative pubkey deadline
      (later + if op.isMiss then 1 else 0) := by
  have apart : ∀ other, decide (other = pubkey) = false → other ≠ pubkey :=
    fun _ differs => of_decide_eq_false differs
  cases op with
  | set other value fetchedAt => exact marked.delete (apart other untouched)
  | delete other => exact marked.delete (apart other untouched)
  | isMissing other => exact (marked.peek early other).1
  | clear => cases untouched
  | shouldFetch other =>
    unfold State.step ProfileCache.apply ProfileCache.shouldFetch
    dsimp only
    split
    · exact marked
    · exact (marked.peek early other).1
  | markMissing other =>
    unfold State.step ProfileCache.apply ProfileCache.markMissing
    dsimp only
    split
    · obtain ⟨before, entry, after, expires, entries, expiry, late, few⟩ := marked
      exact ⟨before, entry, after, expires, entries, expiry, late, Nat.le_succ_of_le few⟩
    · by_cases same : other = pubkey
      · rw [same]
        obtain ⟨before, entry, after, expires, entries, expiry, late, few⟩ :=
          @marked_set options state.cache.negative pubkey sound.negative state.now
        exact ⟨before, entry, after, expires, entries, expiry, Int.le_trans begun late,
          Nat.le_trans few (Nat.zero_le _)⟩
      · exact marked.set sound.negative same (room rfl) state.now
  | visibility hidden =>
    unfold State.step ProfileCache.apply ProfileCache.onVisibility
    dsimp only
    split
    · exact marked
    · split <;> exact marked
  | timer =>
    unfold State.step ProfileCache.apply ProfileCache.timer
    dsimp only
    split <;> exact marked
  | _ => exact marked

theorem now_step (state : State α) (op : Op α) : state.now ≤ (state.step options op).now := by
  cases op with
  | advance ms => exact Int.le_add_of_nonneg_right (Int.natCast_nonneg ms)
  | _ => exact Int.le_refl _

theorem now_run (state : State α) (ops : List (Op α)) : state.now ≤ (state.run options ops).now := by
  induction ops generalizing state with
  | nil => exact Int.le_refl _
  | cons op rest ih => exact Int.le_trans (now_step state op) (ih _)

theorem Sound.run (sound : Sound options state.cache) (ops : List (Op α)) :
    Sound options (state.run options ops).cache := by
  induction ops generalizing state with
  | nil => exact sound
  | cons op rest ih => exact ih (sound.apply state.now op).1

theorem Marked.run {ops : List (Op α)} (sound : Sound options state.cache)
    (marked : Marked state.cache.negative pubkey deadline later)
    (begun : deadline ≤ state.now + options.negativeCooldownMs)
    (untouched : ∀ op ∈ ops, op.touches pubkey = false)
    (room : later + ops.countP Op.isMiss < options.negativeMax)
    (early : (state.run options ops).now < deadline) :
    ∃ later, Marked (state.run options ops).cache.negative pubkey deadline later := by
  induction ops generalizing state later with
  | nil => exact ⟨later, marked⟩
  | cons op rest ih =>
    obtain ⟨first, untouched⟩ := List.forall_mem_cons.mp untouched
    have started : state.now < deadline :=
      Int.lt_of_le_of_lt (now_run state (op :: rest)) early
    rw [List.countP_cons] at room
    have next := marked.step sound started begun first fun miss => by
      rw [if_pos miss] at room
      omega
    refine ih (sound.apply state.now op).1 next ?_ untouched (by omega) early
    exact Int.le_trans begun (Int.add_le_add_right (now_step state op) _)

/-- An entry that is held stays through operations that do not touch it, until it is evicted. -/
theorem held_run {entry : String × Entry (Holder α)} {ops : List (Op α)}
    (sound : Sound options state.cache) (untouched : ∀ op ∈ ops, op.touches entry.1 = false) :
    ∃ calls, (state.run options ops).cache.evicted = state.cache.evicted ++ calls ∧
      (entry ∈ state.cache.entries.map.entries →
        entry ∈ (state.run options ops).cache.entries.map.entries ∨
          ∃ call ∈ calls, call.1.1 = entry.1) := by
  induction ops generalizing state with
  | nil => exact ⟨[], (List.append_nil _).symm, .inl⟩
  | cons op rest ih =>
    obtain ⟨first, untouched⟩ := List.forall_mem_cons.mp untouched
    obtain ⟨next, changes⟩ := sound.apply state.now op
    obtain ⟨calls, told, kept⟩ := changes.kept
    obtain ⟨more, told', kept'⟩ := @ih (state.step options op) next untouched
    refine ⟨calls ++ more, told'.trans ?_, fun member => ?_⟩
    · rw [← List.append_assoc, ← told]
      rfl
    · rcases kept entry member first with still | ⟨call, among, same⟩
      · exact (kept' still).imp_right fun ⟨call, among, same⟩ =>
          ⟨call, List.mem_append_right _ among, same⟩
      · exact .inr ⟨call, List.mem_append_left _ among, same⟩

theorem sound_after (start : Int) (ops : List (Op α)) :
    Sound options (after options start ops).cache ∧ Known (after options start ops) := by
  have steps : ∀ (state : State α), Sound options state.cache → Known state →
      Sound options (state.run options ops).cache ∧ Known (state.run options ops) := by
    induction ops with
    | nil => exact fun _ sound known => ⟨sound, known⟩
    | cons op rest ih =>
      exact fun state sound known => ih _ (sound.apply state.now op).1 (known.step sound op)
  refine steps _ ⟨⟨rfl, ?_⟩, ?_, ⟨rfl, ?_⟩⟩ ?_ <;> exact fun _ member => (List.not_mem_nil member).elim

/-- After any operations: a miss of a key that is not held keeps lookups off the wire for the
cooldown, and an entry for its lifetime; what is read was last set; and `onEvict` is called for what
the limit or the trim drops. -/
theorem profile_cache (options : ProfileCacheOptions) (start : Int) (ops : List (Op α)) :
    let state := after options start ops
    (∀ pubkey rest, state.cache.entries.map.get pubkey = none →
      (∀ op ∈ rest, op.touches pubkey = false) → rest.countP Op.isMiss < options.negativeMax →
      let last := (state.step options (.markMissing pubkey)).run options rest
      last.now < state.now + options.negativeCooldownMs →
        (last.cache.shouldFetch options pubkey last.now).2 = false) ∧
    (∀ pubkey value fetchedAt rest, (∀ op ∈ rest, op.touches pubkey = false) →
      let first := state.step options (.set pubkey value fetchedAt)
      let last := first.run options rest
      ∃ calls, last.cache.evicted = first.cache.evicted ++ calls ∧
        ((∀ call ∈ calls, call.1.1 ≠ pubkey) →
          last.now - fetchedAt.getD state.now < options.ttlMs →
            (last.cache.shouldFetch options pubkey last.now).2 = false)) ∧
    (∀ pubkey value, (state.cache.get options pubkey state.now).2 = some value ∨
      (state.cache.peek pubkey state.now).2 = some value → state.lastSet pubkey = some value) ∧
    ∀ op, Changes options state.cache state.now (state.step options op).cache op := by
  intro state
  have both : Sound options state.cache ∧ Known state := sound_after start ops
  obtain ⟨sound, known⟩ := both
  clear_value state
  have peeked : ∀ {state : State α} {pubkey : String} {entry : Entry (Holder α)},
      Sound options state.cache → (pubkey, entry) ∈ state.cache.entries.map.entries →
      (state.cache.entries.peek pubkey state.now).2 = some entry.value := by
    intro state pubkey entry sound member
    rw [sound.lasting.peek, OrderedMap.get_eq_some.mpr member]
    rfl
  refine ⟨?_, ?_, ?_, fun op => (sound.apply state.now op).2⟩
  · intro pubkey rest absent untouched few last early
    have noted : (state.step options (.markMissing pubkey)).cache.negative =
        state.cache.negative.set options.negative pubkey state.now none state.now := by
      show (state.cache.markMissing options pubkey state.now).negative = _
      unfold ProfileCache.markMissing BoundedMap.has
      rw [sound.lasting.peek, absent]
      rfl
    have marked := @marked_set options state.cache.negative pubkey sound.negative state.now
    rw [← noted] at marked
    have sound' : Sound options (state.step options (.markMissing pubkey)).cache :=
      (sound.apply state.now (.markMissing pubkey)).1
    obtain ⟨later, marked⟩ := marked.run sound' (Int.le_refl _) untouched (by omega) early
    have found := (marked.peek early pubkey).2 rfl
    unfold ProfileCache.shouldFetch
    dsimp only
    split
    · rfl
    · exact congrArg not found
  · intro pubkey value fetchedAt rest untouched first last
    have placed : (pubkey, BoundedMap.entryOf options.entries pubkey
        ⟨value, fetchedAt.getD state.now⟩ none state.now) ∈ first.cache.entries.map.entries := by
      obtain ⟨-, -, -, evicts⟩ :=
        BoundedMap.set_spec sound.entries pubkey ⟨value, fetchedAt.getD state.now⟩ none state.now
      obtain ⟨count, entries⟩ := evicts_keeps rfl rfl options.some_.1 evicts
      exact entries ▸ List.mem_append_right _ List.mem_cons_self
    have sound' := (sound.apply state.now (.set pubkey value fetchedAt)).1
    obtain ⟨calls, told, kept⟩ := @held_run α options first (pubkey, _) rest sound' untouched
    refine ⟨calls, told, fun unevicted young => ?_⟩
    have still := (kept placed).resolve_right fun ⟨call, among, same⟩ => unevicted call among same
    unfold ProfileCache.shouldFetch
    dsimp only
    rw [peeked (sound'.run rest) still, if_pos]
    exact decide_eq_true young
  · intro pubkey value found
    have same : (state.cache.get options pubkey state.now).2 =
        (state.cache.peek pubkey state.now).2 :=
      congrArg (Option.map Holder.value)
        (@BoundedMap.get_cases _ _ _ options.entries state.cache.entries pubkey state.now).1
    have found : (state.cache.peek pubkey state.now).2 = some value := found.elim same.symm.trans id
    unfold ProfileCache.peek at found
    rw [sound.lasting.peek] at found
    cases held : state.cache.entries.map.get pubkey with
    | none =>
      rw [held] at found
      cases found
    | some entry =>
      have last := known (pubkey, entry) (OrderedMap.get_eq_some.mp held)
      rw [held] at found
      exact last.trans found

/-- A miss of a key whose entry is held and too old is not noted. -/
theorem stale_miss_is_lost : ¬∀ (options : ProfileCacheOptions) (ops : List (Op Nat)) (pubkey : String)
    (rest : List (Op Nat)), (∀ op ∈ rest, op.touches pubkey = false) →
      rest.countP Op.isMiss < options.negativeMax →
      let state := after options 0 ops
      let last := (state.step options (.markMissing pubkey)).run options rest
      last.now < state.now + options.negativeCooldownMs →
        (last.cache.shouldFetch options pubkey last.now).2 = false := by
  intro all
  have wrong := all ⟨5000, 2000, 300000, 1000, 1800000, 2000, by decide⟩
    [.set "a" 1 none, .advance 1000] "a" [] (fun _ member => (List.not_mem_nil member).elim)
    (by decide) (by decide)
  exact absurd wrong (by decide)

end Runs

end NostrWot.Hub.Profiles
