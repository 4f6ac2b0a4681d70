import NostrWot.Data.OrderedMap
import Mathlib

namespace NostrWot.Hub.Bounded

open NostrWot.Data

/-! # Bounded maps

The cache primitive of the hub: a map that lets go of its oldest entries. The clock is read once an
operation, and what `onEvict` is called with is kept in order.
-/

inductive EvictionPolicy where
  | lru
  | fifo
  deriving DecidableEq

inductive EvictReason where
  | capacity
  | bytes
  | expired
  | trim
  | delete
  | clear
  deriving DecidableEq

/-- A limit of `none` is infinite. -/
structure BoundedMapOptions (κ α : Type) where
  maxEntries : Option Nat
  positive : ∀ max, maxEntries = some max → 1 ≤ max
  policy : EvictionPolicy
  maxBytes : Option Int
  sizeOf : α → κ → Int
  ttlMs : Option Int

structure Entry (α : Type) where
  value : α
  bytes : Int
  expiresAt : Option Int

structure BoundedMap (κ α : Type) where
  map : OrderedMap κ (Entry α)
  totalBytes : Int
  evicted : List ((κ × α) × EvictReason)

variable {κ α : Type}

namespace BoundedMap

def fresh : BoundedMap κ α := ⟨∅, 0, []⟩

variable [DecidableEq κ]

def remove (cache : BoundedMap κ α) (key : κ) (entry : Entry α) (reason : EvictReason)
    (notify : Bool) : BoundedMap κ α where
  map := cache.map.delete key
  totalBytes := cache.totalBytes - entry.bytes
  evicted := if notify then cache.evicted ++ [((key, entry.value), reason)] else cache.evicted

/-- While `beyond` holds, the first entry is removed; there are at most as many calls as entries. -/
def evictWhile (beyond : BoundedMap κ α → Bool) (reason : EvictReason) :
    Nat → BoundedMap κ α → BoundedMap κ α
  | 0, cache => cache
  | calls + 1, cache =>
    if beyond cache then
      match cache.map.entries with
      | [] => cache
      | (key, entry) :: _ => evictWhile beyond reason calls (cache.remove key entry reason true)
    else cache

def isExpired (now : Int) (entry : Entry α) : Bool := entry.expiresAt.any fun at_ => at_ ≤ now

def peek (cache : BoundedMap κ α) (key : κ) (now : Int) : BoundedMap κ α × Option α :=
  match cache.map.get key with
  | none => (cache, none)
  | some entry =>
    if isExpired now entry then (cache.remove key entry .expired true, none)
    else (cache, some entry.value)

def has (cache : BoundedMap κ α) (key : κ) (now : Int) : BoundedMap κ α × Bool :=
  ((cache.peek key now).1, (cache.peek key now).2.isSome)

def delete (cache : BoundedMap κ α) (key : κ) : BoundedMap κ α :=
  match cache.map.get key with
  | none => cache
  | some entry => cache.remove key entry .delete true

def removeAll (reason : EvictReason) (entries : List (κ × Entry α)) (cache : BoundedMap κ α) :
    BoundedMap κ α :=
  entries.foldl (fun cache entry => cache.remove entry.1 entry.2 reason true) cache

def clear (cache : BoundedMap κ α) : BoundedMap κ α :=
  cache.removeAll .clear cache.map.entries

def sweep (cache : BoundedMap κ α) (now : Int) : BoundedMap κ α :=
  cache.removeAll .expired (cache.map.entries.filter fun entry => isExpired now entry.2)

def trimTo (cache : BoundedMap κ α) (n : Int) : BoundedMap κ α :=
  evictWhile (fun cache => n.toNat < cache.map.size) .trim cache.map.size cache

section Options

variable (options : BoundedMapOptions κ α)

/-- Read; under `lru` the entry becomes most recent. -/
def get (cache : BoundedMap κ α) (key : κ) (now : Int) : BoundedMap κ α × Option α :=
  let (peeked, value) := cache.peek key now
  match value, peeked.map.get key with
  | some value, some entry =>
    if options.policy = .lru then
      ({ peeked with map := (peeked.map.delete key).set key entry }, some value)
    else (peeked, some value)
  | value, _ => (peeked, value)

def crowded (cache : BoundedMap κ α) : Bool := options.maxEntries.any fun max => max < cache.map.size

def heavy (cache : BoundedMap κ α) : Bool :=
  options.maxBytes.any (fun max => max < cache.totalBytes) && 1 < cache.map.size

def enforce (cache : BoundedMap κ α) : BoundedMap κ α :=
  let capped := evictWhile (crowded options) .capacity cache.map.size cache
  evictWhile (heavy options) .bytes capped.map.size capped

/-- The entry that `set` makes. -/
def entryOf (key : κ) (value : α) (ttlMs : Option Int) (now : Int) : Entry α where
  value := value
  bytes := options.sizeOf value key
  expiresAt := (ttlMs.or options.ttlMs).map fun ttl => now + ttl

def freed (cache : BoundedMap κ α) (key : κ) : BoundedMap κ α :=
  match cache.map.get key with
  | none => cache
  | some existing => cache.remove key existing .delete false

def set (cache : BoundedMap κ α) (key : κ) (value : α) (ttlMs : Option Int) (now : Int) :
    BoundedMap κ α :=
  let entry := entryOf options key value ttlMs now
  let freed := cache.freed key
  enforce options
    { freed with map := freed.map.set key entry, totalBytes := freed.totalBytes + entry.bytes }

end Options

/-! ## Letting go -/

def shed (cache : BoundedMap κ α) (reason : EvictReason) (count : Nat) : BoundedMap κ α where
  map := ⟨cache.map.entries.drop count, cache.map.nodup.sublist ((List.drop_sublist _ _).map _)⟩
  totalBytes := cache.totalBytes - ((cache.map.entries.take count).map fun entry => entry.2.bytes).sum
  evicted := cache.evicted ++
    (cache.map.entries.take count).map fun entry => ((entry.1, entry.2.value), reason)

variable {cache : BoundedMap κ α} {reason : EvictReason} {key : κ} {entry : Entry α}

omit [DecidableEq κ] in
theorem shed_zero : cache.shed reason 0 = cache := by
  simp [shed]

theorem delete_first {map : OrderedMap κ (Entry α)} {rest : List (κ × Entry α)}
    (first : map.entries = (key, entry) :: rest) : (map.delete key).entries = rest := by
  have nodup := map.nodup
  rw [first, List.map_cons, List.nodup_cons] at nodup
  show map.entries.filter _ = rest
  rw [first, List.filter_cons_of_neg (by simp)]
  refine List.filter_eq_self.mpr fun other member => decide_eq_true fun same => nodup.1 ?_
  exact List.mem_map.mpr ⟨other, member, same⟩

theorem shed_remove {rest : List (κ × Entry α)} (first : cache.map.entries = (key, entry) :: rest)
    (count : Nat) :
    (cache.remove key entry reason true).shed reason count = cache.shed reason (count + 1) := by
  have left := delete_first first
  have maps : ((cache.remove key entry reason true).shed reason count).map =
      (cache.shed reason (count + 1)).map := by
    ext1
    simp [shed, remove, left, first]
  unfold shed at maps ⊢
  rw [BoundedMap.mk.injEq]
  refine ⟨maps, ?_, ?_⟩
  · simp only [remove, left, first, List.take_succ_cons, List.map_cons, List.sum_cons]
    omega
  · simp [remove, left, first]

/-- Exactly as many entries leave as `beyond` holds for. -/
theorem evictWhile_eq {beyond : BoundedMap κ α → Bool} {calls : Nat}
    (enough : cache.map.size ≤ calls) :
    ∃ count ≤ cache.map.size, evictWhile beyond reason calls cache = cache.shed reason count ∧
      (∀ fewer < count, beyond (cache.shed reason fewer) = true) ∧
      (beyond (cache.shed reason count) = true → count = cache.map.size) := by
  induction calls generalizing cache with
  | zero =>
    refine ⟨0, Nat.zero_le _, shed_zero.symm, fun _ less => absurd less (Nat.not_lt_zero _),
      fun _ => ?_⟩
    exact (Nat.le_zero.mp enough).symm
  | succ calls ih =>
    unfold evictWhile
    by_cases more : beyond cache = true
    · rw [if_pos more]
      cases first : cache.map.entries with
      | nil =>
        have empty : cache.map.size = 0 := congrArg List.length first
        exact ⟨0, Nat.zero_le _, shed_zero.symm, fun _ less => absurd less (Nat.not_lt_zero _),
          fun _ => empty.symm⟩
      | cons head rest =>
        obtain ⟨key, entry⟩ := head
        have size : (cache.remove key entry reason true).map.size + 1 = cache.map.size := by
          simp [OrderedMap.size, remove, delete_first first, first]
        obtain ⟨count, within, left, needed, done⟩ :=
          @ih (cache.remove key entry reason true) (by omega)
        simp only [shed_remove first] at left needed done
        refine ⟨count + 1, by omega, left, fun fewer less => ?_, fun still => ?_⟩
        · cases fewer with
          | zero => exact (congrArg beyond shed_zero).trans more
          | succ fewer => exact needed fewer (by omega)
        · have := done still
          omega
    · rw [if_neg more]
      refine ⟨0, Nat.zero_le _, shed_zero.symm, fun _ less => absurd less (Nat.not_lt_zero _),
        fun still => absurd ((congrArg beyond shed_zero).symm.trans still) more⟩

/-! ## What is kept and what is told -/

def bytesOf (entries : List (κ × Entry α)) : Int := (entries.map fun entry => entry.2.bytes).sum

def valuesOf (entries : List (κ × Entry α)) : List (κ × α) :=
  entries.map fun entry => (entry.1, entry.2.value)

structure Counted (options : BoundedMapOptions κ α) (cache : BoundedMap κ α) : Prop where
  total : cache.totalBytes = bytesOf cache.map.entries
  sized : ∀ entry ∈ cache.map.entries, entry.2.bytes = options.sizeOf entry.2.value entry.1

/-- Entries only leave, each with one call of `onEvict`. -/
structure Leaves (cache next : BoundedMap κ α) : Prop where
  kept : next.map.entries.Sublist cache.map.entries
  total : cache.totalBytes - next.totalBytes =
    bytesOf cache.map.entries - bytesOf next.map.entries
  told : ∃ calls, next.evicted = cache.evicted ++ calls ∧
    (calls.map Prod.fst ++ valuesOf next.map.entries).Perm (valuesOf cache.map.entries)

variable {options : BoundedMapOptions κ α} {next : BoundedMap κ α} {now : Int}

omit [DecidableEq κ] in
theorem bytesOf_append (first rest : List (κ × Entry α)) :
    bytesOf (first ++ rest) = bytesOf first + bytesOf rest := by
  simp [bytesOf]

omit [DecidableEq κ] in
theorem valuesOf_append (first rest : List (κ × Entry α)) :
    valuesOf (first ++ rest) = valuesOf first ++ valuesOf rest := List.map_append

omit [DecidableEq κ] in
theorem Counted.leaves (counted : Counted options cache) (leaves : Leaves cache next) :
    Counted options next := by
  have total := counted.total
  have rest := leaves.total
  exact ⟨by omega, fun entry member => counted.sized entry (leaves.kept.subset member)⟩

omit [DecidableEq κ] in
theorem Leaves.refl (cache : BoundedMap κ α) : Leaves cache cache :=
  ⟨List.Sublist.refl _, by omega, [], (List.append_nil _).symm, List.Perm.refl _⟩

omit [DecidableEq κ] in
theorem Leaves.trans {middle : BoundedMap κ α} (first : Leaves cache middle)
    (rest : Leaves middle next) : Leaves cache next := by
  obtain ⟨calls, told, perm⟩ := first.told
  obtain ⟨more, told', perm'⟩ := rest.told
  have total := first.total
  have total' := rest.total
  refine ⟨rest.kept.trans first.kept, by omega, calls ++ more, ?_, ?_⟩
  · rw [told', told, List.append_assoc]
  · rw [List.map_append, List.append_assoc]
    exact (perm'.append_left _).trans perm

omit [DecidableEq κ] in
theorem leaves_shed (cache : BoundedMap κ α) (reason : EvictReason) (count : Nat) :
    Leaves cache (cache.shed reason count) := by
  have split := List.take_append_drop count cache.map.entries
  have bytes := bytesOf_append (cache.map.entries.take count) (cache.map.entries.drop count)
  rw [split] at bytes
  refine ⟨List.drop_sublist _ _, ?_, _, rfl, ?_⟩
  · dsimp only [shed]
    rw [bytes]
    unfold bytesOf
    omega
  · rw [List.map_map]
    exact List.Perm.of_eq ((valuesOf_append _ _).symm.trans (congrArg valuesOf split))

theorem leaves_remove (held : cache.map.get key = some entry) (reason : EvictReason) :
    Leaves cache (cache.remove key entry reason true) := by
  obtain ⟨before, after, split, left⟩ := OrderedMap.entries_delete held
  refine ⟨List.filter_sublist, ?_, [((key, entry.value), reason)], rfl, ?_⟩
  · simp only [remove, left, split, bytesOf_append]
    simp only [bytesOf, List.map_cons, List.sum_cons]
    omega
  · simp only [remove, left, split, valuesOf, List.map_append, List.map_cons, List.map_nil,
      List.singleton_append]
    exact List.perm_middle.symm

theorem leaves_removeAll {entries : List (κ × Entry α)} (nodup : (entries.map Prod.fst).Nodup)
    (held : ∀ entry ∈ entries, cache.map.get entry.1 = some entry.2) (reason : EvictReason) :
    Leaves cache (cache.removeAll reason entries) := by
  induction entries generalizing cache with
  | nil => exact .refl cache
  | cons first rest ih =>
    obtain ⟨apart, nodup⟩ := List.nodup_cons.mp nodup
    refine (leaves_remove (held first List.mem_cons_self) reason).trans (ih nodup ?_)
    intro entry member
    have differs : entry.1 ≠ first.1 := fun same => apart (same ▸ List.mem_map_of_mem member)
    show (cache.map.delete first.1).get entry.1 = some entry.2
    rw [OrderedMap.get_delete, if_neg differs]
    exact held entry (List.mem_cons_of_mem _ member)

theorem leaves_held (cache : BoundedMap κ α) (keep : κ × Entry α → Bool) (reason : EvictReason) :
    Leaves cache (cache.removeAll reason (cache.map.entries.filter keep)) := by
  refine leaves_removeAll (cache.map.nodup.sublist (List.filter_sublist.map _)) ?_ reason
  exact fun entry member => OrderedMap.get_eq_some.mpr (List.mem_filter.mp member).1

theorem leaves_peek (cache : BoundedMap κ α) (key : κ) (now : Int) :
    Leaves cache (cache.peek key now).1 := by
  unfold peek
  split
  · exact .refl cache
  · next held =>
    split
    · exact leaves_remove held .expired
    · exact .refl cache

theorem leaves_delete (cache : BoundedMap κ α) (key : κ) : Leaves cache (cache.delete key) := by
  unfold delete
  split
  · exact .refl cache
  · next held => exact leaves_remove held .delete

theorem leaves_trimTo (cache : BoundedMap κ α) (n : Int) : Leaves cache (cache.trimTo n) := by
  obtain ⟨count, -, left, -⟩ :=
    @evictWhile_eq κ α _ cache .trim (fun cache => n.toNat < cache.map.size) _ (Nat.le_refl _)
  unfold trimTo
  rw [left]
  exact leaves_shed cache .trim count

/-! ## Reading -/

theorem peek_some {value : α} (found : (cache.peek key now).2 = some value) :
    (cache.peek key now).1 = cache ∧ ∃ entry, cache.map.get key = some entry ∧
      entry.value = value ∧ isExpired now entry = false := by
  unfold peek at found ⊢
  split at found
  · contradiction
  · next entry held =>
    rw [held]
    split at found
    · contradiction
    · next fresh =>
      rw [if_neg fresh]
      exact ⟨rfl, entry, rfl, Option.some.inj found, Bool.eq_false_iff.mpr fresh⟩

/-- A read under `lru` that finds something moves it to the end. -/
theorem get_cases (cache : BoundedMap κ α) (key : κ) (now : Int) :
    (cache.get options key now).2 = (cache.peek key now).2 ∧
      ((cache.get options key now).1 = (cache.peek key now).1 ∧
          (options.policy = .lru → (cache.peek key now).2 = none) ∨
        options.policy = .lru ∧ (cache.peek key now).2.isSome ∧
          ∃ entry, cache.map.get key = some entry ∧ (cache.get options key now).1 =
            { cache with map := (cache.map.delete key).set key entry }) := by
  cases found : (cache.peek key now).2 with
  | none =>
    unfold get
    dsimp only
    rw [found]
    exact ⟨rfl, .inl ⟨rfl, fun _ => rfl⟩⟩
  | some value =>
    obtain ⟨same, entry, held, -, -⟩ := peek_some found
    unfold get
    dsimp only
    rw [found, same, held]
    dsimp only
    split
    · next lru => exact ⟨rfl, .inr ⟨lru, rfl, entry, rfl, rfl⟩⟩
    · next fifo => exact ⟨rfl, .inl ⟨rfl, fun lru => absurd lru fifo⟩⟩

theorem entries_moved (held : cache.map.get key = some entry) :
    ∃ before after, cache.map.entries = before ++ (key, entry) :: after ∧
      (cache.map.delete key).entries = before ++ after ∧
      ((cache.map.delete key).set key entry).entries = before ++ after ++ [(key, entry)] := by
  obtain ⟨before, after, split, left⟩ := OrderedMap.entries_delete held
  have absent : (cache.map.delete key).get key = none := by
    rw [OrderedMap.get_delete, if_pos rfl]
  exact ⟨before, after, split, left, by rw [OrderedMap.entries_set_of_none absent, left]⟩

theorem Counted.moved (counted : Counted options cache) (held : cache.map.get key = some entry) :
    Counted options { cache with map := (cache.map.delete key).set key entry } := by
  obtain ⟨first, rest, split, -, moved⟩ := entries_moved held
  have total := counted.total
  rw [split, bytesOf_append] at total
  refine ⟨?_, fun other member => counted.sized other ?_⟩
  · rw [moved, bytesOf_append, bytesOf_append, total]
    simp only [bytesOf, List.map_cons, List.map_nil, List.sum_cons, List.sum_nil]
    omega
  · rw [moved] at member
    rw [split]
    exact ((List.perm_append_singleton _ _).trans List.perm_middle.symm).subset member

/-! ## Setting -/

def Within (options : BoundedMapOptions κ α) (cache : BoundedMap κ α) : Prop :=
  (∀ max, options.maxEntries = some max → cache.map.size ≤ max) ∧
    ∀ max, options.maxBytes = some max → cache.totalBytes ≤ max ∨ cache.map.size = 1

/-- Of `all`, as many of the first leave as are too many, and then as many as are too large. -/
def Evicts (options : BoundedMapOptions κ α) (all : List (κ × Entry α))
    (cache next : BoundedMap κ α) : Prop :=
  ∃ capped heavy, next.map.entries = all.drop (capped + heavy) ∧
    next.evicted = cache.evicted ++ ((valuesOf (all.take capped)).map fun gone => (gone, .capacity)) ++
      (valuesOf ((all.drop capped).take heavy)).map (fun gone => (gone, .bytes)) ∧
    (∀ fewer < capped, ∃ max, options.maxEntries = some max ∧ max < all.length - fewer) ∧
    ∀ fewer < heavy, ∃ max, options.maxBytes = some max ∧ 1 < all.length - (capped + fewer) ∧
      max < bytesOf (all.drop (capped + fewer))

omit [DecidableEq κ] in
theorem size_shed (cache : BoundedMap κ α) (reason : EvictReason) (count : Nat) :
    (cache.shed reason count).map.size = cache.map.size - count := List.length_drop

omit [DecidableEq κ] in
theorem total_shed (total : cache.totalBytes = bytesOf cache.map.entries) (count : Nat) :
    (cache.shed reason count).totalBytes = bytesOf (cache.map.entries.drop count) := by
  have leaves := (leaves_shed cache reason count).total
  have same : bytesOf (cache.shed reason count).map.entries =
      bytesOf (cache.map.entries.drop count) := rfl
  omega

omit [DecidableEq κ] in
theorem crowded_iff : crowded options cache = true ↔
    ∃ max, options.maxEntries = some max ∧ max < cache.map.size := by
  unfold crowded
  cases options.maxEntries <;> simp

omit [DecidableEq κ] in
theorem heavy_iff : heavy options cache = true ↔
    ∃ max, options.maxBytes = some max ∧ max < cache.totalBytes ∧ 1 < cache.map.size := by
  unfold heavy
  cases options.maxBytes <;> simp

theorem enforce_spec (filled : 1 ≤ cache.map.size)
    (total : cache.totalBytes = bytesOf cache.map.entries) :
    Leaves cache (enforce options cache) ∧ Within options (enforce options cache) ∧
      Evicts options cache.map.entries cache (enforce options cache) := by
  obtain ⟨capped, few, capped_, crowd, capEnds⟩ :=
    @evictWhile_eq κ α _ cache .capacity (crowded options) _ (Nat.le_refl _)
  obtain ⟨heavy, less, heavy_, weighs, ends⟩ := @evictWhile_eq κ α _ (cache.shed .capacity capped)
    .bytes (heavy options) _ (Nat.le_refl _)
  have whole : enforce options cache = (cache.shed .capacity capped).shed .bytes heavy := by
    unfold enforce
    dsimp only
    rw [capped_, heavy_]
  have left : (cache.shed .capacity capped).map.entries = cache.map.entries.drop capped := rfl
  have capTotal := @total_shed κ α cache .capacity total capped
  have size := size_shed cache .capacity capped
  have sizes := size_shed (cache.shed .capacity capped) .bytes heavy
  have some_ : 1 ≤ cache.map.size - capped := by
    by_contra empty
    obtain ⟨max, limit, beyond⟩ := crowded_iff.mp (crowd (capped - 1) (by omega))
    rw [size_shed] at beyond
    have := options.positive max limit
    omega
  have keeps : heavy < cache.map.size - capped := by
    by_contra all
    obtain ⟨-, -, -, many⟩ := heavy_iff.mp (weighs (heavy - 1) (by omega))
    rw [size_shed, size] at many
    omega
  rw [whole]
  refine ⟨(leaves_shed _ _ _).trans (leaves_shed _ _ _), ⟨fun max limit => ?_, fun max limit => ?_⟩,
    capped, heavy, ?_, ?_, fun fewer small => ?_, fun fewer small => ?_⟩
  · by_contra beyond
    have := capEnds (crowded_iff.mpr ⟨max, limit, by omega⟩)
    omega
  · by_contra beyond
    have := ends (heavy_iff.mpr ⟨max, limit, by omega, by omega⟩)
    omega
  · exact List.drop_drop
  · dsimp only [shed]
    unfold valuesOf
    rw [List.map_map, List.map_map]
    rfl
  · obtain ⟨max, limit, beyond⟩ := crowded_iff.mp (crowd fewer small)
    rw [size_shed] at beyond
    exact ⟨max, limit, beyond⟩
  · obtain ⟨max, limit, beyond, many⟩ := heavy_iff.mp (weighs fewer small)
    rw [total_shed capTotal, left, List.drop_drop] at beyond
    rw [size_shed, size] at many
    refine ⟨max, limit, ?_, beyond⟩
    show 1 < cache.map.size - (capped + fewer)
    omega

def withLast (cache : BoundedMap κ α) (key : κ) (entry : Entry α) : List (κ × Entry α) :=
  cache.map.entries.filter (fun other => other.1 ≠ key) ++ [(key, entry)]

theorem freed_spec (cache : BoundedMap κ α) (key : κ) :
    (cache.freed key).map.entries = cache.map.entries.filter (fun other => other.1 ≠ key) ∧
      (cache.freed key).map.get key = none ∧ (cache.freed key).evicted = cache.evicted ∧
      (cache.totalBytes = bytesOf cache.map.entries →
        (cache.freed key).totalBytes = bytesOf (cache.freed key).map.entries) := by
  unfold freed
  split
  · next absent =>
    have same := congrArg OrderedMap.entries (OrderedMap.delete_of_none absent)
    exact ⟨same.symm, absent, rfl, fun total => total⟩
  · next entry held =>
    have gone : (cache.map.delete key).get key = none := by
      rw [OrderedMap.get_delete, if_pos rfl]
    refine ⟨rfl, gone, rfl, fun total => ?_⟩
    have leaves := (leaves_remove held .delete).total
    have same : (cache.remove key entry .delete false).totalBytes =
      (cache.remove key entry .delete true).totalBytes := rfl
    have entries : (cache.remove key entry .delete false).map =
      (cache.remove key entry .delete true).map := rfl
    rw [same, entries]
    omega

theorem set_spec (counted : Counted options cache) (key : κ) (value : α) (ttlMs : Option Int)
    (now : Int) :
    Counted options (cache.set options key value ttlMs now) ∧
      Within options (cache.set options key value ttlMs now) ∧
      (cache.set options key value ttlMs now).map.entries.Sublist
        (cache.withLast key (entryOf options key value ttlMs now)) ∧
      Evicts options (cache.withLast key (entryOf options key value ttlMs now)) cache
        (cache.set options key value ttlMs now) := by
  obtain ⟨others, absent, silent, total⟩ := cache.freed_spec key
  have total := total counted.total
  unfold set
  dsimp only
  generalize entry_ : entryOf options key value ttlMs now = entry
  generalize made : ({ cache.freed key with
    map := (cache.freed key).map.set key entry
    totalBytes := (cache.freed key).totalBytes + entry.bytes } : BoundedMap κ α) = filled
  have entries : filled.map.entries = cache.withLast key entry := by
    rw [← made]
    show ((cache.freed key).map.set key entry).entries = _
    rw [OrderedMap.entries_set_of_none absent, others]
    rfl
  have sum : filled.totalBytes = bytesOf filled.map.entries := by
    rw [entries, withLast, bytesOf_append, ← others, ← total, ← made]
    simp [bytesOf]
  have sized : Counted options filled := by
    refine ⟨sum, fun other member => ?_⟩
    rw [entries] at member
    rcases List.mem_append.mp member with old | new
    · exact counted.sized other (List.mem_filter.mp old).1
    · rw [List.mem_singleton.mp new, ← entry_]
      rfl
  have silent : filled.evicted = cache.evicted := by
    rw [← made]
    exact silent
  have size : 1 ≤ filled.map.size := by
    show 1 ≤ filled.map.entries.length
    rw [entries]
    simp [withLast]
  obtain ⟨leaves, within, evicts⟩ := @enforce_spec κ α _ filled options size sum
  unfold Evicts at evicts ⊢
  rw [silent] at evicts
  rw [← entries]
  exact ⟨sized.leaves leaves, within, leaves.kept, evicts⟩

omit [DecidableEq κ] in
/-- Each entry that is no longer held was told of, unless another value took its key. -/
theorem Evicts.told {all : List (κ × Entry α)} (evicts : Evicts options all cache next) :
    ∃ calls, next.evicted = cache.evicted ++ calls ∧
      calls.map Prod.fst ++ valuesOf next.map.entries = valuesOf all := by
  obtain ⟨capped, heavy, entries, told, -, -⟩ := evicts
  refine ⟨_, told.trans (List.append_assoc _ _ _), ?_⟩
  rw [List.map_append, List.map_map, List.map_map, entries, ← List.drop_drop, List.append_assoc]
  simp only [Function.comp_def, List.map_id']
  rw [← valuesOf_append, List.take_append_drop, ← valuesOf_append, List.take_append_drop]

end BoundedMap

/-! ## Runs -/

inductive Op (κ α : Type) where
  | set (key : κ) (value : α) (ttlMs : Option Int) (now : Int)
  | get (key : κ) (now : Int)
  | peek (key : κ) (now : Int)
  | has (key : κ) (now : Int)
  | delete (key : κ)
  | clear
  | sweep (now : Int)
  | trimTo (n : Int)

/-- A map, how many operations came before, and which of them last moved a key to the end. -/
structure Run (κ α : Type) where
  cache : BoundedMap κ α
  count : Nat
  moved : κ → Nat

section Runs

variable [DecidableEq κ] (options : BoundedMapOptions κ α)

def BoundedMap.apply (cache : BoundedMap κ α) : Op κ α → BoundedMap κ α
  | .set key value ttlMs now => cache.set options key value ttlMs now
  | .get key now => (cache.get options key now).1
  | .peek key now => (cache.peek key now).1
  | .has key now => (cache.has key now).1
  | .delete key => cache.delete key
  | .clear => cache.clear
  | .sweep now => cache.sweep now
  | .trimTo n => cache.trimTo n

/-- The key that is set, or under `lru` read. -/
def moves (cache : BoundedMap κ α) : Op κ α → Option κ
  | .set key _ _ _ => some key
  | .get key now => if options.policy = .lru ∧ (cache.peek key now).2.isSome then some key else none
  | _ => none

def Run.step (run : Run κ α) (op : Op κ α) : Run κ α where
  cache := run.cache.apply options op
  count := run.count + 1
  moved := match moves options run.cache op with
    | some key => Function.update run.moved key run.count
    | none => run.moved

def Run.fresh : Run κ α := ⟨.fresh, 0, fun _ => 0⟩

def Run.after (ops : List (Op κ α)) : Run κ α := ops.foldl (Run.step options) .fresh

structure Run.Ordered (run : Run κ α) : Prop where
  order : run.cache.map.keys.Pairwise fun older newer => run.moved older < run.moved newer
  past : ∀ key ∈ run.cache.map.keys, run.moved key < run.count

variable {options} {run : Run κ α} {next : BoundedMap κ α} {key : κ}

omit [DecidableEq κ] in
theorem Run.Ordered.fewer (ordered : run.Ordered)
    (fewer : next.map.entries.Sublist run.cache.map.entries) :
    Run.Ordered ⟨next, run.count + 1, run.moved⟩ := by
  have keys : next.map.keys.Sublist run.cache.map.keys := fewer.map _
  exact ⟨ordered.order.sublist keys,
    fun key member => Nat.lt_succ_of_lt (ordered.past key (keys.subset member))⟩

theorem Run.Ordered.last {entry : Entry α} (ordered : run.Ordered)
    (fewer : next.map.entries.Sublist (run.cache.withLast key entry)) :
    Run.Ordered ⟨next, run.count + 1, Function.update run.moved key run.count⟩ := by
  have others : ∀ other ∈ (run.cache.map.entries.filter fun other => other.1 ≠ key).map Prod.fst,
      other ≠ key ∧ other ∈ run.cache.map.keys := by
    intro other member
    obtain ⟨one, held, rfl⟩ := List.mem_map.mp member
    exact ⟨of_decide_eq_true (List.mem_filter.mp held).2,
      List.mem_map_of_mem (List.mem_filter.mp held).1⟩
  have keys : next.map.keys.Sublist
      ((run.cache.map.entries.filter fun other => other.1 ≠ key).map Prod.fst ++ [key]) := by
    have keys := fewer.map Prod.fst
    rw [BoundedMap.withLast, List.map_append] at keys
    exact keys
  constructor
  · refine List.Pairwise.sublist keys (List.pairwise_append.mpr ⟨?_, List.pairwise_singleton _ _, ?_⟩)
    · refine (ordered.order.sublist (List.filter_sublist.map _)).imp_of_mem ?_
      intro older newer first second less
      dsimp only
      rwa [Function.update_of_ne (others older first).1, Function.update_of_ne (others newer second).1]
    · intro older first newer second
      dsimp only
      rw [List.mem_singleton.mp second, Function.update_self,
        Function.update_of_ne (others older first).1]
      exact ordered.past older (others older first).2
  · intro other member
    dsimp only
    by_cases same : other = key
    · rw [same, Function.update_self]
      exact Nat.lt_succ_self _
    · rw [Function.update_of_ne same]
      have held := (List.mem_append.mp (keys.subset member)).resolve_right fun new =>
        same (List.mem_singleton.mp new)
      exact Nat.lt_succ_of_lt (ordered.past other (others other held).2)

/-- What an operation other than `set` does to the entries. -/
inductive Kept (cache next : BoundedMap κ α) : Option κ → Prop
  | fewer : BoundedMap.Leaves cache next → Kept cache next none
  | moved {key : κ} {entry : Entry α} : cache.map.get key = some entry →
      next = { cache with map := (cache.map.delete key).set key entry } → Kept cache next (some key)

theorem kept_apply (cache : BoundedMap κ α) (op : Op κ α)
    (other : ∀ key value ttlMs now, op ≠ .set key value ttlMs now) :
    Kept cache (cache.apply options op) (moves options cache op) := by
  cases op with
  | set key value ttlMs now => exact absurd rfl (other key value ttlMs now)
  | get key now =>
    obtain ⟨-, ⟨same, unread⟩ | ⟨lru, found, entry, held, moved⟩⟩ :=
      @BoundedMap.get_cases κ α _ options cache key now
    · have still : moves options cache (.get key now) = none := by
        refine if_neg fun both => ?_
        rw [unread both.1] at both
        exact Bool.false_ne_true both.2
      rw [still, BoundedMap.apply, same]
      exact .fewer (BoundedMap.leaves_peek cache key now)
    · have moves_ : moves options cache (.get key now) = some key := if_pos ⟨lru, found⟩
      rw [moves_]
      exact .moved held moved
  | peek key now => exact .fewer (BoundedMap.leaves_peek cache key now)
  | has key now => exact .fewer (BoundedMap.leaves_peek cache key now)
  | delete key => exact .fewer (BoundedMap.leaves_delete cache key)
  | clear =>
    have all := BoundedMap.leaves_held cache (fun _ => true) .clear
    rw [List.filter_true] at all
    exact .fewer all
  | sweep now => exact .fewer (BoundedMap.leaves_held cache _ .expired)
  | trimTo n => exact .fewer (BoundedMap.leaves_trimTo cache n)

def placed (cache : BoundedMap κ α) : Op κ α → List (κ × α)
  | .set key value _ _ =>
    BoundedMap.valuesOf (cache.map.entries.filter fun other => other.1 ≠ key) ++ [(key, value)]
  | _ => BoundedMap.valuesOf cache.map.entries

/-- Every entry that leaves is told of once, and none that stays. -/
def Told (before : List (κ × α)) (cache next : BoundedMap κ α) : Prop :=
  ∃ calls, next.evicted = cache.evicted ++ calls ∧
    (calls.map Prod.fst ++ BoundedMap.valuesOf next.map.entries).Perm before

theorem step_spec (counted : BoundedMap.Counted options run.cache) (ordered : run.Ordered)
    (op : Op κ α) :
    BoundedMap.Counted options (run.step options op).cache ∧ (run.step options op).Ordered ∧
      Told (placed run.cache op) run.cache (run.step options op).cache := by
  by_cases sets : ∃ key value ttlMs now, op = .set key value ttlMs now
  · obtain ⟨key, value, ttlMs, now, rfl⟩ := sets
    obtain ⟨sized, -, fewer, evicts⟩ := BoundedMap.set_spec counted key value ttlMs now
    obtain ⟨calls, told, all⟩ := evicts.told
    refine ⟨sized, ordered.last fewer, calls, told, List.Perm.of_eq (all.trans ?_)⟩
    exact BoundedMap.valuesOf_append _ _
  · have other : ∀ key value ttlMs now, op ≠ .set key value ttlMs now :=
      fun key value ttlMs now same => sets ⟨key, value, ttlMs, now, same⟩
    have before : placed run.cache op = BoundedMap.valuesOf run.cache.map.entries := by
      cases op with
      | set key value ttlMs now => exact absurd rfl (other key value ttlMs now)
      | _ => rfl
    have kept := @kept_apply κ α _ options run.cache op other
    rw [before]
    unfold Run.step
    generalize moved_ : moves options run.cache op = moved at kept
    generalize run.cache.apply options op = next at kept
    cases kept with
    | fewer leaves => exact ⟨counted.leaves leaves, ordered.fewer leaves.kept, leaves.told⟩
    | @moved key entry held same =>
      obtain ⟨first, rest, split, left, entries⟩ := BoundedMap.entries_moved held
      have perm : (first ++ rest ++ [(key, entry)]).Perm run.cache.map.entries := by
        rw [split]
        exact (List.perm_append_singleton _ _).trans List.perm_middle.symm
      have whole : next.map.entries = first ++ rest ++ [(key, entry)] := by
        rw [same, ← entries]
      refine ⟨same ▸ counted.moved held, @Run.Ordered.last κ α _ run next key entry ordered ?_,
        [], ?_, ?_⟩
      · rw [whole, ← left]
        exact List.Sublist.refl _
      · rw [same]
        exact (List.append_nil _).symm
      · rw [whole]
        exact perm.map _

theorem after_spec (ops : List (Op κ α)) :
    BoundedMap.Counted options (Run.after options ops).cache ∧ (Run.after options ops).Ordered := by
  induction ops using List.reverseRecOn with
  | nil =>
    exact ⟨⟨rfl, fun _ absurd => (List.not_mem_nil absurd).elim⟩, List.Pairwise.nil,
      fun _ absurd => (List.not_mem_nil absurd).elim⟩
  | append_singleton ops op ih =>
    unfold Run.after at ih ⊢
    rw [List.foldl_append]
    obtain ⟨counted, ordered, -⟩ := step_spec ih.1 ih.2 op
    exact ⟨counted, ordered⟩

end Runs

end NostrWot.Hub.Bounded
