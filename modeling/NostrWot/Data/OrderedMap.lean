import Mathlib.Algebra.GroupWithZero.Nat
import Mathlib.Data.List.Basic
import Mathlib.Data.List.Nodup

namespace NostrWot.Data

/-! # Ordered maps

A JavaScript `Map`: keys in the order they were first set.
-/

universe u v

structure OrderedMap (κ : Type u) (α : Type v) where
  entries : List (κ × α)
  nodup : (entries.map Prod.fst).Nodup

namespace OrderedMap

variable {κ : Type u} {α : Type v}

@[ext]
theorem ext {left right : OrderedMap κ α} (same : left.entries = right.entries) : left = right := by
  cases left
  cases right
  cases same
  rfl

instance [DecidableEq κ] [DecidableEq α] : DecidableEq (OrderedMap κ α) := fun left right =>
  decidable_of_iff (left.entries = right.entries) ⟨ext, congrArg _⟩

instance : EmptyCollection (OrderedMap κ α) := ⟨⟨[], List.nodup_nil⟩⟩

instance : Inhabited (OrderedMap κ α) := ⟨∅⟩

@[simp] theorem entries_empty : (∅ : OrderedMap κ α).entries = [] := rfl

def size (map : OrderedMap κ α) : Nat := map.entries.length

def keys (map : OrderedMap κ α) : List κ := map.entries.map Prod.fst

def values (map : OrderedMap κ α) : List α := map.entries.map Prod.snd

def filter (map : OrderedMap κ α) (keep : κ × α → Bool) : OrderedMap κ α where
  entries := map.entries.filter keep
  nodup := map.nodup.sublist (List.filter_sublist.map _)

/-- The map without the key that was set first. -/
def dropOldest (map : OrderedMap κ α) : OrderedMap κ α where
  entries := map.entries.tail
  nodup := map.nodup.sublist ((List.tail_sublist _).map _)

def mapValues (map : OrderedMap κ α) (change : κ → α → α) : OrderedMap κ α where
  entries := map.entries.map fun entry => (entry.1, change entry.1 entry.2)
  nodup := by
    have same : (map.entries.map fun entry => (entry.1, change entry.1 entry.2)).map Prod.fst =
        map.entries.map Prod.fst := by
      simp
    rw [same]
    exact map.nodup

variable [DecidableEq κ]

def get (map : OrderedMap κ α) (key : κ) : Option α :=
  (map.entries.find? fun entry => entry.1 = key).map Prod.snd

def has (map : OrderedMap κ α) (key : κ) : Bool := (map.get key).isSome

/-- `delete`: what stays keeps its order. -/
def delete (map : OrderedMap κ α) (key : κ) : OrderedMap κ α :=
  map.filter fun entry => entry.1 ≠ key

def set (map : OrderedMap κ α) (key : κ) (value : α) : OrderedMap κ α :=
  if present : key ∈ map.entries.map Prod.fst then
    map.mapValues fun other old => if other = key then value else old
  else
    { entries := map.entries ++ [(key, value)]
      nodup := by
        rw [List.map_append, List.nodup_append]
        refine ⟨map.nodup, List.nodup_singleton _, ?_⟩
        intro first before second last same
        have last : second = key := by simpa using last
        exact present (last ▸ same ▸ before) }

def setAll (map : OrderedMap κ α) (entries : List (κ × α)) : OrderedMap κ α :=
  entries.foldl (fun map entry => map.set entry.1 entry.2) map

variable {map : OrderedMap κ α} {key : κ} {value : α}

theorem get_eq_some :
    map.get key = some value ↔ (key, value) ∈ map.entries := by
  obtain ⟨entries, nodup⟩ := map
  unfold get
  simp only
  induction entries with
  | nil => simp
  | cons entry rest ih =>
    obtain ⟨name, held⟩ := entry
    rw [List.map_cons, List.nodup_cons] at nodup
    have ih := ih nodup.2
    by_cases same : name = key
    · subst same
      have absent : ∀ other, (name, other) ∉ rest := by
        intro other member
        exact nodup.1 (List.mem_map.mpr ⟨(name, other), member, rfl⟩)
      simp [absent, eq_comm]
    · have other : (key, value) ≠ (name, held) := fun equal => same (congrArg Prod.fst equal).symm
      rw [List.find?_cons_of_neg (by simpa using same), ih, List.mem_cons]
      simp [other]

theorem get_eq_none :
    map.get key = none ↔ ∀ value, (key, value) ∉ map.entries := by
  rw [Option.eq_none_iff_forall_ne_some]
  exact forall_congr' fun value => not_congr get_eq_some

theorem mem_keys : key ∈ map.keys ↔ (map.get key).isSome := by
  rw [Option.isSome_iff_exists]
  simp [keys, get_eq_some]

@[simp] theorem get_empty (key : κ) : (∅ : OrderedMap κ α).get key = none := rfl

theorem get_filter (map : OrderedMap κ α) (keep : κ × α → Bool) (key : κ) :
    (map.filter keep).get key = (map.get key).filter fun value => keep (key, value) := by
  ext value
  rw [get_eq_some, Option.filter_eq_some_iff, get_eq_some]
  exact List.mem_filter

theorem get_delete (map : OrderedMap κ α) (key other : κ) :
    (map.delete key).get other = if other = key then none else map.get other := by
  unfold delete
  rw [get_filter]
  by_cases same : other = key
  · cases map.get other <;> simp [same]
  · cases map.get other <;> simp [same]

theorem get_mapValues (map : OrderedMap κ α) (change : κ → α → α) (key : κ) :
    (map.mapValues change).get key = (map.get key).map (change key) := by
  ext value
  rw [get_eq_some, Option.map_eq_some_iff]
  simp only [get_eq_some]
  constructor
  · intro member
    obtain ⟨entry, held, same⟩ := List.mem_map.mp member
    cases same
    exact ⟨entry.2, held, rfl⟩
  · intro found
    obtain ⟨old, held, same⟩ := found
    exact List.mem_map.mpr ⟨(key, old), held, by rw [same]⟩

theorem get_set (map : OrderedMap κ α) (key other : κ) (value : α) :
    (map.set key value).get other = if other = key then some value else map.get other := by
  unfold set
  split
  · next present =>
    rw [get_mapValues]
    by_cases same : other = key
    · obtain ⟨held, found⟩ := Option.isSome_iff_exists.mp (mem_keys.mp present)
      simp [same, found]
    · cases map.get other <;> simp [same]
  · next absent =>
    have missing : ∀ held, (key, held) ∉ map.entries :=
      fun held member => absent (List.mem_map.mpr ⟨(key, held), member, rfl⟩)
    ext held
    rw [get_eq_some, List.mem_append, List.mem_singleton, Prod.mk.injEq]
    by_cases same : other = key
    · subst same
      simp [missing, eq_comm]
    · rw [if_neg same, get_eq_some]
      simp [same]

theorem set_of_get (held : map.get key = some value) :
    map.set key value = map := by
  have present : key ∈ map.entries.map Prod.fst :=
    List.mem_map.mpr ⟨_, get_eq_some.mp held, rfl⟩
  unfold set
  rw [dif_pos present]
  ext1
  show map.entries.map _ = map.entries
  calc _ = map.entries.map id := List.map_congr_left fun entry member => by
        dsimp only
        by_cases same : entry.1 = key
        · have found : map.get key = some entry.2 := get_eq_some.mpr (same ▸ member)
          rw [held] at found
          rw [if_pos same, Option.some.inj found]
          rfl
        · rw [if_neg same]
          rfl
    _ = map.entries := List.map_id _

@[simp] theorem get_set_self (map : OrderedMap κ α) (key : κ) (value : α) :
    (map.set key value).get key = some value := by
  rw [get_set, if_pos rfl]

theorem mem_set {other : κ} {held : α} :
    (other, held) ∈ (map.set key value).entries ↔
      (other = key ∧ held = value) ∨ (other ≠ key ∧ (other, held) ∈ map.entries) := by
  rw [← get_eq_some, ← get_eq_some, get_set]
  by_cases same : other = key
  · simp [same, eq_comm]
  · simp [same]

theorem entries_set_of_none (absent : map.get key = none) (value : α) :
    (map.set key value).entries = map.entries ++ [(key, value)] := by
  unfold set
  split
  · next present =>
    have held : (map.get key).isSome := mem_keys.mp present
    rw [absent] at held
    contradiction
  · rfl

theorem has_iff_mem :
    map.has key = true ↔ ∃ value, (key, value) ∈ map.entries := by
  unfold has
  rw [Option.isSome_iff_exists]
  exact exists_congr fun value => get_eq_some

theorem size_delete_le (map : OrderedMap κ α) (key : κ) : (map.delete key).size ≤ map.size :=
  List.length_filter_le _ _

theorem size_set (map : OrderedMap κ α) (key : κ) (value : α) :
    (map.set key value).size = if map.has key then map.size else map.size + 1 := by
  unfold set has
  split
  · next present =>
    rw [mem_keys.mp present, if_pos rfl]
    exact List.length_map _
  · next absent =>
    have none : (map.get key).isSome = false := by
      rw [← Bool.not_eq_true]
      exact fun some => absent (mem_keys.mpr some)
    rw [none]
    simp [size]

/-! ## Setting and dropping many -/

theorem get_setAll_of_not_mem {entries : List (κ × α)} (absent : ∀ value, (key, value) ∉ entries) :
    (map.setAll entries).get key = map.get key := by
  induction entries generalizing map with
  | nil => rfl
  | cons entry rest ih =>
    have differs : key ≠ entry.1 := fun same =>
      absent entry.2 (List.mem_cons.mpr (.inl (Prod.ext same rfl)))
    have others : ∀ value, (key, value) ∉ rest :=
      fun value member => absent value (List.mem_cons_of_mem _ member)
    calc (map.setAll (entry :: rest)).get key
        = ((map.set entry.1 entry.2).setAll rest).get key := rfl
      _ = (map.set entry.1 entry.2).get key := ih others
      _ = map.get key := by rw [get_set, if_neg differs]

theorem get_setAll_of_mem {entries : List (κ × α)} (member : (key, value) ∈ entries)
    (only : ∀ other, (key, other) ∈ entries → other = value) :
    (map.setAll entries).get key = some value := by
  induction entries generalizing map with
  | nil => contradiction
  | cons entry rest ih =>
    have later : ∀ other, (key, other) ∈ rest → other = value :=
      fun other held => only other (List.mem_cons_of_mem _ held)
    show ((map.set entry.1 entry.2).setAll rest).get key = some value
    by_cases again : (key, value) ∈ rest
    · exact ih again later
    · have here : entry = (key, value) := ((List.mem_cons.mp member).resolve_right again).symm
      have absent : ∀ other, (key, other) ∉ rest :=
        fun other held => again (later other held ▸ held)
      rw [get_setAll_of_not_mem absent, here]
      exact get_set_self map key value

theorem eq_empty_iff : map = ∅ ↔ ∀ key, map.get key = none := by
  constructor
  · intro same key
    rw [same]
    rfl
  · intro none
    ext1
    refine List.eq_nil_iff_forall_not_mem.mpr fun entry member => ?_
    have held : map.get entry.1 = some entry.2 := get_eq_some.mpr member
    rw [none] at held
    contradiction

/-! ## Weights -/

def weight (weigh : κ → α → Nat) (map : OrderedMap κ α) : Nat :=
  (map.entries.map fun entry => weigh entry.1 entry.2).sum

variable {weigh : κ → α → Nat}

theorem entries_split (held : map.get key = some value) :
    ∃ before after, map.entries = before ++ (key, value) :: after ∧
      (∀ entry ∈ before, entry.1 ≠ key) ∧ ∀ entry ∈ after, entry.1 ≠ key := by
  obtain ⟨before, after, split⟩ := List.append_of_mem (get_eq_some.mp held)
  have nodup := map.nodup
  rw [split, List.map_append, List.map_cons, List.nodup_append] at nodup
  obtain ⟨_, ends, apart⟩ := nodup
  refine ⟨before, after, split, fun entry member same => ?_, fun entry member same => ?_⟩
  · exact apart entry.1 (List.mem_map_of_mem member) key (by simp) same
  · exact (List.nodup_cons.mp ends).1 (List.mem_map.mpr ⟨entry, member, same⟩)

theorem entries_set_of_some {old : α} (held : map.get key = some old) (value : α) :
    ∃ before after, map.entries = before ++ (key, old) :: after ∧
      (map.set key value).entries = before ++ (key, value) :: after := by
  obtain ⟨before, after, split, first, last⟩ := entries_split held
  have present : key ∈ map.entries.map Prod.fst :=
    List.mem_map.mpr ⟨_, get_eq_some.mp held, rfl⟩
  have others : ∀ entries : List (κ × α), (∀ entry ∈ entries, entry.1 ≠ key) →
      (entries.map fun entry => (entry.1, if entry.1 = key then value else entry.2)) = entries := by
    intro entries apart
    calc _ = entries.map id := List.map_congr_left fun entry member => by
          rw [if_neg (apart entry member)]
          rfl
      _ = entries := List.map_id _
  refine ⟨before, after, split, ?_⟩
  unfold set
  rw [dif_pos present]
  show map.entries.map _ = _
  rw [split, List.map_append, List.map_cons, others before first, others after last]
  dsimp only
  rw [if_pos rfl]

theorem weight_set {map : OrderedMap κ α} {key : κ} {old : α} (held : map.get key = some old)
    (value : α) :
    (map.set key value).weight weigh + weigh key old = map.weight weigh + weigh key value := by
  obtain ⟨before, after, split, changed⟩ := entries_set_of_some held value
  unfold weight
  rw [changed, split]
  simp only [List.map_append, List.map_cons, List.sum_append, List.sum_cons]
  omega

theorem weight_set_of_none {map : OrderedMap κ α} {key : κ} (absent : map.get key = none)
    (value : α) : (map.set key value).weight weigh = map.weight weigh + weigh key value := by
  unfold weight
  rw [entries_set_of_none absent]
  simp

theorem entries_delete (held : map.get key = some value) :
    ∃ before after, map.entries = before ++ (key, value) :: after ∧
      (map.delete key).entries = before ++ after := by
  obtain ⟨before, after, split, first, last⟩ := entries_split held
  have others : ∀ entries : List (κ × α), (∀ entry ∈ entries, entry.1 ≠ key) →
      (entries.filter fun entry => entry.1 ≠ key) = entries := by
    intro entries apart
    exact List.filter_eq_self.mpr fun entry member => decide_eq_true (apart entry member)
  refine ⟨before, after, split, ?_⟩
  show map.entries.filter _ = _
  rw [split, List.filter_append, List.filter_cons, others before first, others after last,
    if_neg (by simp)]

theorem weight_delete {map : OrderedMap κ α} {key : κ} {old : α} (held : map.get key = some old) :
    (map.delete key).weight weigh + weigh key old = map.weight weigh := by
  obtain ⟨before, after, split, changed⟩ := entries_delete held
  unfold weight
  rw [changed, split]
  simp only [List.map_append, List.map_cons, List.sum_append, List.sum_cons]
  omega

theorem delete_of_none (absent : map.get key = none) :
    map.delete key = map := by
  ext1
  refine List.filter_eq_self.mpr fun entry member => decide_eq_true fun same => ?_
  have held : map.get key = some entry.2 := get_eq_some.mpr (same ▸ member)
  rw [absent] at held
  contradiction

end OrderedMap

end NostrWot.Data
