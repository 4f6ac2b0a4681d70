import Mathlib.Data.List.AList

namespace NostrWot.Data

/-! # Records

A JSON object read as what it holds: a finite map from property names.
-/

abbrev Property (α : Type) : Type := (_ : String) × α

abbrev Record (α : Type) : Type := AList fun _ : String => α

namespace Record

variable {α β : Type}

instance [DecidableEq α] : DecidableEq (Record α) := fun left right =>
  decidable_of_iff (left.entries = right.entries) ⟨AList.ext, congrArg _⟩

def spread (base extra : Record α) : Record α := extra ∪ base

@[simp] theorem lookup_spread (base extra : Record α) (key : String) :
    (spread base extra).lookup key = (extra.lookup key).or (base.lookup key) := by
  by_cases member : key ∈ extra
  · obtain ⟨value, found⟩ := Option.isSome_iff_exists.mp (AList.lookup_isSome.mpr member)
    rw [spread, AList.lookup_union_left member, found, Option.some_or]
  · rw [spread, AList.lookup_union_right member, AList.lookup_eq_none.mpr member, Option.none_or]

theorem keys_filterMap_sublist (change : String → α → Option β)
    (entries : List (Property α)) :
    (entries.filterMap fun entry =>
      (change entry.1 entry.2).map fun value => (⟨entry.1, value⟩ : Property β)).keys.Sublist
      entries.keys := by
  induction entries with
  | nil => exact .slnil
  | cons entry rest ih =>
    rw [List.filterMap_cons]
    cases change entry.1 entry.2 with
    | none => exact ih.cons _
    | some value => exact ih.cons_cons _

def filterMap (change : String → α → Option β) (record : Record α) : Record β where
  entries := record.entries.filterMap fun entry =>
    (change entry.1 entry.2).map fun value : β => (⟨entry.1, value⟩ : Property β)
  nodupKeys := record.keys_nodup.sublist (keys_filterMap_sublist change record.entries)

theorem dlookup_filterMap (change : String → α → Option β) (key : String)
    {entries : List (Property α)} (nodup : entries.NodupKeys) :
    (entries.filterMap fun entry =>
      (change entry.1 entry.2).map fun value : β => (⟨entry.1, value⟩ : Property β)).dlookup key =
      (entries.dlookup key).bind (change key) := by
  induction entries with
  | nil => rfl
  | cons entry rest ih =>
    obtain ⟨name, value⟩ := entry
    have absent : name ∉ rest.keys := (List.nodupKeys_cons.mp nodup).1
    have ih := ih (List.nodupKeys_cons.mp nodup).2
    rw [List.filterMap_cons]
    by_cases same : key = name
    · subst same
      rw [List.dlookup_cons_eq]
      cases changed : change key value with
      | none =>
        rw [List.dlookup_eq_none.mpr absent] at ih
        simpa [changed] using ih
      | some result => simp [changed]
    · rw [List.dlookup_cons_ne _ _ same]
      cases changed : change name value with
      | none => simpa [changed] using ih
      | some result => simpa [changed, List.dlookup_cons_ne _ (⟨name, result⟩ : Property β) same] using ih

@[simp] theorem lookup_filterMap (change : String → α → Option β) (record : Record α)
    (key : String) :
    (record.filterMap change).lookup key = (record.lookup key).bind (change key) :=
  dlookup_filterMap change key record.nodupKeys

def map (change : String → α → β) (record : Record α) : Record β :=
  record.filterMap fun key value => some (change key value)

@[simp] theorem lookup_map (change : String → α → β) (record : Record α) (key : String) :
    (record.map change).lookup key = (record.lookup key).map (change key) := by
  rw [map, lookup_filterMap]
  cases record.lookup key <;> rfl

def alter [EmptyCollection α] (record : Record α) (key : String) (change : α → α) : Record α :=
  record.insert key (change ((record.lookup key).getD ∅))

variable (record : Record α)

theorem lookup_insert (key other : String) (value : α) :
    (record.insert key value).lookup other =
      if other = key then some value else record.lookup other := by
  split
  · next same => rw [same, AList.lookup_insert]
  · next different => exact AList.lookup_insert_ne different

theorem lookup_foldl_insert (value : String → α) (keys : List String) (record : Record α)
    (other : String) :
    (keys.foldl (fun record key => record.insert key (value key)) record).lookup other =
      if other ∈ keys then some (value other) else record.lookup other := by
  induction keys generalizing record with
  | nil => simp
  | cons key rest ih =>
    rw [List.foldl_cons, ih, lookup_insert]
    by_cases later : other ∈ rest
    · simp [later]
    · by_cases same : other = key
      · simp [same]
      · simp [later, same]

theorem lookup_erase (key other : String) :
    (record.erase key).lookup other = if other = key then none else record.lookup other := by
  split
  · next same => rw [same, AList.lookup_erase]
  · next different => exact AList.lookup_erase_ne different

theorem lookup_alter [EmptyCollection α] (key other : String) (change : α → α) :
    (record.alter key change).lookup other =
      if other = key then some (change ((record.lookup key).getD ∅)) else record.lookup other :=
  lookup_insert ..

/-- No property at all: `Object.keys(record).length === 0`. -/
def isEmpty (record : Record α) : Bool := record.entries.isEmpty

theorem lookup_of_isEmpty {record : Record α} (empty : record.isEmpty) (key : String) :
    record.lookup key = none := by
  have entries : record.entries = [] := List.isEmpty_iff.mp empty
  rw [AList.lookup, entries, List.dlookup_nil]

theorem mem_keys_iff {record : Record α} {key : String} :
    key ∈ record.keys ↔ ∃ value, record.lookup key = some value := by
  rw [← AList.mem_keys, ← AList.lookup_isSome, Option.isSome_iff_exists]

theorem mem_entries_iff {record : Record α} {key : String} {value : α} :
    (⟨key, value⟩ : Property α) ∈ record.entries ↔ record.lookup key = some value :=
  (AList.mem_lookup_iff (s := record)).symm

def Forall (holds : α → Prop) (record : Record α) : Prop :=
  ∀ key value, record.lookup key = some value → holds value

namespace Forall

variable {holds : α → Prop} {record : Record α}

theorem empty : Forall holds (∅ : Record α) := by
  rintro key value found
  simp at found

theorem of_singleton {key : String} {value : α} (held : holds value) :
    Forall holds (AList.singleton key value) := by
  intro other found looked
  rw [← AList.insert_empty, lookup_insert] at looked
  split at looked
  · cases looked
    exact held
  · simp at looked

theorem insert (every : Forall holds record) {key : String} {value : α} (held : holds value) :
    Forall holds (record.insert key value) := by
  intro other found looked
  rw [lookup_insert] at looked
  split at looked
  · cases looked
    exact held
  · exact every other found looked

theorem erase (every : Forall holds record) (key : String) : Forall holds (record.erase key) := by
  intro other found looked
  rw [lookup_erase] at looked
  split at looked
  · contradiction
  · exact every other found looked

theorem spread {extra : Record α} (base : Forall holds record) (more : Forall holds extra) :
    Forall holds (Record.spread record extra) := by
  intro key value found
  rw [lookup_spread, Option.or_eq_some_iff] at found
  rcases found with found | ⟨-, found⟩
  · exact more key value found
  · exact base key value found

theorem filterMap {change : String → α → Option β} {kept : β → Prop}
    (changed : ∀ key value result, record.lookup key = some value →
      change key value = some result → kept result) :
    Forall kept (record.filterMap change) := by
  intro key result found
  rw [lookup_filterMap] at found
  obtain ⟨value, looked, same⟩ := Option.bind_eq_some_iff.mp found
  exact changed key value result looked same

theorem map {change : String → α → β} {kept : β → Prop}
    (changed : ∀ key value, record.lookup key = some value → kept (change key value)) :
    Forall kept (record.map change) :=
  filterMap fun key value result looked same => by
    cases same
    exact changed key value looked

theorem getD [EmptyCollection α] (every : Forall holds record) (none : holds ∅) (key : String) :
    holds ((record.lookup key).getD ∅) := by
  cases found : record.lookup key with
  | none => exact none
  | some value => exact every key value found

theorem alter [EmptyCollection α] (every : Forall holds record) (none : holds ∅) {key : String}
    {change : α → α} (changed : ∀ value, holds value → holds (change value)) :
    Forall holds (record.alter key change) :=
  every.insert (changed _ (every.getD none key))

end Forall

end Record

end NostrWot.Data
