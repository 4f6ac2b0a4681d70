import NostrWot.Data.Decimal
import NostrWot.Data.OrderedMap

namespace NostrWot.Data.Property

/-! # Properties of plain objects

Objects that are filled by `object[name] = value`, which is not a property of
its own under the name of the prototype, and enumerated with the names first
that are array indices.
-/

universe u v

variable {α : Type u} {β : Type v}

abbrev Object (α : Type u) : Type u := OrderedMap Units α

def PROTO : Units := Units.ofString "__proto__"

def assign (object : Object α) (name : Units) (value : α) : Object α :=
  if name = PROTO then object else object.set name value

def arrayIndex? (name : Units) : Option Nat :=
  let value := Units.decimal name
  if name = Units.digits value ∧ value < 2 ^ 32 - 1 then some value else none

def isIndex (entry : Units × α) : Bool := (arrayIndex? entry.1).isSome

def entriesOf (object : Object α) : List (Units × α) :=
  (object.entries.filter isIndex).insertionSort
      (fun left right => (arrayIndex? left.1).getD 0 ≤ (arrayIndex? right.1).getD 0) ++
    object.entries.filter fun entry => !isIndex entry

/-- `for (const [name, value] of entries) out[name] = change(name, value)`. -/
def rebuild (change : Units → α → β) (entries : List (Units × α)) : Object β :=
  entries.foldl (fun out entry => assign out entry.1 (change entry.1 entry.2)) ∅

theorem entriesOf_perm (object : Object α) : (entriesOf object).Perm object.entries := by
  unfold entriesOf
  exact ((List.perm_insertionSort _ _).append_right _).trans (List.filter_append_perm _ _)

theorem entriesOf_nodup (object : Object α) : ((entriesOf object).map Prod.fst).Nodup :=
  ((entriesOf_perm object).map Prod.fst).nodup_iff.mpr object.nodup

theorem rebuild_entries (change : Units → α → β) {entries : List (Units × α)}
    (apart : (entries.map Prod.fst).Nodup) :
    (rebuild change entries).entries = (entries.filter fun entry => entry.1 ≠ PROTO).map
      fun entry => (entry.1, change entry.1 entry.2) := by
  have from_ : ∀ (entries : List (Units × α)) (out : Object β), (entries.map Prod.fst).Nodup →
      (∀ entry ∈ entries, out.get entry.1 = none) →
      (entries.foldl (fun out entry => assign out entry.1 (change entry.1 entry.2)) out).entries =
        out.entries ++ (entries.filter fun entry => entry.1 ≠ PROTO).map
          fun entry => (entry.1, change entry.1 entry.2) := by
    intro entries
    induction entries with
    | nil => exact fun out _ _ => (List.append_nil _).symm
    | cons entry rest ih =>
      intro out apart fresh
      obtain ⟨other, apart⟩ := List.nodup_cons.mp apart
      obtain ⟨first, later⟩ := List.forall_mem_cons.mp fresh
      rw [List.foldl_cons]
      by_cases proto : entry.1 = PROTO
      · rw [assign, if_pos proto, ih out apart later, List.filter_cons,
          if_neg (by simpa using proto)]
      · rw [assign, if_neg proto, ih _ apart, OrderedMap.entries_set_of_none first,
          List.filter_cons, if_pos (by simpa using proto), List.map_cons, List.append_assoc]
        · rfl
        · intro next among
          rw [OrderedMap.get_set, if_neg]
          · exact later next among
          · intro same
            exact other (same ▸ List.mem_map_of_mem among)
  exact from_ entries ∅ apart fun _ _ => rfl

end NostrWot.Data.Property
