import NostrWot.Data.OrderedMap

namespace NostrWot.Feed

open NostrWot.Data

/-! # Keyed observables

The map of slots behind each cache, and what the subscribers of a key are told.
-/

universe u v

inductive SlotStatus where
  | idle
  | loading
  | fresh
  | error
  deriving DecidableEq

structure Slot (α : Type u) where
  value : Option α
  status : SlotStatus
  lastFetched : Nat
  deriving DecidableEq

def Slot.EMPTY {α : Type u} : Slot α := ⟨none, .idle, 0⟩

/-- The slots of the keys that were ever set. -/
abbrev Slots (κ : Type u) (α : Type v) := OrderedMap κ (Slot α)

namespace Slots

variable {κ : Type u} {α : Type v} [DecidableEq κ]

def slot (slots : Slots κ α) (key : κ) : Slot α := (slots.get key).getD Slot.EMPTY

/-- The slots after `set`, and the slot that subscribers are told of unless the value counts as
equal to the one before. -/
def put (equal : α → α → Bool) (now : Nat) (key : κ) (value : α) (slots : Slots κ α) :
    Slots κ α × Option (Slot α) :=
  let next : Slot α := ⟨some value, .fresh, now⟩
  match slots.get key with
  | none => (slots.set key next, some next)
  | some prev =>
    if prev.value.any fun old => equal old value then
      (slots.set key { prev with lastFetched := now, status := .fresh }, none)
    else (slots.set key next, some next)

def setStatus (key : κ) (status : SlotStatus) (slots : Slots κ α) : Slots κ α × Option (Slot α) :=
  let next := { slots.slot key with status := status }
  (slots.set key next, some next)

variable {slots : Slots κ α} {equal : α → α → Bool} {now : Nat} {key other : κ} {value : α}

@[simp] theorem slot_set (slots : Slots κ α) (key : κ) (next : Slot α) (other : κ) :
    slot (slots.set key next) other = if other = key then next else slots.slot other := by
  rw [slot, OrderedMap.get_set]
  split <;> rfl

/-- A value stays that counts as equal to the new one, and only then are none told. -/
theorem put_cases (slots : Slots κ α) (equal : α → α → Bool) (now : Nat) (key : κ) (value : α) :
    (∃ old, (slots.slot key).value = some old ∧ equal old value = true ∧
      (slots.put equal now key value).2 = none ∧
      (slots.put equal now key value).1 = slots.set key ⟨some old, .fresh, now⟩) ∨
    ((∀ old, (slots.slot key).value = some old → equal old value = false) ∧
      (slots.put equal now key value).2 = some ⟨some value, .fresh, now⟩ ∧
      (slots.put equal now key value).1 = slots.set key ⟨some value, .fresh, now⟩) := by
  cases found : slots.get key with
  | none =>
    have absent : slots.slot key = Slot.EMPTY := by rw [slot, found]; rfl
    right
    simp [put, found, absent, Slot.EMPTY]
  | some prev =>
    have present : slots.slot key = prev := by rw [slot, found]; rfl
    rw [present]
    by_cases same : prev.value.any (fun old => equal old value) = true
    · obtain ⟨old, held, alike⟩ := (Option.any_eq_true_iff_get _ _).mp same |> fun both =>
        (⟨prev.value.get both.1, by simp, both.2⟩ : ∃ old, prev.value = some old ∧ equal old value = true)
      left
      refine ⟨old, held, alike, ?_, ?_⟩
      · simp [put, found, held, alike]
      · simp [put, found, held, alike]
    · right
      refine ⟨?_, ?_, ?_⟩
      · intro old held
        simpa [held] using same
      · simp [put, found, same]
      · simp [put, found, same]

/-- Where only equal values count as equal, the value is the one that was set. -/
theorem value_put (lawful : ∀ old new, equal old new = true → old = new) :
    (slot (slots.put equal now key value).1 other).value =
      if other = key then some value else (slots.slot other).value := by
  rcases put_cases slots equal now key value with ⟨old, _, alike, _, changed⟩ | ⟨_, _, changed⟩
  · rw [changed, slot_set, lawful old value alike]
    split <;> rfl
  · rw [changed, slot_set]
    split <;> rfl

end Slots

end NostrWot.Feed
