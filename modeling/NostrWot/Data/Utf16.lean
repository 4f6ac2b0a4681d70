import Mathlib.Data.List.Lex
import Mathlib.Data.Nat.Init

namespace NostrWot.Data

/-! # Strings in the order of their UTF-16 code units

How `<` and the default `sort()` compare two strings.
-/

/-- One unit, or a surrogate pair. -/
def charUnits (char : Char) : List Nat :=
  if char.toNat < 65536 then [char.toNat]
  else [55296 + (char.toNat - 65536) / 1024, 56320 + (char.toNat - 65536) % 1024]

/-- `\s` of a regular expression. -/
def isSpace (char : Char) : Bool :=
  let code := char.toNat
  (9 ≤ code && code ≤ 13) || (0x2000 ≤ code && code ≤ 0x200A) ||
    code ∈ [0x20, 0xA0, 0x1680, 0x2028, 0x2029, 0x202F, 0x205F, 0x3000, 0xFEFF]

def codeUnits (text : String) : List Nat := text.toList.flatMap charUnits

theorem charUnits_injective {left right : Char} {after rest : List Nat}
    (same : charUnits left ++ after = charUnits right ++ rest) : left = right ∧ after = rest := by
  have scalars : ∀ char : Char, char.toNat < 55296 ∨ 57343 < char.toNat ∧ char.toNat < 1114112 :=
    fun char => char.valid
  have equal : left.toNat = right.toNat ∧ after = rest := by
    unfold charUnits at same
    have here := scalars left
    have there := scalars right
    split at same
    · split at same
      · simpa using same
      · simp only [List.cons_append, List.nil_append, List.cons.injEq] at same
        omega
    · split at same
      · simp only [List.cons_append, List.nil_append, List.cons.injEq] at same
        omega
      · simp only [List.cons_append, List.nil_append, List.cons.injEq] at same
        refine ⟨by omega, same.2.2⟩
  exact ⟨Char.toNat_inj.mp equal.1, equal.2⟩

theorem codeUnits_injective : Function.Injective codeUnits := by
  intro left right same
  have lists : ∀ left right : List Char, left.flatMap charUnits = right.flatMap charUnits →
      left = right := by
    have filled : ∀ char : Char, charUnits char ≠ [] := by
      intro char
      unfold charUnits
      split <;> simp
    intro left
    induction left with
    | nil =>
      intro right same
      cases right with
      | nil => rfl
      | cons char rest => simp [filled] at same
    | cons first firsts ih =>
      intro right same
      cases right with
      | nil => simp [filled] at same
      | cons char rest =>
        rw [List.flatMap_cons, List.flatMap_cons] at same
        obtain ⟨here, tail⟩ := charUnits_injective same
        rw [here, ih rest tail]
  exact String.toList_injective (lists _ _ same)

def unitsLe (left right : String) : Bool := codeUnits left ≤ codeUnits right

theorem unitsLe_total (left right : String) : (unitsLe left right || unitsLe right left) = true := by
  simpa [unitsLe] using le_total (codeUnits left) (codeUnits right)

theorem unitsLe_trans {left middle right : String} (first : unitsLe left middle = true)
    (second : unitsLe middle right = true) : unitsLe left right = true := by
  unfold unitsLe at first second ⊢
  rw [decide_eq_true_eq] at first second ⊢
  exact le_trans first second

theorem unitsLe_antisymm {left right : String} (first : unitsLe left right = true)
    (second : unitsLe right left = true) : left = right := by
  unfold unitsLe at first second
  rw [decide_eq_true_eq] at first second
  exact codeUnits_injective (le_antisymm first second)

end NostrWot.Data
