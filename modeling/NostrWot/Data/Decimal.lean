import NostrWot.Data.JsonValue

namespace NostrWot.Data

/-! # Decimal numerals

Naturals as the language writes them and reads them back.
-/

namespace Units

open JsonSyntax

/-- `Number(digits)`. -/
def decimal (digits : Units) : Nat :=
  digits.foldl (fun number unit => number * 10 + (unit.toNat - 48)) 0

theorem decimal_append (digits : Units) (unit : UInt16) :
    decimal (digits ++ [unit]) = decimal digits * 10 + (unit.toNat - 48) := by
  simp [decimal]

theorem ofString_ofList (chars : List Char) : ofString (String.ofList chars) = chars.flatMap ofChar := by
  rw [ofString, String.toList_ofList]

theorem digits_small {value : Nat} (small : value < 10) :
    digits value = [UInt16.ofNat (48 + value)] := by
  have every : ∀ value < 10, ofChar (Nat.digitChar value) = [UInt16.ofNat (48 + value)] := by decide
  rw [digits, Nat.toDigits_of_lt_base small, ofString_ofList, List.flatMap_singleton,
    every value small]

theorem digits_large {value : Nat} (large : 10 ≤ value) :
    digits value = digits (value / 10) ++ [UInt16.ofNat (48 + value % 10)] := by
  have last := digits_small (Nat.mod_lt value (show 10 > 0 by decide))
  rw [digits, Nat.toDigits_of_lt_base (Nat.mod_lt value (by decide)), ofString_ofList,
    List.flatMap_singleton] at last
  rw [digits, Nat.toDigits_of_base_le (by decide) large, ofString_ofList, List.flatMap_append,
    List.flatMap_singleton, last, digits, ofString_ofList]

theorem digits_spec (value : Nat) : decimal (digits value) = value ∧
    (∀ unit ∈ digits value, isDigit unit = true) ∧
    ∃ first rest, digits value = first :: rest ∧ (first = 48 → rest = [] ∧ value = 0) := by
  induction value using Nat.strong_induction_on with
  | _ value ih =>
    rcases Nat.lt_or_ge value 10 with small | large
    · have every : ∀ value < 10, isDigit (UInt16.ofNat (48 + value)) = true ∧
          (UInt16.ofNat (48 + value)).toNat - 48 = value ∧
          (UInt16.ofNat (48 + value) = 48 → value = 0) := by
        decide
      obtain ⟨digit, worth, zero⟩ := every value small
      rw [digits_small small]
      refine ⟨by simpa [decimal] using worth, by simpa using digit, _, [], rfl, ?_⟩
      intro isZero
      exact ⟨rfl, zero isZero⟩
    · have every : ∀ value < 10, isDigit (UInt16.ofNat (48 + value)) = true ∧
          (UInt16.ofNat (48 + value)).toNat - 48 = value := by
        decide
      obtain ⟨digit, worth⟩ := every (value % 10) (Nat.mod_lt value (by decide))
      obtain ⟨same, all, first, rest, begins, leading⟩ := ih (value / 10) (by omega)
      rw [digits_large large]
      refine ⟨?_, ?_, first, rest ++ [UInt16.ofNat (48 + value % 10)], by rw [begins]; rfl, ?_⟩
      · rw [decimal_append, same, worth]
        omega
      · intro unit among
        rcases List.mem_append.mp among with before | last
        · exact all unit before
        · rw [List.mem_singleton.mp last]
          exact digit
      · intro isZero
        obtain ⟨-, none_⟩ := leading isZero
        omega

theorem takeWhile_digits {text : Units} (all : ∀ unit ∈ text, isDigit unit = true) :
    text.takeWhile isDigit = text ∧ text.dropWhile isDigit = [] :=
  ⟨List.takeWhile_eq_self_iff.mpr all, List.dropWhile_eq_nil_iff.mpr all⟩

theorem scanNumber_digits (value : Nat) : scanNumber (digits value) = some (digits value, []) := by
  obtain ⟨-, all, first, rest, begins, leading⟩ := digits_spec value
  rw [begins] at all ⊢
  obtain ⟨digit, others⟩ := List.forall_mem_cons.mp all
  obtain ⟨taken, dropped⟩ := takeWhile_digits others
  have unsigned : first ≠ 45 := by
    rintro rfl
    exact absurd digit (by decide)
  have integral : scanInteger (first :: rest) = some (first :: rest, []) := by
    rw [scanInteger]
    split
    · next zero =>
      obtain ⟨rfl, -⟩ := leading zero
      rw [zero]
    · rw [taken, dropped]
  unfold scanNumber
  simp only [if_neg unsigned, integral, Option.map_some]
  simp [scanFraction, scanExponent]

theorem scanNumber_negative {first : UInt16} {rest : Units} (unsigned : first ≠ 45) :
    scanNumber (45 :: first :: rest) =
      (scanNumber (first :: rest)).map fun read => (45 :: read.1, read.2) := by
  unfold scanNumber
  simp only [if_neg unsigned, if_true, Option.map_map]
  rfl

end Units

def decimalFormat : JsonValue.NumberFormat Nat where
  digits := Units.digits
  read := Units.decimal
  back value := (Units.digits_spec value).1
  number := Units.scanNumber_digits

def integerFormat : JsonValue.NumberFormat Int where
  digits
    | .ofNat value => Units.digits value
    | .negSucc value => 45 :: Units.digits (value + 1)
  read text := if text.head? = some 45 then - Units.decimal text.tail else Units.decimal text
  back value := by
    cases value with
    | ofNat value =>
      obtain ⟨same, all, first, rest, begins, -⟩ := Units.digits_spec value
      have unsigned : (Units.digits value).head? ≠ some 45 := by
        rw [begins, List.head?_cons]
        rintro ⟨⟩
        exact absurd (all 45 (begins ▸ List.mem_cons_self)) (by decide)
      dsimp only
      rw [if_neg unsigned, same]
      rfl
    | negSucc value =>
      dsimp only
      rw [if_pos List.head?_cons, List.tail_cons, (Units.digits_spec (value + 1)).1]
      rfl
  number value := by
    cases value with
    | ofNat value => exact Units.scanNumber_digits value
    | negSucc value =>
      have scanned := Units.scanNumber_digits (value + 1)
      obtain ⟨-, all, first, rest, begins, -⟩ := Units.digits_spec (value + 1)
      dsimp only
      rw [begins] at all scanned ⊢
      have unsigned : first ≠ 45 := by
        rintro rfl
        exact absurd (all 45 List.mem_cons_self) (by decide)
      rw [Units.scanNumber_negative unsigned, scanned]
      rfl

end NostrWot.Data
