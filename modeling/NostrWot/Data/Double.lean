import NostrWot.Data.Value
import Mathlib.Tactic.Ring

namespace NostrWot.Data

/-! # Doubles of naturals

Products and quotients of naturals as IEEE 754 rounds them: to the nearest double, and
to the even one of two.
-/

section Nearest

variable {value : Nat}

theorem pow_le_nearestDouble {exponent : Nat} (large : 53 ≤ exponent) (above : 2 ^ exponent ≤ value) :
    2 ^ exponent ≤ nearestDouble value := by
  have wide : 2 ^ 53 ≤ 2 ^ exponent := Nat.pow_le_pow_right (by decide) large
  have filled : value ≠ 0 := by
    have positive : 0 < 2 ^ exponent := Nat.two_pow_pos exponent
    omega
  have log : exponent ≤ value.log2 := (Nat.le_log2 filled).mpr above
  have top : 2 ^ value.log2 ≤ value := Nat.log2_self_le filled
  have ulps : 2 ^ value.log2 = 2 ^ 52 * 2 ^ (value.log2 - 52) := by
    rw [← Nat.pow_add]
    congr 1
    omega
  have positive : 0 < 2 ^ (value.log2 - 52) := Nat.two_pow_pos _
  have quotient : 2 ^ 52 ≤ value / 2 ^ (value.log2 - 52) := by
    rw [Nat.le_div_iff_mul_le positive, ← ulps]
    exact top
  have below : 2 ^ exponent ≤ value / 2 ^ (value.log2 - 52) * 2 ^ (value.log2 - 52) := by
    have power : 2 ^ exponent ≤ 2 ^ value.log2 := Nat.pow_le_pow_right (by decide) log
    have scaled := Nat.mul_le_mul_right (2 ^ (value.log2 - 52)) quotient
    omega
  simp only [nearestDouble]
  rw [if_neg (by omega)]
  split <;> omega

theorem nearestDouble_lt (small : nearestDouble value < 2 ^ 53) : value < 2 ^ 53 := by
  by_contra large
  have above := @pow_le_nearestDouble value 53 (Nat.le_refl _) (by omega)
  omega

theorem nearestDouble_eq (small : nearestDouble value < 2 ^ 53) : nearestDouble value = value :=
  nearestDouble_of_le (Nat.le_of_lt (nearestDouble_lt small))

theorem le_nearestDouble_add {exponent : Nat} (small : value < 2 ^ (exponent + 53)) :
    value ≤ nearestDouble value + 2 ^ exponent := by
  simp only [nearestDouble]
  split
  · exact Nat.le_add_right _ _
  · next large =>
    have filled : value ≠ 0 := by omega
    have log : value.log2 < exponent + 53 := (Nat.log2_lt filled).mpr small
    have ulp : 2 ^ (value.log2 - 52) ≤ 2 ^ exponent := Nat.pow_le_pow_right (by decide) (by omega)
    have positive : 0 < 2 ^ (value.log2 - 52) := Nat.two_pow_pos _
    have rest := Nat.mod_lt value positive
    have parts := Nat.div_add_mod' value (2 ^ (value.log2 - 52))
    split <;> omega

end Nearest

/-! ## Quotients -/

/-- The natural nearest to a quotient, the even one of two. -/
def roundedQuotient (num den : Nat) : Nat :=
  if 2 * (num % den) < den ∨ (2 * (num % den) = den ∧ num / den % 2 = 0) then num / den
  else num / den + 1

def floorQuotient (value den : Nat) : Nat :=
  let whole := value / den
  if whole < 2 ^ 53 then
    let scale := 2 ^ (52 - whole.log2)
    roundedQuotient (value * scale) den / scale
  else
    let ulp := 2 ^ (whole.log2 - 52)
    roundedQuotient value (den * ulp) * ulp

theorem le_roundedQuotient (num den : Nat) : num / den ≤ roundedQuotient num den := by
  simp only [roundedQuotient]
  split <;> omega

section Quotient

variable {value den : Nat}

theorem le_floorQuotient (positive : 0 < den) (small : value / den < 2 ^ 53) :
    value / den ≤ floorQuotient value den := by
  simp only [floorQuotient]
  rw [if_pos small]
  have unit : 0 < 2 ^ (52 - (value / den).log2) := Nat.two_pow_pos _
  rw [Nat.le_div_iff_mul_le unit]
  have scaled : value / den * 2 ^ (52 - (value / den).log2) ≤
      value * 2 ^ (52 - (value / den).log2) / den := by
    rw [Nat.le_div_iff_mul_le positive]
    have whole := Nat.div_mul_le_self value den
    calc value / den * 2 ^ (52 - (value / den).log2) * den
        = value / den * den * 2 ^ (52 - (value / den).log2) := by ring
      _ ≤ value * 2 ^ (52 - (value / den).log2) := Nat.mul_le_mul_right _ whole
  exact Nat.le_trans scaled (le_roundedQuotient _ _)

theorem floorQuotient_large (large : 2 ^ 53 ≤ value / den) :
    2 ^ 53 ≤ floorQuotient value den := by
  have filled : value / den ≠ 0 := by omega
  have log : 53 ≤ (value / den).log2 := (Nat.le_log2 filled).mpr large
  have top : 2 ^ (value / den).log2 ≤ value / den := Nat.log2_self_le filled
  have ulps : 2 ^ (value / den).log2 = 2 ^ 52 * 2 ^ ((value / den).log2 - 52) := by
    rw [← Nat.pow_add]
    congr 1
    omega
  have unit : 0 < 2 ^ ((value / den).log2 - 52) := Nat.two_pow_pos _
  have quotient : 2 ^ 52 ≤ value / (den * 2 ^ ((value / den).log2 - 52)) := by
    rw [← Nat.div_div_eq_div_mul, Nat.le_div_iff_mul_le unit, ← ulps]
    exact top
  have rounded := Nat.le_trans quotient (le_roundedQuotient _ _)
  have two : 2 ≤ 2 ^ ((value / den).log2 - 52) := by
    have power := Nat.pow_le_pow_right (show 0 < 2 by decide)
      (show 1 ≤ (value / den).log2 - 52 by omega)
    simpa using power
  simp only [floorQuotient]
  rw [if_neg (by omega)]
  calc 2 ^ 53 = 2 ^ 52 * 2 := by norm_num
    _ ≤ _ := Nat.mul_le_mul rounded two

/-- The quotient rounds to nothing beyond the next natural where half a unit in its last place
is less than one part of the divisor. -/
theorem floorQuotient_eq (positive : 0 < den) (small : value / den < 2 ^ 53)
    (fine : den < 2 * 2 ^ (52 - (value / den).log2)) : floorQuotient value den = value / den := by
  apply Nat.le_antisymm _ (le_floorQuotient positive small)
  simp only [floorQuotient]
  rw [if_pos small]
  generalize 2 ^ (52 - (value / den).log2) = scale at fine
  have unit : 0 < scale := by omega
  rw [← Nat.lt_succ_iff, Nat.div_lt_iff_lt_mul unit]
  have next : value * scale + scale ≤ (value / den).succ * scale * den := by
    have above : value + 1 ≤ (value / den).succ * den := by
      have parts := Nat.div_add_mod' value den
      have rest := Nat.mod_lt value positive
      rw [Nat.succ_mul]
      omega
    calc value * scale + scale = (value + 1) * scale := by ring
      _ ≤ (value / den).succ * den * scale := Nat.mul_le_mul_right _ above
      _ = (value / den).succ * scale * den := by ring
  generalize (value / den).succ * scale = target at next
  generalize value * scale = num at next
  have parts := Nat.div_add_mod' num den
  have below : num / den < target := by
    rw [Nat.div_lt_iff_lt_mul positive]
    omega
  simp only [roundedQuotient]
  split
  · exact below
  · next up =>
    by_contra reached
    have last : target = num / den + 1 := by omega
    rw [last, Nat.succ_mul] at next
    exact up (.inl (by omega))

theorem log2_le_of_lt {value exponent : Nat} (below : value < 2 ^ (exponent + 1)) :
    value.log2 ≤ exponent := by
  by_cases zero : value = 0
  · rw [zero]
    exact Nat.zero_le _
  · exact Nat.le_of_lt_succ ((Nat.log2_lt zero).mpr below)

theorem floorQuotient_exact (small : value < 2 ^ 53) (decimal : den = 10 ∨ den = 1000) :
    floorQuotient value den = value / den := by
  rcases decimal with ten | thousand
  · subst ten
    have log : (value / 10).log2 ≤ 49 := log2_le_of_lt (by omega)
    have scale : 2 ^ 3 ≤ 2 ^ (52 - (value / 10).log2) := Nat.pow_le_pow_right (by decide) (by omega)
    exact floorQuotient_eq (by decide) (by omega) (by omega)
  · subst thousand
    have log : (value / 1000).log2 ≤ 43 := log2_le_of_lt (by omega)
    have scale : 2 ^ 9 ≤ 2 ^ (52 - (value / 1000).log2) :=
      Nat.pow_le_pow_right (by decide) (by omega)
    exact floorQuotient_eq (by decide) (by omega) (by omega)

end Quotient

end NostrWot.Data
