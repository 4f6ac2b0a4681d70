import NostrWot.Data.Decimal
import NostrWot.Data.Double

namespace NostrWot.Feed

open NostrWot.Data

open JsonSyntax (isDigit)

/-! # Zap amounts

The amount that a zap receipt's invoice names, as the pattern over its first characters
reads it.
-/

/-- A JavaScript number that is a natural or infinite. -/
inductive Count where
  | finite (value : Nat)
  | infinity
  deriving DecidableEq

/-- What is rounded to this is rounded to `Infinity`. -/
@[irreducible] def OVERFLOW : Nat := 2 ^ 1024

theorem overflow_large : 2 ^ 53 ≤ OVERFLOW := by
  unfold OVERFLOW
  exact Nat.pow_le_pow_right (by omega) (by omega)

/-- A natural that has been rounded to a double. -/
def Count.ofNat (value : Nat) : Count :=
  if OVERFLOW ≤ nearestDouble value then .infinity else .finite (nearestDouble value)

def BOLT11 : Units := Units.ofString "bolt11"

def LNBC : Units := Units.ofString "lnbc"

def lowerUnit (unit : UInt16) : UInt16 := if 65 ≤ unit ∧ unit ≤ 90 then unit + 32 else unit

/-- `toLowerCase` as far as the pattern can see it: no character beyond ASCII lowers to one
that it looks for. -/
def toLowerCase (text : Units) : Units := text.map lowerUnit

def bolt11Of (tags : List (List Units)) : Option Units :=
  (tags.find? fun tag => tag[0]? = some BOLT11 && tag[1]?.getD [] ≠ []).bind fun tag => tag[1]?

/-- What the amount is worth under the letter that was matched behind it. -/
def scaled (value : Nat) (letter : Option UInt16) : Count :=
  if letter = some 109 then .ofNat (value * 100000000)
  else if letter = some 117 then .ofNat (value * 100000)
  else if letter = some 110 then .ofNat (value * 100)
  else if letter = some 112 then .finite (floorQuotient value 10)
  else .ofNat (value * 100000000000)

def readAs (digits : Units) (letter : Option UInt16) : Count :=
  match Count.ofNat (Units.decimal digits) with
  | .infinity => .finite 0
  | .finite value => scaled value letter

/-- What `/^lnbc(\d+)([munp]?)/` reads. -/
def invoiceMsats (text : Units) : Count :=
  let inv := toLowerCase text
  let digits := (inv.drop 4).takeWhile isDigit
  if !LNBC.isPrefixOf inv || digits = [] then .finite 0
  else readAs digits ((inv.drop 4).dropWhile isDigit).head?

def parseZapMsats (tags : List (List Units)) : Count :=
  match bolt11Of tags with
  | none => .finite 0
  | some text => invoiceMsats text

/-- What a receipt adds to a zap total. -/
def zapSats (tags : List (List Units)) : Count :=
  match parseZapMsats tags with
  | .infinity => .infinity
  | .finite msats => .finite (floorQuotient msats 1000)

/-! ## Invoices -/

inductive Multiplier where
  | milli
  | micro
  | nano
  | pico
  deriving DecidableEq

def Multiplier.letter : Multiplier → UInt16
  | .milli => 109
  | .micro => 117
  | .nano => 110
  | .pico => 112

def BECH32 : Units := Units.ofString "qpzry9x8gf2tvdw0s3jn54khce6mua7l"

structure Invoice where
  /-- The decimal amount, with its multiplier. -/
  amount : Option (Units × Option Multiplier)
  data : Units
  decimal : ∀ parts ∈ amount, parts.1 ≠ [] ∧ ∀ unit ∈ parts.1, isDigit unit = true
  alphabet : ∀ unit ∈ data, unit ∈ BECH32

namespace Invoice

def digits (invoice : Invoice) : Units := (invoice.amount.map Prod.fst).getD []

def multiplier (invoice : Invoice) : Option Multiplier := invoice.amount.bind Prod.snd

/-- The invoice in lower case. -/
def text (invoice : Invoice) : Units :=
  LNBC ++ (invoice.digits ++ (invoice.multiplier.toList.map Multiplier.letter ++ 49 :: invoice.data))

def msats (invoice : Invoice) : Nat :=
  let number := Units.decimal invoice.digits
  match invoice.multiplier with
  | none => number * 100000000000
  | some .milli => number * 100000000
  | some .micro => number * 100000
  | some .nano => number * 100
  | some .pico => number / 10

end Invoice

def Carries (tags : List (List Units)) (invoice : Invoice) : Prop :=
  ∃ text, bolt11Of tags = some text ∧ toLowerCase text = invoice.text

/-! ## When the pattern reads an invoice -/

/-- Whether the tenth of a large double is rounded up to the next natural. -/
def tenthCarry (double : Nat) : Nat :=
  if (2 ^ 52 ≤ double / 10 ∧ 6 ≤ double % 10) ∨
      (2 ^ 51 ≤ double / 10 ∧ double / 10 < 2 ^ 52 ∧ 8 ≤ double % 10) then 1 else 0

def TensKept (number : Nat) : Prop :=
  number / 10 = nearestDouble number / 10 + tenthCarry (nearestDouble number)

/-- A number that no double holds. -/
def Beyond (digits : Units) : Prop := OVERFLOW ≤ nearestDouble (Units.decimal digits)

/-- No multiplier stands between the amount and the separator, which is then read as a digit
and goes on with the data: only nothing is read as nothing, by `p` or by a number too large. -/
def ReadThrough (invoice : Invoice) : Prop :=
  match invoice.multiplier with
  | none => Units.decimal invoice.digits = 0 ∧ (invoice.data.head? = some 112 ∨
      Beyond (invoice.digits ++ 49 :: invoice.data.takeWhile isDigit))
  | some .pico => TensKept (Units.decimal invoice.digits)
  | some _ => True

/-! ## Numerals -/

theorem decimal_concat (left right : Units) :
    Units.decimal (left ++ right) = Units.decimal left * 10 ^ right.length + Units.decimal right := by
  induction right using List.reverseRecOn with
  | nil => simp [Units.decimal]
  | append_singleton right unit induction =>
    rw [← List.append_assoc, Units.decimal_append, induction, Units.decimal_append,
      List.length_append, List.length_singleton, Nat.pow_succ]
    ring

theorem decimal_lt {digits : Units} (all : ∀ unit ∈ digits, isDigit unit = true) :
    Units.decimal digits < 10 ^ digits.length := by
  induction digits using List.reverseRecOn with
  | nil => simp [Units.decimal]
  | append_singleton digits unit induction =>
    have front := induction fun other member => all other (by simp [member])
    have last := all unit (by simp)
    simp only [isDigit, Bool.and_eq_true, decide_eq_true_eq, UInt16.le_iff_toNat_le] at last
    have bound : unit.toNat ≤ 57 := last.2
    rw [Units.decimal_append, List.length_append, List.length_singleton, Nat.pow_succ]
    omega

theorem decimal_through (digits rest : Units) :
    Units.decimal (digits ++ 49 :: rest) =
      (10 * Units.decimal digits + 1) * 10 ^ rest.length + Units.decimal rest := by
  have separator : digits ++ 49 :: rest = (digits ++ [49]) ++ rest := by simp
  rw [separator, decimal_concat, Units.decimal_append]
  congr 2
  have one : (49 : UInt16).toNat - 48 = 1 := by decide
  omega

/-! ## Rounding -/

theorem ofNat_eq_finite {value result : Nat} (small : result < 2 ^ 53) :
    Count.ofNat value = .finite result ↔ value = result := by
  simp only [Count.ofNat]
  constructor
  · intro same
    split at same
    · cases same
    · have rounded := Count.finite.inj same
      rw [nearestDouble_eq (by omega)] at rounded
      exact rounded
  · intro same
    have within : result < OVERFLOW := Nat.lt_of_lt_of_le small overflow_large
    rw [same, nearestDouble_of_le (Nat.le_of_lt small)]
    exact if_neg (Nat.not_le.mpr within)

theorem nearestDouble_even {value : Nat} (large : 2 ^ 53 ≤ value) : nearestDouble value % 2 = 0 := by
  have log : 53 ≤ value.log2 := (Nat.le_log2 (by omega)).mpr large
  obtain ⟨half, ulp⟩ : ∃ half, 2 ^ (value.log2 - 52) = 2 * half := by
    refine ⟨2 ^ (value.log2 - 53), ?_⟩
    rw [← Nat.pow_succ']
    congr 1
    omega
  simp only [nearestDouble]
  rw [if_neg (by omega), ulp]
  have below : value / (2 * half) * (2 * half) = 2 * (value / (2 * half) * half) := by ring
  rw [below]
  split <;> omega

theorem log2_eq {value exponent : Nat} (above : 2 ^ exponent ≤ value)
    (below : value < 2 ^ (exponent + 1)) : value.log2 = exponent := by
  have positive : 0 < 2 ^ exponent := Nat.two_pow_pos exponent
  have low := (Nat.le_log2 (show value ≠ 0 by omega)).mpr above
  have high := log2_le_of_lt below
  omega

theorem floorQuotient_tenth {value : Nat} (even : value % 2 = 0) (small : value / 10 < 2 ^ 53) :
    floorQuotient value 10 = value / 10 + tenthCarry value := by
  have ranges : value / 10 < 2 ^ 50 ∨ (2 ^ 50 ≤ value / 10 ∧ value / 10 < 2 ^ 51) ∨
      (2 ^ 51 ≤ value / 10 ∧ value / 10 < 2 ^ 52) ∨ 2 ^ 52 ≤ value / 10 := by omega
  rcases ranges with tiny | ⟨low, high⟩ | ⟨low, high⟩ | low
  · have log := @log2_le_of_lt (value / 10) 49 tiny
    have scale : 2 ^ 3 ≤ 2 ^ (52 - (value / 10).log2) := Nat.pow_le_pow_right (by decide) (by omega)
    rw [floorQuotient_eq (by decide) small (by omega), tenthCarry, if_neg (by omega)]
    rfl
  · rw [floorQuotient, if_pos small, log2_eq low high, tenthCarry]
    simp only [roundedQuotient]
    split <;> split <;> omega
  · rw [floorQuotient, if_pos small, log2_eq low high, tenthCarry]
    simp only [roundedQuotient]
    split <;> split <;> omega
  · rw [floorQuotient, if_pos small, log2_eq low (by omega), tenthCarry]
    simp only [roundedQuotient]
    split <;> split <;> omega

/-! ## Amounts read through the separator -/

theorem through_ne {number count rest factor : Nat} (small : rest < 10 ^ count) (short : factor ≤ 11) :
    ((10 * number + 1) * 10 ^ count + rest) * 10 ^ factor ≠ number * 10 ^ 11 := by
  intro same
  have split : 10 ^ 11 = 10 ^ (11 - factor) * 10 ^ factor := by
    rw [← Nat.pow_add]
    congr 1
    omega
  rw [split, ← Nat.mul_assoc] at same
  have reduced := Nat.eq_of_mul_eq_mul_right (Nat.pow_pos (by decide)) same
  have positive : 0 < 10 ^ count := Nat.pow_pos (by decide)
  rcases Nat.lt_or_ge count (11 - factor) with below | above
  · obtain ⟨more, wide⟩ : ∃ more, 11 - factor = more + 1 + count := ⟨11 - factor - count - 1, by omega⟩
    rw [wide, Nat.pow_add, ← Nat.mul_assoc] at reduced
    have front := congrArg (· / 10 ^ count) reduced
    simp only [Nat.mul_div_cancel _ positive] at front
    rw [Nat.mul_comm, Nat.mul_add_div positive, Nat.div_eq_of_lt small, Nat.pow_succ,
      ← Nat.mul_assoc] at front
    omega
  · have power : 10 ^ (11 - factor) ≤ 10 ^ count := Nat.pow_le_pow_right (by decide) above
    have most := Nat.mul_le_mul_left number power
    have least : number * 10 ^ count ≤ 10 * number * 10 ^ count :=
      Nat.mul_le_mul_right _ (by omega)
    rw [Nat.add_mul] at reduced
    omega

theorem le_tenth {value least : Nat} (within : least ≤ value / 10) (small : least ≤ 2 ^ 53) :
    least ≤ floorQuotient value 10 := by
  rcases Nat.lt_or_ge (value / 10) (2 ^ 53) with below | above
  · exact Nat.le_trans within (le_floorQuotient (by decide) below)
  · exact Nat.le_trans small (floorQuotient_large above)

theorem tenth_beyond {number value : Nat} (fits : number * 10 ^ 11 < 2 ^ 53)
    (enough : 10 * (number * 10 ^ 11) + 10 ^ 11 ≤ value) :
    number * 10 ^ 11 + 1 ≤ floorQuotient (nearestDouble value) 10 := by
  generalize number * 10 ^ 11 = amount at fits enough
  have near : value < 2 ^ 57 → value ≤ nearestDouble value + 2 ^ 4 :=
    fun below => @le_nearestDouble_add value 4 below
  have large : 2 ^ 57 ≤ value → 2 ^ 57 ≤ nearestDouble value :=
    pow_le_nearestDouble (by decide)
  apply le_tenth
  · generalize nearestDouble value = double at near large
    rcases Nat.lt_or_ge value (2 ^ 57) with below | above
    · have rounded := near below
      omega
    · have rounded := large above
      omega
  · omega

/-- Read in pico-bitcoin it is another amount, but for nothing. -/
theorem through_tenth {number count rest : Nat} (small : rest < 10 ^ count)
    (fits : number * 10 ^ 11 < 2 ^ 53) :
    floorQuotient (nearestDouble ((10 * number + 1) * 10 ^ count + rest)) 10 = number * 10 ^ 11 ↔
      number = 0 ∧ count = 0 := by
  have whole : ∀ value, value < 2 ^ 53 → floorQuotient (nearestDouble value) 10 = value / 10 := by
    intro value below
    rw [nearestDouble_of_le (Nat.le_of_lt below), floorQuotient_exact below (.inl rfl)]
  rcases Nat.lt_or_ge count 11 with short | long
  · have power : 10 ^ count ≤ 10 ^ 10 := Nat.pow_le_pow_right (by decide) (by omega)
    have most : (10 * number + 1) * 10 ^ count ≤ (10 * number + 1) * 10 ^ 10 :=
      Nat.mul_le_mul_left _ power
    rw [whole _ (by omega)]
    by_cases none : number = 0
    · subst none
      cases count with
      | zero =>
        have alone : rest = 0 := by simpa using small
        simp [alone]
      | succ count =>
        have positive : 0 < 10 ^ count := Nat.pow_pos (by decide)
        have large : 10 ≤ (10 * 0 + 1) * 10 ^ (count + 1) + rest := by
          rw [Nat.pow_succ]
          omega
        constructor
        · intro same
          omega
        · intro both
          exact absurd both.2 (by omega)
    · constructor
      · intro same
        omega
      · intro both
        exact absurd both.1 none
  · have power : 10 ^ 11 ≤ 10 ^ count := Nat.pow_le_pow_right (by decide) long
    have least : (10 * number + 1) * 10 ^ 11 ≤ (10 * number + 1) * 10 ^ count :=
      Nat.mul_le_mul_left _ power
    have enough : 10 * (number * 10 ^ 11) + 10 ^ 11 ≤ (10 * number + 1) * 10 ^ count + rest := by
      omega
    have passed := tenth_beyond fits enough
    generalize floorQuotient (nearestDouble ((10 * number + 1) * 10 ^ count + rest)) 10 = tenth at passed
    constructor
    · intro same
      omega
    · intro both
      omega

theorem readAs_cases (digits : Units) (letter : Option UInt16) :
    (Beyond digits ∧ readAs digits letter = .finite 0) ∨
      (¬ Beyond digits ∧
        readAs digits letter = scaled (nearestDouble (Units.decimal digits)) letter) := by
  by_cases beyond : Beyond digits
  · have infinite : Count.ofNat (Units.decimal digits) = .infinity := if_pos beyond
    exact .inl ⟨beyond, by rw [readAs, infinite]⟩
  · have finite : Count.ofNat (Units.decimal digits) =
        .finite (nearestDouble (Units.decimal digits)) := if_neg beyond
    exact .inr ⟨beyond, by rw [readAs, finite]⟩

theorem readAs_through {digits rest : Units} (all : ∀ unit ∈ rest, isDigit unit = true)
    (letter : Option UInt16) (fits : Units.decimal digits * 10 ^ 11 < 2 ^ 53) :
    readAs (digits ++ 49 :: rest) letter = .finite (Units.decimal digits * 10 ^ 11) ↔
      Units.decimal digits = 0 ∧
        ((rest = [] ∧ letter = some 112) ∨ Beyond (digits ++ 49 :: rest)) := by
  have small := decimal_lt all
  have number := decimal_through digits rest
  have never : ∀ factor ≤ 11, Count.ofNat (nearestDouble (Units.decimal (digits ++ 49 :: rest)) *
      10 ^ factor) ≠ .finite (Units.decimal digits * 10 ^ 11) := by
    intro factor short same
    rw [ofNat_eq_finite fits] at same
    have positive : 0 < 10 ^ factor := Nat.pow_pos (by decide)
    have least := Nat.le_mul_of_pos_right
      (nearestDouble (Units.decimal (digits ++ 49 :: rest))) positive
    rw [same] at least
    rw [nearestDouble_eq (Nat.lt_of_le_of_lt least fits), number] at same
    exact through_ne small short same
  rcases readAs_cases (digits ++ 49 :: rest) letter with ⟨beyond, read⟩ | ⟨within, read⟩
  · rw [read, Count.finite.injEq]
    constructor
    · intro same
      exact ⟨by omega, .inr beyond⟩
    · intro none
      rw [none.1]
      rfl
  · rw [read, or_iff_left within, scaled]
    by_cases pico : letter = some 112
    · have others : letter ≠ some 109 ∧ letter ≠ some 117 ∧ letter ≠ some 110 := by
        rw [pico]
        decide
      rw [if_neg others.1, if_neg others.2.1, if_neg others.2.2, if_pos pico, Count.finite.injEq,
        number, through_tenth small fits, List.length_eq_zero_iff]
      simp only [pico, and_true]
    · have never : scaled (nearestDouble (Units.decimal (digits ++ 49 :: rest))) letter ≠
          .finite (Units.decimal digits * 10 ^ 11) := by
        rw [scaled, if_neg pico]
        split
        · exact never 8 (by decide)
        · split
          · exact never 5 (by decide)
          · split
            · exact never 2 (by decide)
            · exact never 11 (by decide)
      rw [scaled] at never
      constructor
      · intro same
        exact absurd same never
      · intro both
        exact absurd both.2.2 pico

/-! ## What the pattern reads -/

section Reading

variable {text : Units} {invoice : Invoice}

theorem Invoice.digits_all (invoice : Invoice) : ∀ unit ∈ invoice.digits, isDigit unit = true := by
  intro unit member
  cases amount : invoice.amount with
  | none => simp [Invoice.digits, amount] at member
  | some parts =>
    have digits : invoice.digits = parts.1 := by simp [Invoice.digits, amount]
    rw [digits] at member
    exact (invoice.decimal parts (by rw [amount]; rfl)).2 unit member

theorem invoiceMsats_spelled (spelled : toLowerCase text = invoice.text) {digits : Units}
    {letter : Option UInt16} (filled : digits ≠ [])
    (read : ((invoice.text.drop 4).takeWhile isDigit) = digits)
    (behind : ((invoice.text.drop 4).dropWhile isDigit).head? = letter) :
    invoiceMsats text = readAs digits letter := by
  have starts : LNBC.isPrefixOf invoice.text = true :=
    List.isPrefixOf_iff_prefix.mpr ⟨_, rfl⟩
  simp only [invoiceMsats, spelled, starts, read, behind, filled, Bool.not_true, Bool.false_or,
    decide_false, Bool.false_eq_true, if_false]

theorem drop_text (invoice : Invoice) : invoice.text.drop 4 = invoice.digits ++
    (invoice.multiplier.toList.map Multiplier.letter ++ 49 :: invoice.data) := by
  have four : LNBC.length = 4 := by decide
  rw [Invoice.text, ← four, List.drop_left]

theorem read_multiplied {multiplier : Multiplier} (spelled : toLowerCase text = invoice.text)
    (some_ : invoice.multiplier = some multiplier) :
    invoiceMsats text = readAs invoice.digits (some multiplier.letter) := by
  have letter : isDigit multiplier.letter = false := by
    cases multiplier <;> decide
  have filled : invoice.digits ≠ [] := by
    cases amount : invoice.amount with
    | none => simp [Invoice.multiplier, amount] at some_
    | some parts =>
      have digits : invoice.digits = parts.1 := by simp [Invoice.digits, amount]
      rw [digits]
      exact (invoice.decimal parts (by rw [amount]; rfl)).1
  have behind : invoice.text.drop 4 =
      invoice.digits ++ multiplier.letter :: 49 :: invoice.data := by
    rw [drop_text, some_]
    rfl
  apply invoiceMsats_spelled spelled filled
  · rw [behind, List.takeWhile_append_of_pos invoice.digits_all, List.takeWhile_cons]
    simp [letter]
  · rw [behind, List.dropWhile_append_of_pos invoice.digits_all, List.dropWhile_cons]
    simp [letter]

theorem read_unmultiplied (spelled : toLowerCase text = invoice.text)
    (none_ : invoice.multiplier = none) :
    invoiceMsats text = readAs (invoice.digits ++ 49 :: invoice.data.takeWhile isDigit)
      (invoice.data.dropWhile isDigit).head? := by
  have separator : isDigit 49 = true := by decide
  have behind : invoice.text.drop 4 = invoice.digits ++ 49 :: invoice.data := by
    rw [drop_text, none_]
    rfl
  apply invoiceMsats_spelled spelled (by simp)
  · rw [behind, List.takeWhile_append_of_pos invoice.digits_all, List.takeWhile_cons]
    simp [separator]
  · rw [behind, List.dropWhile_append_of_pos invoice.digits_all, List.dropWhile_cons]
    simp [separator]

end Reading

theorem readAs_scaled {digits : Units} {factor : Nat} {letter : Option UInt16}
    (fits : Units.decimal digits * factor < 2 ^ 53) (positive : 0 < factor)
    (read : ∀ value, scaled value letter = Count.ofNat (value * factor)) :
    readAs digits letter = .finite (Units.decimal digits * factor) := by
  have least := Nat.le_mul_of_pos_right (Units.decimal digits) positive
  have exact_ : nearestDouble (Units.decimal digits) = Units.decimal digits :=
    nearestDouble_of_le (Nat.le_of_lt (Nat.lt_of_le_of_lt least fits))
  rcases readAs_cases digits letter with ⟨beyond, _⟩ | ⟨_, result⟩
  · rw [Beyond, exact_] at beyond
    exact absurd (Nat.le_trans overflow_large (Nat.le_trans beyond least)) (Nat.not_le.mpr fits)
  · rw [result, read, exact_, ofNat_eq_finite fits]

theorem nearestDouble_le_double (value : Nat) : nearestDouble value ≤ 2 * value := by
  simp only [nearestDouble]
  split
  · omega
  · next large =>
    have top : 2 ^ value.log2 ≤ value := Nat.log2_self_le (by omega)
    have ulp : 2 ^ (value.log2 - 52) ≤ 2 ^ value.log2 :=
      Nat.pow_le_pow_right (by decide) (by omega)
    have below := Nat.div_mul_le_self value (2 ^ (value.log2 - 52))
    split <;> omega

theorem readAs_tenth {digits : Units} (fits : Units.decimal digits / 10 < 2 ^ 53) :
    readAs digits (some 112) = .finite (Units.decimal digits / 10) ↔
      TensKept (Units.decimal digits) := by
  generalize number : Units.decimal digits = value at fits
  have read : readAs digits (some 112) = .finite (floorQuotient (nearestDouble value) 10) := by
    rcases readAs_cases digits (some 112) with ⟨beyond, _⟩ | ⟨_, result⟩
    · have most := nearestDouble_le_double value
      have least : 2 ^ 60 ≤ OVERFLOW := by
        unfold OVERFLOW
        exact Nat.pow_le_pow_right (by omega) (by omega)
      rw [Beyond, number] at beyond
      omega
    · rw [result, number]
      rfl
  rw [read, Count.finite.injEq, TensKept]
  rcases Nat.lt_or_ge value (2 ^ 53) with below | above
  · rw [nearestDouble_of_le (Nat.le_of_lt below), floorQuotient_exact below (.inl rfl), tenthCarry,
      if_neg (by omega)]
    simp
  · have even := nearestDouble_even above
    generalize nearestDouble value = double at even
    rcases Nat.lt_or_ge (double / 10) (2 ^ 53) with small | large
    · rw [floorQuotient_tenth even small]
      exact eq_comm
    · have passed := floorQuotient_large large
      constructor
      · intro same
        omega
      · intro same
        omega

theorem pico_first (data : Units) :
    ((data.takeWhile isDigit = [] ∧ (data.dropWhile isDigit).head? = some 112) ↔
      data.head? = some 112) := by
  cases data with
  | nil => simp
  | cons unit rest =>
    cases digit : isDigit unit with
    | true =>
      have other : unit ≠ 112 := by
        rintro rfl
        revert digit
        decide
      simp [digit, other]
    | false => simp [digit]

theorem invoiceMsats_iff {text : Units} {invoice : Invoice}
    (spelled : toLowerCase text = invoice.text) (small : invoice.msats < 2 ^ 53) :
    invoiceMsats text = .finite invoice.msats ↔ ReadThrough invoice := by
  rw [Invoice.msats] at small ⊢
  rw [ReadThrough]
  cases multiplier : invoice.multiplier with
  | none =>
    have power : 100000000000 = 10 ^ 11 := by norm_num
    simp only [multiplier, power] at small ⊢
    rw [read_unmultiplied spelled multiplier,
      readAs_through (fun unit member => List.mem_takeWhile_imp member) _ small, pico_first]
  | some letter =>
    rw [read_multiplied spelled multiplier]
    cases letter with
    | milli =>
      simp only [multiplier] at small ⊢
      simp only [iff_true]
      exact readAs_scaled small (by decide) fun value => by simp [scaled, Multiplier.letter]
    | micro =>
      simp only [multiplier] at small ⊢
      simp only [iff_true]
      exact readAs_scaled small (by decide) fun value => by simp [scaled, Multiplier.letter]
    | nano =>
      simp only [multiplier] at small ⊢
      simp only [iff_true]
      exact readAs_scaled small (by decide) fun value => by simp [scaled, Multiplier.letter]
    | pico =>
      simp only [multiplier] at small ⊢
      exact readAs_tenth small

/-- The amount of an invoice is what its receipt is read as, and adds to a total, just when the
pattern stops where the amount does, or reads nothing as nothing. -/
theorem parseZapMsats_iff {tags : List (List Units)} {invoice : Invoice}
    (carries : Carries tags invoice) (small : invoice.msats < 2 ^ 53) :
    (parseZapMsats tags = .finite invoice.msats ∧ zapSats tags = .finite (invoice.msats / 1000)) ↔
      ReadThrough invoice := by
  obtain ⟨text, found, spelled⟩ := carries
  have parsed : parseZapMsats tags = invoiceMsats text := by
    simp only [parseZapMsats, found]
  rw [← invoiceMsats_iff spelled small, parsed]
  constructor
  · intro both
    exact both.1
  · intro read
    refine ⟨read, ?_⟩
    rw [zapSats, parsed, read]
    simp only [Count.finite.injEq]
    exact floorQuotient_exact small (.inr rfl)

/-! ## Two invoices -/

def microInvoice : Invoice where
  amount := some (Units.ofString "2500", some .micro)
  data := Units.ofString "pvjluez"
  decimal := by
    intro parts member
    rw [Option.mem_def, Option.some.injEq] at member
    subst member
    exact ⟨by decide, List.all_eq_true.mp (by decide)⟩
  alphabet := by
    intro unit member
    have every : (Units.ofString "pvjluez").all BECH32.contains = true := by decide
    exact List.contains_iff_mem.mp (List.all_eq_true.mp every unit member)

/-- Two bitcoin. -/
def wholeInvoice : Invoice where
  amount := some (Units.ofString "2", none)
  data := Units.ofString "pvjluez"
  decimal := by
    intro parts member
    rw [Option.mem_def, Option.some.injEq] at member
    subst member
    exact ⟨by decide, List.all_eq_true.mp (by decide)⟩
  alphabet := by
    intro unit member
    have every : (Units.ofString "pvjluez").all BECH32.contains = true := by decide
    exact List.contains_iff_mem.mp (List.all_eq_true.mp every unit member)

theorem parseZapMsats_iff_micro :
    parseZapMsats [[BOLT11, Units.ofString "LNBC2500U1PVJLUEZ"]] = .finite 250000000 ∧
      zapSats [[BOLT11, Units.ofString "LNBC2500U1PVJLUEZ"]] = .finite 250000 :=
  (@parseZapMsats_iff [[BOLT11, Units.ofString "LNBC2500U1PVJLUEZ"]] microInvoice
    ⟨Units.ofString "LNBC2500U1PVJLUEZ", by decide, by decide⟩ (by decide)).mpr trivial

/-- Two bitcoin are read as two millisatoshis. -/
theorem whole_misread :
    toLowerCase (Units.ofString "lnbc21pvjluez") = wholeInvoice.text ∧
      wholeInvoice.msats = 200000000000 ∧
      parseZapMsats [[BOLT11, Units.ofString "lnbc21pvjluez"]] = .finite 2 := by
  have spelled : toLowerCase (Units.ofString "lnbc21pvjluez") = wholeInvoice.text := by decide
  have found : bolt11Of [[BOLT11, Units.ofString "lnbc21pvjluez"]] =
      some (Units.ofString "lnbc21pvjluez") := by decide
  have digits : wholeInvoice.digits ++ 49 :: wholeInvoice.data.takeWhile isDigit =
      Units.ofString "21" := by decide
  have letter : (wholeInvoice.data.dropWhile isDigit).head? = some 112 := by decide
  have number : Count.ofNat (Units.decimal (Units.ofString "21")) = .finite 21 :=
    (ofNat_eq_finite (by decide)).mpr (by decide)
  refine ⟨spelled, by decide, ?_⟩
  simp only [parseZapMsats, found]
  rw [read_unmultiplied spelled rfl, digits, letter, readAs, number]
  decide

end NostrWot.Feed
