import Mathlib
import NostrWot.Data.Utf8

namespace NostrWot.Data

/-! # Strings as UTF-16 code units

JavaScript's own strings, which may hold surrogates without a partner: their
characters, their bytes in UTF-8 and their JSON text.
-/

abbrev Units : Type := List UInt16

instance : LawfulBEq Units := inferInstance

namespace Units

def isHigh (unit : UInt16) : Bool := 0xD800 ≤ unit && unit ≤ 0xDBFF

def isLow (unit : UInt16) : Bool := 0xDC00 ≤ unit && unit ≤ 0xDFFF

def isSurrogate (unit : UInt16) : Bool := isHigh unit || isLow unit

def ofChar (char : Char) : Units :=
  if char.toNat < 0x10000 then [UInt16.ofNat char.toNat]
  else [UInt16.ofNat (0xD800 + (char.toNat - 0x10000) / 1024),
    UInt16.ofNat (0xDC00 + (char.toNat - 0x10000) % 1024)]

def ofString (text : String) : Units := text.toList.flatMap ofChar

def pair (high low : UInt16) : Char :=
  Char.ofNat (0x10000 + (high.toNat - 0xD800) * 1024 + (low.toNat - 0xDC00))

def single (unit : UInt16) : Char :=
  if isSurrogate unit then '\uFFFD' else Char.ofNat unit.toNat

/-- The scalar values that a `TextEncoder` reads. -/
def scalars : Units → List Char
  | [] => []
  | [unit] => [single unit]
  | unit :: next :: rest =>
    if isHigh unit && isLow next then pair unit next :: scalars rest
    else single unit :: scalars (next :: rest)

def encode (text : Units) : List UInt8 := Utf8.encode (scalars text)

/-! ## Bytes -/

section Bytes

variable {unit next : UInt16}

theorem isHigh_bounds (high : isHigh unit = true) : 0xD800 ≤ unit.toNat ∧ unit.toNat ≤ 0xDBFF := by
  simpa [isHigh, UInt16.le_iff_toNat_le] using high

theorem isLow_bounds (low : isLow unit = true) : 0xDC00 ≤ unit.toNat ∧ unit.toNat ≤ 0xDFFF := by
  simpa [isLow, UInt16.le_iff_toNat_le] using low

theorem isSurrogate_iff : isSurrogate unit = true ↔ 0xD800 ≤ unit.toNat ∧ unit.toNat ≤ 0xDFFF := by
  simp only [isSurrogate, isHigh, isLow, Bool.or_eq_true, Bool.and_eq_true, decide_eq_true_eq,
    UInt16.le_iff_toNat_le]
  change (55296 ≤ unit.toNat ∧ unit.toNat ≤ 56319) ∨ (56320 ≤ unit.toNat ∧ unit.toNat ≤ 57343) ↔
    55296 ≤ unit.toNat ∧ unit.toNat ≤ 57343
  omega

theorem toNat_ofNat_valid {point : Nat} (valid : point.isValidChar) :
    (Char.ofNat point).toNat = point := by
  rw [Char.ofNat, dif_pos valid]
  rfl

theorem toNat_single (plain : isSurrogate unit = false) : (single unit).toNat = unit.toNat := by
  have outside : ¬ (0xD800 ≤ unit.toNat ∧ unit.toNat ≤ 0xDFFF) := by
    rw [← isSurrogate_iff, plain]
    decide
  have below := unit.toNat_lt
  rw [single, plain, if_neg (by decide), toNat_ofNat_valid]
  simp only [Nat.isValidChar]
  omega

theorem toNat_pair (high : isHigh unit = true) (low : isLow next = true) :
    0x10000 ≤ (pair unit next).toNat := by
  have above := isHigh_bounds high
  have below := isLow_bounds low
  rw [pair, toNat_ofNat_valid]
  · omega
  · simp only [Nat.isValidChar]
    omega

theorem length_encodeChar (char : Char) :
    (Utf8.encodeChar char).length =
      if char.toNat < 0x80 then 1 else if char.toNat < 0x800 then 2
      else if char.toNat < 0x10000 then 3 else 4 := by
  dsimp only [Utf8.encodeChar]
  by_cases one : char.toNat ≤ 0x7F
  · rw [if_pos one, if_pos (by omega)]
    rfl
  by_cases two : char.toNat ≤ 0x7FF
  · rw [if_neg one, if_pos two, if_neg (by omega), if_pos (by omega)]
    rfl
  by_cases three : char.toNat ≤ 0xFFFF
  · rw [if_neg one, if_neg two, if_pos three, if_neg (by omega), if_neg (by omega),
      if_pos (by omega)]
    rfl
  · rw [if_neg one, if_neg two, if_neg three, if_neg (by omega), if_neg (by omega),
      if_neg (by omega)]
    rfl

theorem length_encode_cons (char : Char) (rest : List Char) :
    (Utf8.encode (char :: rest)).length =
      (Utf8.encodeChar char).length + (Utf8.encode rest).length := by
  simp [Utf8.encode]

theorem length_encode_single (unit : UInt16) :
    (Utf8.encodeChar (single unit)).length =
      if unit < 0x80 then 1 else if unit < 0x800 then 2 else 3 := by
  have below := unit.toNat_lt
  rw [length_encodeChar]
  simp only [UInt16.lt_iff_toNat_lt]
  change _ = if unit.toNat < 0x80 then 1 else if unit.toNat < 0x800 then 2 else 3
  cases surrogate : isSurrogate unit with
  | true =>
    have range := isSurrogate_iff.mp surrogate
    have replaced : single unit = '\uFFFD' := by rw [single, surrogate, if_pos rfl]
    have point : ('\uFFFD' : Char).toNat = 0xFFFD := by decide
    rw [replaced, point, if_neg (show ¬ unit.toNat < 0x80 by omega),
      if_neg (show ¬ unit.toNat < 0x800 by omega)]
    rfl
  | false =>
    rw [toNat_single surrogate, if_pos below]

theorem length_encode_pair (high : isHigh unit = true) (low : isLow next = true) :
    (Utf8.encodeChar (pair unit next)).length = 4 := by
  have above := toNat_pair high low
  rw [length_encodeChar, if_neg (by omega), if_neg (by omega), if_neg (by omega)]

end Bytes

/-! ## Bytes and back -/

def isWellFormed : Units → Bool
  | [] => true
  | [unit] => !isSurrogate unit
  | unit :: next :: rest =>
    if isHigh unit && isLow next then isWellFormed rest
    else !isSurrogate unit && isWellFormed (next :: rest)

def decode (bytes : List UInt8) : Units := (Utf8.decode bytes).flatMap ofChar

/-- `new TextDecoder('utf-8', { fatal: true, ignoreBOM: true }).decode(bytes)`: what cannot be read is
replaced, and the replacement has other bytes. -/
def decodeFatal (bytes : List UInt8) : Option Units :=
  if Utf8.encode (Utf8.decodeFrom .start bytes) = bytes then
    some ((Utf8.decodeFrom .start bytes).flatMap ofChar)
  else none

theorem isWellFormed_cons {unit : UInt16} (plain : isSurrogate unit = false) (rest : Units) :
    isWellFormed (unit :: rest) = isWellFormed rest := by
  have high : isHigh unit = false := (Bool.or_eq_false_iff.mp plain).1
  cases rest with
  | nil => simp [isWellFormed, plain]
  | cons next rest => simp [isWellFormed, high, plain]

theorem isWellFormed_append {text rest : Units} (formed : isWellFormed text = true)
    (formed' : isWellFormed rest = true) : isWellFormed (text ++ rest) = true := by
  fun_induction isWellFormed text with
  | case1 => exact formed'
  | case2 unit =>
    have plain : isSurrogate unit = false := by simpa using formed
    rw [List.cons_append, List.nil_append, isWellFormed_cons plain, formed']
  | case3 unit next text paired ih =>
    rw [List.cons_append, List.cons_append, isWellFormed, if_pos paired]
    exact ih formed
  | case4 unit next text alone ih =>
    obtain ⟨plain, left⟩ := (Bool.and_eq_true _ _).mp formed
    rw [List.cons_append, isWellFormed_cons (by simpa using plain)]
    exact ih left

theorem isWellFormed_plain {text : Units} (plain : ∀ unit ∈ text, isSurrogate unit = false) :
    isWellFormed text = true := by
  induction text with
  | nil => rfl
  | cons unit rest ih =>
    obtain ⟨first, others⟩ := List.forall_mem_cons.mp plain
    rw [isWellFormed_cons first]
    exact ih others

theorem ofChar_pair {unit next : UInt16} (high : isHigh unit = true) (low : isLow next = true) :
    ofChar (pair unit next) = [unit, next] := by
  have above := isHigh_bounds high
  have below := isLow_bounds low
  have point : (pair unit next).toNat =
      0x10000 + (unit.toNat - 0xD800) * 1024 + (next.toNat - 0xDC00) := by
    rw [pair, toNat_ofNat_valid]
    simp only [Nat.isValidChar]
    omega
  have first : 0xD800 + ((pair unit next).toNat - 0x10000) / 1024 = unit.toNat := by
    rw [point]
    omega
  have second : 0xDC00 + ((pair unit next).toNat - 0x10000) % 1024 = next.toNat := by
    rw [point]
    omega
  rw [ofChar, if_neg (by omega), first, second, UInt16.ofNat_toNat, UInt16.ofNat_toNat]

theorem ofChar_single (unit : UInt16) :
    ofChar (single unit) = if isSurrogate unit then [0xFFFD] else [unit] := by
  have below := unit.toNat_lt
  cases surrogate : isSurrogate unit with
  | true =>
    rw [single, surrogate, if_pos rfl]
    rfl
  | false =>
    have small : (single unit).toNat < 0x10000 := by
      rw [toNat_single surrogate]
      exact below
    rw [ofChar, if_pos small, toNat_single surrogate, UInt16.ofNat_toNat]
    rfl

variable (text : Units)

theorem scalars_back : (scalars text).flatMap ofChar = text ↔ isWellFormed text := by
  have replaced : ∀ unit, isSurrogate unit = true → (0xFFFD : UInt16) ≠ unit := by
    rintro unit surrogate rfl
    exact absurd surrogate (by decide)
  fun_induction isWellFormed text with
  | case1 => simp [scalars]
  | case2 unit =>
    rw [scalars, List.flatMap_singleton, ofChar_single]
    cases surrogate : isSurrogate unit with
    | true => simpa using replaced unit surrogate
    | false => simp
  | case3 unit next rest paired ih =>
    obtain ⟨high, low⟩ := (Bool.and_eq_true _ _).mp paired
    rw [scalars, if_pos paired, List.flatMap_cons, ofChar_pair high low]
    simpa using ih
  | case4 unit next rest alone ih =>
    rw [scalars, if_neg alone, List.flatMap_cons, ofChar_single]
    cases surrogate : isSurrogate unit with
    | true =>
      have other := replaced unit surrogate
      simp [other]
    | false => simpa using ih

theorem scalars_mark :
    (scalars text).head? = some Utf8.byteOrderMark ↔ text.head? = some 0xFEFF := by
  have alone : ∀ unit, single unit = Utf8.byteOrderMark ↔ unit = 0xFEFF := by
    intro unit
    constructor
    · intro marked
      have same : ofChar (single unit) = [0xFEFF] := by
        rw [marked]
        rfl
      rw [ofChar_single] at same
      split at same
      · exact absurd same (by decide)
      · exact List.head_eq_of_cons_eq same
    · rintro rfl
      rfl
  fun_cases scalars text with
  | case1 => simp
  | case2 unit => simpa using alone unit
  | case3 unit next rest paired =>
    obtain ⟨high, low⟩ := (Bool.and_eq_true _ _).mp paired
    have point := toNat_pair high low
    have bounds := isHigh_bounds high
    simp only [List.head?_cons, Option.some.injEq]
    constructor
    · intro marked
      rw [marked] at point
      exact absurd point (by decide)
    · rintro rfl
      exact absurd bounds (by decide)
  | case4 unit next rest unpaired => simpa using alone unit

theorem length_scalars : ((scalars text).flatMap ofChar).length = text.length := by
  have one : ∀ unit, (ofChar (single unit)).length = 1 := by
    intro unit
    rw [ofChar_single]
    split <;> rfl
  fun_induction scalars text with
  | case1 => rfl
  | case2 unit => simpa using one unit
  | case3 unit next rest paired ih =>
    obtain ⟨high, low⟩ := (Bool.and_eq_true _ _).mp paired
    rw [List.flatMap_cons, List.length_append, ofChar_pair high low, ih]
    simp only [List.length_cons, List.length_nil]
    omega
  | case4 unit next rest alone ih =>
    rw [List.flatMap_cons, List.length_append, one, ih]
    simp only [List.length_cons]
    omega

theorem length_ofChars {chars : List Char} (small : ∀ char ∈ chars, char.toNat < 128) :
    (chars.flatMap ofChar).length = chars.length := by
  induction chars with
  | nil => rfl
  | cons char rest ih =>
    obtain ⟨first, others⟩ := List.forall_mem_cons.mp small
    rw [List.flatMap_cons, List.length_append, ih others, ofChar, if_pos (by omega)]
    simp only [List.length_cons, List.length_nil]
    omega

theorem scalars_ofChars (chars : List Char) : scalars (chars.flatMap ofChar) = chars := by
  induction chars with
  | nil => rfl
  | cons char rest ih =>
    have valid : char.toNat < 55296 ∨ 57343 < char.toNat ∧ char.toNat < 1114112 := char.valid
    rw [List.flatMap_cons, ofChar]
    split
    · next small =>
      have point : (UInt16.ofNat char.toNat).toNat = char.toNat := by
        rw [UInt16.toNat_ofNat']
        exact Nat.mod_eq_of_lt small
      have plain : isSurrogate (UInt16.ofNat char.toNat) = false := by
        rw [← Bool.not_eq_true, isSurrogate_iff, point]
        omega
      have alone : isHigh (UInt16.ofNat char.toNat) = false := by
        simp only [isSurrogate, Bool.or_eq_false_iff] at plain
        exact plain.1
      have same : single (UInt16.ofNat char.toNat) = char := by
        rw [single, plain, if_neg (by decide), point, Char.ofNat_toNat]
      cases others : rest.flatMap ofChar with
      | nil =>
        rw [others] at ih
        rw [List.append_nil, scalars, same, ← ih, scalars]
      | cons next after =>
        rw [others] at ih
        rw [List.cons_append, List.nil_append, scalars, alone, Bool.false_and,
          if_neg (by decide), same, ih]
    · next large =>
      have high : (UInt16.ofNat (0xD800 + (char.toNat - 0x10000) / 1024)).toNat =
          0xD800 + (char.toNat - 0x10000) / 1024 := by
        rw [UInt16.toNat_ofNat']
        exact Nat.mod_eq_of_lt (by omega)
      have low : (UInt16.ofNat (0xDC00 + (char.toNat - 0x10000) % 1024)).toNat =
          0xDC00 + (char.toNat - 0x10000) % 1024 := by
        rw [UInt16.toNat_ofNat']
        exact Nat.mod_eq_of_lt (by omega)
      have paired : (isHigh (UInt16.ofNat (0xD800 + (char.toNat - 0x10000) / 1024)) &&
          isLow (UInt16.ofNat (0xDC00 + (char.toNat - 0x10000) % 1024))) = true := by
        simp only [isHigh, isLow, Bool.and_eq_true, decide_eq_true_eq, UInt16.le_iff_toNat_le,
          high, low]
        change (55296 ≤ _ ∧ _ ≤ 56319) ∧ 56320 ≤ _ ∧ _ ≤ 57343
        omega
      have same : pair (UInt16.ofNat (0xD800 + (char.toNat - 0x10000) / 1024))
          (UInt16.ofNat (0xDC00 + (char.toNat - 0x10000) % 1024)) = char := by
        have point : 0x10000 + (0xD800 + (char.toNat - 0x10000) / 1024 - 0xD800) * 1024 +
            (0xDC00 + (char.toNat - 0x10000) % 1024 - 0xDC00) = char.toNat := by
          omega
        rw [pair, high, low, point, Char.ofNat_toNat]
      rw [List.cons_append, List.cons_append, List.nil_append, scalars, if_pos paired, same, ih]

/-- A text comes back from its bytes unless a surrogate is alone or a byte order mark leads. -/
theorem decode_encode_iff :
    decode (encode text) = text ↔ isWellFormed text ∧ text.head? ≠ some 0xFEFF := by
  rw [decode, encode, Utf8.decode_encode]
  split
  · next marked =>
    have leads := (scalars_mark text).mp marked
    simp only [leads, ne_eq, not_true_eq_false, and_false, iff_false]
    intro same
    have whole := length_scalars text
    obtain ⟨rest, parts⟩ := List.head?_eq_some_iff.mp marked
    rw [parts, List.flatMap_cons, List.length_append] at whole
    rw [parts, List.tail_cons] at same
    rw [same] at whole
    have first : (ofChar Utf8.byteOrderMark).length = 1 := rfl
    omega
  · next unmarked =>
    have leads := mt (scalars_mark text).mpr unmarked
    rw [scalars_back]
    simp [leads]

theorem decodeFatal_encode {text : Units} (formed : isWellFormed text = true) :
    decodeFatal (encode text) = some text := by
  rw [decodeFatal, encode, Utf8.decodeFrom_encode, if_pos rfl, (scalars_back text).mpr formed]

/-! ## JSON text -/

def hexUnit (value : Nat) : UInt16 :=
  if value < 10 then UInt16.ofNat (48 + value) else UInt16.ofNat (87 + value)

/-- `\uXXXX`. -/
def unicodeEscape (unit : UInt16) : Units :=
  [92, 117, hexUnit (unit.toNat / 4096), hexUnit (unit.toNat / 256 % 16),
    hexUnit (unit.toNat / 16 % 16), hexUnit (unit.toNat % 16)]

/-- One unit inside a JSON string; a surrogate here has no partner. -/
def escapeUnit (unit : UInt16) : Units :=
  if unit = 34 then [92, 34]
  else if unit = 92 then [92, 92]
  else if unit = 8 then [92, 98]
  else if unit = 12 then [92, 102]
  else if unit = 10 then [92, 110]
  else if unit = 13 then [92, 114]
  else if unit = 9 then [92, 116]
  else if unit < 32 || isSurrogate unit then unicodeEscape unit
  else [unit]

def escape : Units → Units
  | [] => []
  | [unit] => escapeUnit unit
  | unit :: next :: rest =>
    if isHigh unit && isLow next then unit :: next :: escape rest
    else escapeUnit unit ++ escape (next :: rest)

/-- `JSON.stringify(text)`. -/
def quote (text : Units) : Units := 34 :: escape text ++ [34]

def digits (value : Nat) : Units := ofString (String.ofList (Nat.toDigits 10 value))

/-- `JSON.stringify` of an array, given the texts of its items. -/
def bracketed (texts : List Units) : Units := 91 :: [44].intercalate texts ++ [93]

/-- `JSON.stringify` of an object, given the texts of its properties. -/
def braced (fields : List (Units × Units)) : Units :=
  123 :: [44].intercalate (fields.map fun field => quote field.1 ++ 58 :: field.2) ++ [125]

theorem hexUnit_plain {value : Nat} (small : value < 16) : isSurrogate (hexUnit value) = false := by
  have every : ∀ value < 16, isSurrogate (hexUnit value) = false := by decide
  exact every value small

theorem isWellFormed_escapeUnit (unit : UInt16) : isWellFormed (escapeUnit unit) = true := by
  have below := unit.toNat_lt
  have unicode : isWellFormed (unicodeEscape unit) = true := by
    refine isWellFormed_plain ?_
    simp only [unicodeEscape, List.forall_mem_cons]
    exact ⟨by decide, by decide, hexUnit_plain (by omega), hexUnit_plain (by omega),
      hexUnit_plain (by omega), hexUnit_plain (by omega), nofun⟩
  unfold escapeUnit
  split_ifs with quote slash back feed line carriage tab control
  · rfl
  · rfl
  · rfl
  · rfl
  · rfl
  · rfl
  · rfl
  · exact unicode
  · have plain : isSurrogate unit = false := by
      simp only [Bool.or_eq_true, not_or, Bool.not_eq_true] at control
      exact control.2
    simp [isWellFormed, plain]

theorem isWellFormed_escape : isWellFormed (escape text) = true := by
  fun_induction escape text with
  | case1 => rfl
  | case2 unit => exact isWellFormed_escapeUnit unit
  | case3 unit next rest paired ih =>
    rw [isWellFormed, if_pos paired]
    exact ih
  | case4 unit next rest alone ih => exact isWellFormed_append (isWellFormed_escapeUnit unit) ih

theorem isWellFormed_quote : isWellFormed (quote text) = true := by
  rw [quote, List.cons_append, isWellFormed_cons (by decide)]
  exact isWellFormed_append (isWellFormed_escape text) rfl

theorem length_escapeUnit (unit : UInt16) : 1 ≤ (escapeUnit unit).length := by
  unfold escapeUnit
  split_ifs <;> simp [unicodeEscape]

theorem length_escape : text.length ≤ (escape text).length := by
  fun_induction escape text with
  | case1 => exact Nat.le_refl _
  | case2 unit => exact length_escapeUnit unit
  | case3 unit next rest pair ih =>
    simp only [List.length_cons]
    omega
  | case4 unit next rest pair ih =>
    have one := length_escapeUnit unit
    simp only [List.length_append, List.length_cons] at ih ⊢
    omega

theorem length_quote : text.length + 2 ≤ (quote text).length := by
  have inner := length_escape text
  simp only [quote, List.length_append, List.length_cons, List.length_nil]
  omega

/-- The texts between commas, each with its comma but for the last. -/
theorem length_intercalate (texts : List Units) :
    ([44].intercalate texts : Units).length = (texts.map List.length).sum + (texts.length - 1) := by
  induction texts with
  | nil => rfl
  | cons first rest ih =>
    cases rest with
    | nil => simp [List.intercalate]
    | cons second others =>
      have apart : ([44].intercalate (first :: second :: others) : Units) =
          first ++ 44 :: [44].intercalate (second :: others) := by
        simp [List.intercalate]
      rw [apart, List.length_append, List.length_cons, ih]
      simp only [List.map_cons, List.sum_cons, List.length_cons]
      omega

theorem length_bracketed (texts : List Units) :
    (bracketed texts).length = (texts.map List.length).sum + (texts.length - 1) + 2 := by
  simp only [bracketed, List.length_append, List.length_cons, List.length_nil, length_intercalate]

end Units

end NostrWot.Data
