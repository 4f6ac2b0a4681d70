import Mathlib.Data.List.Basic

namespace NostrWot.Data.Base64

/-! # Base64

`btoa` and `atob` over bytes.
-/

def digit (value : Nat) : Char :=
  if value < 26 then Char.ofNat (65 + value)
  else if value < 52 then Char.ofNat (71 + value)
  else if value < 62 then Char.ofNat (value - 4)
  else if value = 62 then '+'
  else '/'

def value (digit : Char) : Option Nat :=
  let code := digit.toNat
  if 65 ≤ code ∧ code ≤ 90 then some (code - 65)
  else if 97 ≤ code ∧ code ≤ 122 then some (code - 71)
  else if 48 ≤ code ∧ code ≤ 57 then some (code + 4)
  else if digit = '+' then some 62
  else if digit = '/' then some 63
  else none

/-- The bytes in groups of six bits. -/
def sextets : List UInt8 → List Nat
  | [] => []
  | [first] => [first.toNat / 4, first.toNat % 4 * 16]
  | [first, second] =>
    [first.toNat / 4, first.toNat % 4 * 16 + second.toNat / 16, second.toNat % 16 * 4]
  | first :: second :: third :: rest =>
    first.toNat / 4 :: (first.toNat % 4 * 16 + second.toNat / 16) ::
      (second.toNat % 16 * 4 + third.toNat / 64) :: third.toNat % 64 :: sextets rest

/-- What fills the last group up. -/
def padding (bytes : List UInt8) : List Char :=
  if bytes.length % 3 = 1 then ['=', '='] else if bytes.length % 3 = 2 then ['='] else []

def btoa (bytes : List UInt8) : List Char := (sextets bytes).map digit ++ padding bytes

/-- The bytes of groups of six bits; what is left over of the last group is dropped. -/
def octets : List Nat → Option (List UInt8)
  | [] => some []
  | [_] => none
  | [first, second] => some [UInt8.ofNat (first * 4 + second / 16)]
  | [first, second, third] =>
    some [UInt8.ofNat (first * 4 + second / 16), UInt8.ofNat (second % 16 * 16 + third / 4)]
  | first :: second :: third :: fourth :: rest =>
    (octets rest).map fun bytes =>
      UInt8.ofNat (first * 4 + second / 16) :: UInt8.ofNat (second % 16 * 16 + third / 4) ::
        UInt8.ofNat (third % 4 * 64 + fourth) :: bytes

def isSpace (char : Char) : Bool := char.toNat ∈ [9, 10, 12, 13, 32]

/-- One or two `=` at the end of whole groups are padding. -/
def unpadded (text : List Char) : List Char :=
  if text.length % 4 = 0 then
    match text.reverse with
    | '=' :: '=' :: rest => rest.reverse
    | '=' :: rest => rest.reverse
    | _ => text
  else text

/-- `none` is an `InvalidCharacterError`. -/
def atob (text : List Char) : Option (List UInt8) :=
  (unpadded (text.filter fun char => !isSpace char)).mapM value >>= octets

theorem value_digit {number : Nat} (small : number < 64) : value (digit number) = some number := by
  have every : ∀ number : Fin 64, value (digit number) = some number.val := by decide
  exact every ⟨number, small⟩

theorem digit_plain {number : Nat} (small : number < 64) :
    digit number ≠ '=' ∧ isSpace (digit number) = false := by
  have every : ∀ number : Fin 64, digit number ≠ '=' ∧ isSpace (digit number) = false := by decide
  exact every ⟨number, small⟩

variable (bytes : List UInt8)

theorem sextets_small : ∀ number ∈ sextets bytes, number < 64 := by
  induction bytes using sextets.induct with
  | case1 => simp [sextets]
  | case2 first =>
    have below := first.toNat_lt
    simp only [sextets, List.mem_cons, List.not_mem_nil, or_false]
    rintro number (rfl | rfl) <;> omega
  | case3 first second =>
    have below := first.toNat_lt
    have under := second.toNat_lt
    simp only [sextets, List.mem_cons, List.not_mem_nil, or_false]
    rintro number (rfl | rfl | rfl) <;> omega
  | case4 first second third rest ih =>
    have below := first.toNat_lt
    have under := second.toNat_lt
    have beneath := third.toNat_lt
    simp only [sextets, List.mem_cons]
    rintro number (rfl | rfl | rfl | rfl | later)
    · omega
    · omega
    · omega
    · omega
    · exact ih number later

theorem octets_sextets : octets (sextets bytes) = some bytes := by
  have same : ∀ (byte : UInt8) (number : Nat), number = byte.toNat → UInt8.ofNat number = byte := by
    intro byte number is
    rw [is, UInt8.ofNat_toNat]
  induction bytes using sextets.induct with
  | case1 => rfl
  | case2 first =>
    have below := first.toNat_lt
    simp only [sextets, octets]
    rw [same first _ (by omega)]
  | case3 first second =>
    have below := first.toNat_lt
    have under := second.toNat_lt
    simp only [sextets, octets]
    rw [same first _ (by omega), same second _ (by omega)]
  | case4 first second third rest ih =>
    have below := first.toNat_lt
    have under := second.toNat_lt
    have beneath := third.toNat_lt
    simp only [sextets, octets, ih, Option.map_some]
    rw [same first _ (by omega), same second _ (by omega), same third _ (by omega)]

theorem length_btoa : (btoa bytes).length = (bytes.length + 2) / 3 * 4 := by
  rw [btoa, List.length_append, List.length_map]
  induction bytes using sextets.induct with
  | case1 => rfl
  | case2 first => simp [sextets, padding]
  | case3 first second => simp [sextets, padding]
  | case4 first second third rest ih =>
    have same : padding (first :: second :: third :: rest) = padding rest := by
      have length : (first :: second :: third :: rest).length % 3 = rest.length % 3 := by
        simp only [List.length_cons]
        omega
      unfold padding
      rw [length]
    rw [same]
    simp only [sextets, List.length_cons] at ih ⊢
    omega

theorem unpadded_btoa : unpadded (btoa bytes) = (sextets bytes).map digit := by
  have whole : (btoa bytes).length % 4 = 0 := by
    rw [length_btoa]
    omega
  have last : ∀ char rest, ((sextets bytes).map digit).reverse = char :: rest → char ≠ '=' := by
    intro char rest is
    have member : char ∈ ((sextets bytes).map digit).reverse := by
      rw [is]
      exact List.mem_cons_self
    obtain ⟨number, among, made⟩ := List.mem_map.mp (List.mem_reverse.mp member)
    rw [← made]
    exact (digit_plain (sextets_small bytes number among)).1
  have reversed : (btoa bytes).reverse =
      (padding bytes).reverse ++ ((sextets bytes).map digit).reverse := List.reverse_append
  unfold unpadded
  rw [if_pos whole, reversed]
  have shapes : padding bytes = ['=', '='] ∨ padding bytes = ['='] ∨ padding bytes = [] := by
    unfold padding
    split
    · exact .inl rfl
    · split
      · exact .inr (.inl rfl)
      · exact .inr (.inr rfl)
  rcases shapes with two | one | none
  · rw [two]
    simp
  · rw [one]
    cases front : ((sextets bytes).map digit).reverse with
    | nil =>
      have empty := List.reverse_eq_nil_iff.mp front
      rw [empty]
      rfl
    | cons char rest =>
      have plain := last char rest front
      have back := congrArg List.reverse front
      rw [List.reverse_reverse] at back
      rw [back]
      simp [plain]
  · have same : btoa bytes = (sextets bytes).map digit := by
      unfold btoa
      rw [none, List.append_nil]
    rw [none, same]
    cases front : ((sextets bytes).map digit).reverse with
    | nil => simp
    | cons char rest =>
      have plain := last char rest front
      simp [plain]

theorem mapM_value {numbers : List Nat} (small : ∀ number ∈ numbers, number < 64) :
    (numbers.map digit).mapM value = some numbers := by
  induction numbers with
  | nil => rfl
  | cons number rest ih =>
    have later := ih fun other member => small other (List.mem_cons_of_mem _ member)
    rw [List.map_cons, List.mapM_cons, later, value_digit (small number List.mem_cons_self)]
    rfl

variable {bytes} in
/-- What holds of the alphabet and of the filling holds of every character. -/
theorem of_mem_btoa {holds : Char → Prop} (digits : ∀ number : Fin 64, holds (digit number))
    (fills : holds '=') {char : Char} (member : char ∈ btoa bytes) : holds char := by
  rcases List.mem_append.mp member with inside | padded
  · obtain ⟨number, among, made⟩ := List.mem_map.mp inside
    exact made ▸ digits ⟨number, sextets_small bytes number among⟩
  · have equals : char = '=' := by
      unfold padding at padded
      split at padded
      · simpa using padded
      · split at padded
        · simpa using padded
        · contradiction
    exact equals ▸ fills

theorem unspaced_of_mem_btoa {bytes : List UInt8} {char : Char} (member : char ∈ btoa bytes) :
    isSpace char = false :=
  @of_mem_btoa bytes (isSpace · = false) (fun number => (digit_plain number.isLt).2) rfl _ member

theorem atob_btoa : atob (btoa bytes) = some bytes := by
  have plain : (btoa bytes).filter (fun char => !isSpace char) = btoa bytes := by
    rw [List.filter_eq_self]
    intro char member
    rw [unspaced_of_mem_btoa member]
    rfl
  unfold atob
  rw [plain, unpadded_btoa, mapM_value (sextets_small bytes)]
  exact octets_sextets bytes

theorem small_of_mem_btoa {bytes : List UInt8} {char : Char} (member : char ∈ btoa bytes) :
    char.toNat < 128 :=
  @of_mem_btoa bytes (·.toNat < 128) (by decide) (by decide) _ member

theorem ne_dot_of_mem_btoa {bytes : List UInt8} {char : Char} (member : char ∈ btoa bytes) :
    char ≠ '.' :=
  @of_mem_btoa bytes (· ≠ '.') (by decide) (by decide) _ member

end NostrWot.Data.Base64
