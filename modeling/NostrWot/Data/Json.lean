import Mathlib.Data.List.Basic
import Mathlib.Tactic.SplitIfs

namespace NostrWot.Data.Json

/-! # JSON text of string arrays

`JSON.stringify` of an array of strings, and that two arrays never share a text.
-/

def hexDigit (value : Nat) : Char := ("0123456789abcdef".toList).getD value '0'

/-- One character inside a JSON string. -/
def escape (char : Char) : List Char :=
  if char = '"' then ['\\', '"']
  else if char = '\\' then ['\\', '\\']
  else if char = '\x08' then ['\\', 'b']
  else if char = '\x0c' then ['\\', 'f']
  else if char = '\n' then ['\\', 'n']
  else if char = '\r' then ['\\', 'r']
  else if char = '\t' then ['\\', 't']
  else if char.toNat < 32 then
    ['\\', 'u', '0', '0', hexDigit (char.toNat / 16), hexDigit (char.toNat % 16)]
  else [char]

def quote (text : List Char) : List Char := '"' :: text.flatMap escape ++ ['"']

def stringifyStrings (texts : List String) : String :=
  String.ofList ('[' :: ([','].intercalate (texts.map fun text => quote text.toList)) ++ [']'])

/-! ## Reading back -/

def hexValue (char : Char) : Nat := ("0123456789abcdef".toList).idxOf char

/-- The character an escaped text begins with, and what follows it. -/
def unescape : List Char → Option (Char × List Char)
  | '\\' :: 'u' :: '0' :: '0' :: high :: low :: rest =>
    some (Char.ofNat (hexValue high * 16 + hexValue low), rest)
  | '\\' :: 'b' :: rest => some ('\x08', rest)
  | '\\' :: 'f' :: rest => some ('\x0c', rest)
  | '\\' :: 'n' :: rest => some ('\n', rest)
  | '\\' :: 'r' :: rest => some ('\r', rest)
  | '\\' :: 't' :: rest => some ('\t', rest)
  | '\\' :: char :: rest => some (char, rest)
  | char :: rest => some (char, rest)
  | [] => none

theorem hexValue_hexDigit : ∀ value < 16, hexValue (hexDigit value) = value := by decide

theorem unescape_escape (char : Char) (rest : List Char) :
    unescape (escape char ++ rest) = some (char, rest) := by
  unfold escape
  split_ifs with quoted slash back feed line carriage tab control
  · rw [quoted]; rfl
  · rw [slash]; rfl
  · rw [back]; rfl
  · rw [feed]; rfl
  · rw [line]; rfl
  · rw [carriage]; rfl
  · rw [tab]; rfl
  · show some (Char.ofNat (hexValue (hexDigit (char.toNat / 16)) * 16 +
      hexValue (hexDigit (char.toNat % 16))), rest) = some (char, rest)
    rw [hexValue_hexDigit _ (by omega), hexValue_hexDigit _ (by omega), Nat.div_add_mod',
      Char.ofNat_toNat]
  · simp only [List.cons_append, List.nil_append]
    unfold unescape
    split <;> simp_all

theorem escape_ne_quote (char : Char) (rest tail : List Char) :
    escape char ++ rest ≠ '"' :: tail := by
  intro same
  have read := unescape_escape char rest
  rw [same] at read
  have here : char = '"' := (congrArg Prod.fst (Option.some.inj read)).symm
  rw [here] at same
  simp [escape] at same

theorem flatMap_escape_injective {left right : List Char} {after rest : List Char}
    (same : left.flatMap escape ++ '"' :: after = right.flatMap escape ++ '"' :: rest) :
    left = right ∧ after = rest := by
  induction left generalizing right with
  | nil =>
    cases right with
    | nil => exact ⟨rfl, List.cons_injective same⟩
    | cons char chars =>
      rw [List.flatMap_cons, List.append_assoc] at same
      exact absurd same.symm (escape_ne_quote char _ _)
  | cons first firsts ih =>
    cases right with
    | nil =>
      rw [List.flatMap_cons, List.append_assoc] at same
      exact absurd same (escape_ne_quote first _ _)
    | cons char chars =>
      rw [List.flatMap_cons, List.append_assoc, List.flatMap_cons, List.append_assoc] at same
      have read := congrArg unescape same
      rw [unescape_escape, unescape_escape, Option.some.injEq, Prod.mk.injEq] at read
      obtain ⟨rest, tail⟩ := ih read.2
      exact ⟨by rw [read.1, rest], tail⟩

theorem quote_injective {left right : List Char} {after rest : List Char}
    (same : quote left ++ after = quote right ++ rest) : left = right ∧ after = rest := by
  unfold quote at same
  simp only [List.cons_append, List.append_assoc, List.nil_append, List.cons.injEq, true_and] at same
  exact flatMap_escape_injective same

/-! ## Values between delimiters -/

section Token

variable {α : Type}

/-- What follows a value inside an array or an object. -/
def Delimits (text : List Char) : Prop :=
  ∀ char ∈ text.head?, char = ',' ∨ char = ']' ∨ char = '}'

structure Token (encode : α → List Char) : Prop where
  opens : ∀ value, ∃ char rest, encode value = char :: rest ∧ char ≠ ']' ∧ char ≠ '}'
  reads : ∀ {left right : α} {after rest : List Char}, Delimits after → Delimits rest →
    encode left ++ after = encode right ++ rest → left = right ∧ after = rest

variable {encode : α → List Char}

theorem delimits_close {close : Char} (closing : close = ']' ∨ close = '}') (rest : List Char) :
    Delimits (close :: rest) := by
  intro char head
  rw [List.head?_cons, Option.mem_some_iff] at head
  exact .inr (head ▸ closing)

theorem intercalate_cons (first : List Char) (others : List (List Char)) (rest : List Char) :
    [','].intercalate (first :: others) ++ rest =
      first ++ (if others = [] then rest else ',' :: ([','].intercalate others ++ rest)) := by
  cases others with
  | nil => simp [List.intercalate]
  | cons next others => simp [List.intercalate]

theorem intercalate_reads {close : Char} (closing : close = ']' ∨ close = '}')
    (opens : ∀ value, ∃ char rest, encode value = char :: rest ∧ char ≠ ']' ∧ char ≠ '}')
    {left right : List α} (reads : ∀ value ∈ left, ∀ (other : α) (after rest : List Char),
      Delimits after → Delimits rest → encode value ++ after = encode other ++ rest →
        value = other ∧ after = rest)
    {after rest : List Char}
    (same : [','].intercalate (left.map encode) ++ close :: after =
      [','].intercalate (right.map encode) ++ close :: rest) : left = right ∧ after = rest := by
  have follows : ∀ (values : List α) (rest : List Char), Delimits
      (if values.map encode = [] then close :: rest
      else ',' :: ([','].intercalate (values.map encode) ++ close :: rest)) := by
    intro values rest
    split
    · exact delimits_close closing rest
    · intro char head
      rw [List.head?_cons, Option.mem_some_iff] at head
      exact .inl head.symm
  have ends : ∀ (value : α) (values : List α) (after rest : List Char),
      close :: after ≠ [','].intercalate ((value :: values).map encode) ++ close :: rest := by
    intro value values after rest equal
    obtain ⟨char, tail, opened, notBracket, notBrace⟩ := opens value
    rw [List.map_cons, intercalate_cons, opened, List.cons_append] at equal
    have head : close = char := (List.cons_eq_cons.mp equal).1
    rcases closing with rfl | rfl
    · exact notBracket head.symm
    · exact notBrace head.symm
  induction left generalizing right with
  | nil =>
    cases right with
    | nil => exact ⟨rfl, (List.cons_eq_cons.mp same).2⟩
    | cons value values => exact absurd same (ends value values after rest)
  | cons first firsts ih =>
    cases right with
    | nil => exact absurd same.symm (ends first firsts rest after)
    | cons value values =>
      rw [List.map_cons, List.map_cons, intercalate_cons, intercalate_cons] at same
      obtain ⟨here, others⟩ := reads first List.mem_cons_self value _ _ (follows firsts after)
        (follows values rest) same
      have tail : firsts = values ∧ after = rest := by
        cases firsts with
        | nil =>
          cases values with
          | nil => exact ⟨rfl, (List.cons_eq_cons.mp others).2⟩
          | cons second others' =>
            have head := (List.cons_eq_cons.mp others).1
            rcases closing with rfl | rfl <;> exact absurd head (by decide)
        | cons second seconds =>
          cases values with
          | nil =>
            have head := (List.cons_eq_cons.mp others).1
            rcases closing with rfl | rfl <;> exact absurd head (by decide)
          | cons third thirds =>
            exact ih (fun value member => reads value (List.mem_cons_of_mem _ member))
              (List.cons_eq_cons.mp others).2
      exact ⟨by rw [here, tail.1], tail.2⟩

theorem Token.intercalate (token : Token encode) {close : Char} (closing : close = ']' ∨ close = '}')
    {left right : List α} {after rest : List Char}
    (same : [','].intercalate (left.map encode) ++ close :: after =
      [','].intercalate (right.map encode) ++ close :: rest) : left = right ∧ after = rest :=
  intercalate_reads closing token.opens (fun _ _ _ _ _ => token.reads) same

end Token

end NostrWot.Data.Json
