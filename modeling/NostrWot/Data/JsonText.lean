import NostrWot.Data.Json
import NostrWot.Data.Value

namespace NostrWot.Data.Json

/-! # JSON text of flat objects

`JSON.stringify` of objects whose properties are scalars or arrays of scalars,
and that texts written one after the other read back in one way.
-/

/-! ## Scalars and arrays -/

inductive Scalar where
  | null
  | boolean (value : Bool)
  | number (value : Rat)
  | text (value : String)
  deriving DecidableEq

inductive Flat where
  | scalar (value : Scalar)
  | array (values : List Scalar)
  deriving DecidableEq

def isNumeric (char : Char) : Bool :=
  char.isDigit || char = '-' || char = '+' || char = '.' || char = 'e'

structure NumberText where
  digits : Rat → List Char
  injective : Function.Injective digits
  numeric : ∀ value, ∀ char ∈ digits value, isNumeric char = true
  begins : ∀ value, ∃ char rest, digits value = char :: rest ∧ (char.isDigit ∨ char = '-')

variable {numbers : NumberText}

def scalarText (numbers : NumberText) : Scalar → List Char
  | .null => ['n', 'u', 'l', 'l']
  | .boolean true => ['t', 'r', 'u', 'e']
  | .boolean false => ['f', 'a', 'l', 's', 'e']
  | .number value => numbers.digits value
  | .text value => quote value.toList

def flatText (numbers : NumberText) : Flat → List Char
  | .scalar value => scalarText numbers value
  | .array values => '[' :: [','].intercalate (values.map (scalarText numbers)) ++ [']']

def fieldText (numbers : NumberText) (field : String × Flat) : List Char :=
  quote field.1.toList ++ ':' :: flatText numbers field.2

/-- `JSON.stringify` of an object with these properties, in this order. -/
def objectText (numbers : NumberText) (fields : List (String × Flat)) : List Char :=
  '{' :: [','].intercalate (fields.map (fieldText numbers)) ++ ['}']

theorem numeric_reads {left right after rest : List Char} (delimits : Delimits after)
    (delimits' : Delimits rest) (plain : ∀ char ∈ left, isNumeric char = true)
    (plain' : ∀ char ∈ right, isNumeric char = true) (same : left ++ after = right ++ rest) :
    left = right ∧ after = rest := by
  have stops : ∀ (text tail : List Char) (char : Char), Delimits text →
      isNumeric char = true → text ≠ char :: tail := by
    intro text tail char delimits numeric equal
    have head := delimits char (by rw [equal]; rfl)
    rcases head with rfl | rfl | rfl <;> contradiction
  induction left generalizing right with
  | nil =>
    cases right with
    | nil => exact ⟨rfl, same⟩
    | cons char chars =>
      exact absurd same (stops after _ char delimits (plain' char List.mem_cons_self))
  | cons first firsts ih =>
    cases right with
    | nil =>
      exact absurd same.symm (stops rest _ first delimits' (plain first List.mem_cons_self))
    | cons char chars =>
      obtain ⟨head, tail⟩ := List.cons_eq_cons.mp same
      obtain ⟨others, after⟩ := ih (fun char member => plain char (List.mem_cons_of_mem _ member))
        (fun char member => plain' char (List.mem_cons_of_mem _ member)) tail
      exact ⟨by rw [head, others], after⟩

def Scalar.kind : Scalar → Nat
  | .null => 0
  | .boolean true => 1
  | .boolean false => 2
  | .text _ => 3
  | .number _ => 4

def scalarKind (char : Char) : Nat :=
  if char = 'n' then 0 else if char = 't' then 1 else if char = 'f' then 2
  else if char = '"' then 3 else 4

theorem scalarText_head (numbers : NumberText) (value : Scalar) :
    ∃ char rest, scalarText numbers value = char :: rest ∧ char ≠ ']' ∧ char ≠ '}' ∧ char ≠ '[' ∧
      scalarKind char = value.kind := by
  cases value with
  | null => exact ⟨_, _, rfl, by decide, by decide, by decide, rfl⟩
  | boolean value => cases value <;> exact ⟨_, _, rfl, by decide, by decide, by decide, rfl⟩
  | text value => exact ⟨_, _, rfl, by decide, by decide, by decide, rfl⟩
  | number value =>
    obtain ⟨char, rest, shape, begins⟩ := numbers.begins value
    refine ⟨char, rest, shape, ?_⟩
    rcases begins with digit | rfl
    · refine ⟨?_, ?_, ?_, ?_⟩
      · rintro rfl; contradiction
      · rintro rfl; contradiction
      · rintro rfl; contradiction
      · unfold scalarKind
        rw [if_neg, if_neg, if_neg, if_neg]
        · rfl
        all_goals rintro rfl; contradiction
    · exact ⟨by decide, by decide, by decide, rfl⟩

theorem scalarText_token (numbers : NumberText) : Token (scalarText numbers) where
  opens := fun value => by
    obtain ⟨char, rest, shape, notBracket, notBrace, -⟩ := scalarText_head numbers value
    exact ⟨char, rest, shape, notBracket, notBrace⟩
  reads := by
    intro left right after rest delimits delimits' same
    have kinds : left.kind = right.kind := by
      obtain ⟨char, tail, shape, -, -, -, kind⟩ := scalarText_head numbers left
      obtain ⟨char', tail', shape', -, -, -, kind'⟩ := scalarText_head numbers right
      rw [shape, shape', List.cons_append, List.cons_append] at same
      rw [← kind, ← kind', (List.cons_eq_cons.mp same).1]
    cases left with
    | null =>
      cases right with
      | null => exact ⟨rfl, List.append_cancel_left same⟩
      | boolean flag => cases flag <;> exact absurd kinds (by simp [Scalar.kind])
      | number value => exact absurd kinds (by simp [Scalar.kind])
      | text value => exact absurd kinds (by simp [Scalar.kind])
    | boolean flag =>
      cases right with
      | boolean flag' =>
        have flags : flag = flag' := by
          cases flag <;> cases flag' <;> first | rfl | exact absurd kinds (by simp [Scalar.kind])
        subst flags
        exact ⟨rfl, List.append_cancel_left same⟩
      | null => cases flag <;> exact absurd kinds (by simp [Scalar.kind])
      | number value => cases flag <;> exact absurd kinds (by simp [Scalar.kind])
      | text value => cases flag <;> exact absurd kinds (by simp [Scalar.kind])
    | number value =>
      cases right with
      | number value' =>
        obtain ⟨texts, rests⟩ := numeric_reads delimits delimits' (numbers.numeric value)
          (numbers.numeric value') same
        exact ⟨congrArg Scalar.number (numbers.injective texts), rests⟩
      | null => exact absurd kinds (by simp [Scalar.kind])
      | boolean flag => cases flag <;> exact absurd kinds (by simp [Scalar.kind])
      | text text => exact absurd kinds (by simp [Scalar.kind])
    | text text =>
      cases right with
      | text text' =>
        obtain ⟨texts, rests⟩ := quote_injective same
        exact ⟨congrArg Scalar.text (String.toList_injective texts), rests⟩
      | null => exact absurd kinds (by simp [Scalar.kind])
      | boolean flag => cases flag <;> exact absurd kinds (by simp [Scalar.kind])
      | number value => exact absurd kinds (by simp [Scalar.kind])

theorem flatText_reads {left right : Flat} {after rest : List Char} (delimits : Delimits after)
    (delimits' : Delimits rest)
    (same : flatText numbers left ++ after = flatText numbers right ++ rest) :
    left = right ∧ after = rest := by
  have mixed : ∀ (value : Scalar) (values : List Scalar) (after rest : List Char),
      flatText numbers (.scalar value) ++ after ≠ flatText numbers (.array values) ++ rest := by
    intro value values after rest equal
    obtain ⟨char, tail, shape, -, -, notArray, -⟩ := scalarText_head numbers value
    rw [flatText, shape] at equal
    exact notArray (List.cons_eq_cons.mp equal).1
  cases left with
  | scalar value =>
    cases right with
    | scalar value' =>
      obtain ⟨values, rests⟩ := (scalarText_token numbers).reads delimits delimits' same
      exact ⟨congrArg Flat.scalar values, rests⟩
    | array values => exact absurd same (mixed value values after rest)
  | array values =>
    cases right with
    | scalar value => exact absurd same.symm (mixed value values rest after)
    | array values' =>
      unfold flatText at same
      simp only [List.cons_append, List.append_assoc, List.cons.injEq, true_and,
        List.nil_append] at same
      obtain ⟨lists, rests⟩ := (scalarText_token numbers).intercalate (.inl rfl) same
      exact ⟨congrArg Flat.array lists, rests⟩

theorem fieldText_token (numbers : NumberText) : Token (fieldText numbers) where
  opens := fun field => ⟨'"', _, rfl, by decide, by decide⟩
  reads := by
    intro left right after rest delimits delimits' same
    unfold fieldText at same
    rw [List.append_assoc, List.append_assoc] at same
    obtain ⟨names, values⟩ := quote_injective same
    obtain ⟨flats, rests⟩ := flatText_reads delimits delimits' (List.cons_eq_cons.mp values).2
    exact ⟨Prod.ext (String.toList_injective names) flats, rests⟩

theorem objectText_reads {left right : List (String × Flat)} {after rest : List Char}
    (same : objectText numbers left ++ after = objectText numbers right ++ rest) :
    left = right ∧ after = rest := by
  unfold objectText at same
  simp only [List.cons_append, List.append_assoc, List.cons.injEq, true_and,
    List.nil_append] at same
  exact (fieldText_token numbers).intercalate (.inr rfl) same

theorem objectTexts_injective {left right : List (List (String × Flat))}
    (same : left.flatMap (objectText numbers) = right.flatMap (objectText numbers)) :
    left = right := by
  induction left generalizing right with
  | nil =>
    cases right with
    | nil => rfl
    | cons fields others => simp [objectText] at same
  | cons first firsts ih =>
    cases right with
    | nil => simp [objectText] at same
    | cons fields others =>
      rw [List.flatMap_cons, List.flatMap_cons] at same
      obtain ⟨here, tail⟩ := objectText_reads same
      rw [here, ih tail]

/-! ## A plain text of numbers -/

def integerDigits : Int → List Char
  | .ofNat value => Nat.toDigits 10 value
  | .negSucc value => '-' :: Nat.toDigits 10 (value + 1)

/-- Integers as JavaScript writes the small ones; fractions apart from them. -/
def fractionDigits (value : Rat) : List Char :=
  integerDigits value.num ++ if value.den = 1 then [] else 'e' :: Nat.toDigits 10 value.den

theorem toDigits_injective {left right : Nat} (same : Nat.toDigits 10 left = Nat.toDigits 10 right) :
    left = right := by
  rw [← @Nat.ofDigitChars_ten_toDigits left, same, Nat.ofDigitChars_ten_toDigits]

theorem isDigit_toDigits_ten {value : Nat} {char : Char} (member : char ∈ Nat.toDigits 10 value) :
    char.isDigit = true :=
  Nat.isDigit_of_mem_toDigits (by decide) (by decide) member

theorem integerDigits_numeric {value : Int} {char : Char} (member : char ∈ integerDigits value) :
    char.isDigit = true ∨ char = '-' := by
  cases value with
  | ofNat value => exact .inl (isDigit_toDigits_ten member)
  | negSucc value =>
    rcases List.mem_cons.mp member with rfl | digit
    · exact .inr rfl
    · exact .inl (isDigit_toDigits_ten digit)

theorem integerDigits_injective {left right : Int}
    (same : integerDigits left = integerDigits right) : left = right := by
  have mixed : ∀ value other : Nat, Nat.toDigits 10 value ≠ '-' :: Nat.toDigits 10 other := by
    intro value other equal
    have member : '-' ∈ Nat.toDigits 10 value := by
      rw [equal]
      exact List.mem_cons_self
    exact absurd (isDigit_toDigits_ten member) (by decide)
  cases left with
  | ofNat value =>
    cases right with
    | ofNat other => exact congrArg Int.ofNat (toDigits_injective same)
    | negSucc other => exact absurd same (mixed value _)
  | negSucc value =>
    cases right with
    | ofNat other => exact absurd same.symm (mixed other _)
    | negSucc other =>
      have digits := toDigits_injective (List.cons_eq_cons.mp same).2
      exact congrArg Int.negSucc (Nat.succ.inj digits)

def plainNumbers : NumberText where
  digits := fractionDigits
  injective := by
    intro left right same
    have plain : ∀ value : Rat, (fractionDigits value).takeWhile (· ≠ 'e') =
        integerDigits value.num := by
      intro value
      have letters : ∀ char ∈ integerDigits value.num, decide (char ≠ 'e') = true := by
        intro char member
        rw [decide_eq_true_eq]
        rintro rfl
        exact absurd (integerDigits_numeric member) (by decide)
      unfold fractionDigits
      rw [List.takeWhile_append_of_pos letters]
      split <;> simp
    have nums : left.num = right.num := by
      refine integerDigits_injective ?_
      rw [← plain, ← plain, same]
    have dens : left.den = right.den := by
      unfold fractionDigits at same
      rw [nums, List.append_cancel_left_eq] at same
      split at same <;> split at same
      · next whole whole' => rw [whole, whole']
      · contradiction
      · contradiction
      · exact toDigits_injective (List.cons_eq_cons.mp same).2
    exact Rat.ext nums dens
  numeric := by
    intro value char member
    unfold fractionDigits at member
    have shape : char.isDigit = true ∨ char = '-' ∨ char = 'e' := by
      rcases List.mem_append.mp member with number | fraction
      · rcases integerDigits_numeric number with digit | dash
        · exact .inl digit
        · exact .inr (.inl dash)
      · split at fraction
        · contradiction
        · rcases List.mem_cons.mp fraction with letter | digit
          · exact .inr (.inr letter)
          · exact .inl (isDigit_toDigits_ten digit)
    unfold isNumeric
    rcases shape with digit | rfl | rfl
    · simp [digit]
    · decide
    · decide
  begins := by
    intro value
    unfold fractionDigits
    cases digits : integerDigits value.num with
    | nil =>
      have filled : integerDigits value.num ≠ [] := by
        cases value.num with
        | ofNat number => exact Nat.toDigits_ne_nil
        | negSucc number => exact List.cons_ne_nil _ _
      exact absurd digits filled
    | cons char rest =>
      exact ⟨char, _, rfl, integerDigits_numeric (by rw [digits]; exact List.mem_cons_self)⟩

end NostrWot.Data.Json
