import NostrWot.Data.JsonSyntax

namespace NostrWot.Data

/-! # JSON values

What `JSON.parse` makes of a text, and the text that `JSON.stringify` writes of a
value, which reads back as that value.
-/

/-- A JSON value; `ν` are the numbers. -/
inductive JsonValue (ν : Type) where
  | null
  | boolean (value : Bool)
  | number (value : ν)
  | text (value : Units)
  | array (items : List (JsonValue ν))
  | object (fields : List (Units × JsonValue ν))

namespace JsonValue

open JsonSyntax

structure NumberFormat (ν : Type) where
  digits : ν → Units
  read : Units → ν
  back : ∀ value, read (digits value) = value
  number : ∀ value, scanNumber (digits value) = some (digits value, [])

variable {ν : Type}

/-- `object[name] = value`, the place of a property being where it first came. -/
def setField (fields : List (Units × JsonValue ν)) (name : Units) (value : JsonValue ν) :
    List (Units × JsonValue ν) :=
  match fields with
  | [] => [(name, value)]
  | (other, before) :: rest =>
    if other = name then (name, value) :: rest else (other, before) :: setField rest name value

section Text

variable (numbers : NumberFormat ν)

mutual

/-- The value that a text says, the last of two properties of one name. -/
def ofNode : Node → JsonValue ν
  | .word token => if token = TRUE then .boolean true else if token = FALSE then .boolean false else .null
  | .number token => .number (numbers.read token)
  | .string _ value => .text value
  | .array items => .array (ofItems items)
  | .object members => .object (ofMembers members [])

def ofItems : List Node → List (JsonValue ν)
  | [] => []
  | item :: items => ofNode item :: ofItems items

def ofMembers : List ((Units × Units) × Node) → List (Units × JsonValue ν) →
    List (Units × JsonValue ν)
  | [], fields => fields
  | (name, node) :: members, fields => ofMembers members (setField fields name.2 (ofNode node))

end

mutual

def stringify : JsonValue ν → Units
  | .null => NULL
  | .boolean value => if value then TRUE else FALSE
  | .number value => numbers.digits value
  | .text value => Units.quote value
  | .array items => 91 :: (stringifyItems items ++ [93])
  | .object fields => 123 :: (stringifyFields fields ++ [125])

def stringifyItems : List (JsonValue ν) → Units
  | [] => []
  | item :: items => stringify item ++ stringifyMoreItems items

def stringifyMoreItems : List (JsonValue ν) → Units
  | [] => []
  | item :: items => 44 :: (stringify item ++ stringifyMoreItems items)

def stringifyFields : List (Units × JsonValue ν) → Units
  | [] => []
  | (name, value) :: fields =>
    Units.quote name ++ 58 :: (stringify value ++ stringifyMoreFields fields)

def stringifyMoreFields : List (Units × JsonValue ν) → Units
  | [] => []
  | (name, value) :: fields =>
    44 :: (Units.quote name ++ 58 :: (stringify value ++ stringifyMoreFields fields))

end

mutual

def toNode : JsonValue ν → Node
  | .null => .word NULL
  | .boolean value => .word (if value then TRUE else FALSE)
  | .number value => .number (numbers.digits value)
  | .text value => .string (Units.quote value) value
  | .array items => .array (toItems items)
  | .object fields => .object (toMembers fields)

def toItems : List (JsonValue ν) → List Node
  | [] => []
  | item :: items => toNode item :: toItems items

def toMembers : List (Units × JsonValue ν) → List ((Units × Units) × Node)
  | [] => []
  | (name, value) :: fields => ((Units.quote name, name), toNode value) :: toMembers fields

end

end Text

mutual

def Unique : JsonValue ν → Prop
  | .null | .boolean _ | .number _ | .text _ => True
  | .array items => UniqueItems items
  | .object fields => (fields.map Prod.fst).Nodup ∧ UniqueFields fields

def UniqueItems : List (JsonValue ν) → Prop
  | [] => True
  | item :: items => Unique item ∧ UniqueItems items

def UniqueFields : List (Units × JsonValue ν) → Prop
  | [] => True
  | (_, value) :: fields => Unique value ∧ UniqueFields fields

end

/-- A value as the language holds it. -/
structure Document (ν : Type) where
  value : JsonValue ν
  unique : Unique value

def field (value : JsonValue ν) (name : String) : Option (JsonValue ν) :=
  match value with
  | .object fields => (fields.find? fun field => field.1 = Units.ofString name).map Prod.snd
  | _ => none

def isObject : JsonValue ν → Bool
  | .object _ => true
  | _ => false

/-- A string that passes a test. -/
def isText (test : Units → Bool) : JsonValue ν → Bool
  | .text said => test said
  | _ => false

def isNumber (test : ν → Bool) : JsonValue ν → Bool
  | .number value => test value
  | _ => false

def isBoolean : JsonValue ν → Bool
  | .boolean _ => true
  | _ => false

def textField (value : JsonValue ν) (name : String) : Option Units :=
  match value.field name with
  | some (.text said) => some said
  | _ => none

def isTrue (value : JsonValue ν) (name : String) : Bool :=
  match value.field name with
  | some (.boolean value) => value
  | _ => false

def hasText (value : JsonValue ν) (name : String) (text : Units) : Bool :=
  (value.field name).any (isText fun other => other = text)

variable {fields : List (Units × JsonValue ν)}

theorem uniqueFields_mem (unique : UniqueFields fields) {field : Units × JsonValue ν}
    (among : field ∈ fields) : Unique field.2 := by
  induction fields with
  | nil => contradiction
  | cons first rest ih =>
    obtain ⟨name, value⟩ := first
    rcases List.mem_cons.mp among with rfl | later
    · exact unique.1
    · exact ih unique.2 later

theorem uniqueItems_mem {items : List (JsonValue ν)} (unique : UniqueItems items)
    {item : JsonValue ν} (among : item ∈ items) : Unique item := by
  induction items with
  | nil => contradiction
  | cons first rest ih =>
    rcases List.mem_cons.mp among with rfl | later
    · exact unique.1
    · exact ih unique.2 later

theorem uniqueItems_of_mem {items : List (JsonValue ν)} (unique : ∀ item ∈ items, Unique item) :
    UniqueItems items := by
  induction items with
  | nil => trivial
  | cons first rest ih =>
    obtain ⟨here, later⟩ := List.forall_mem_cons.mp unique
    exact ⟨here, ih later⟩

theorem unique_field {value inside : JsonValue ν} {name : String} (unique : Unique value)
    (found : value.field name = some inside) : Unique inside := by
  cases value with
  | object fields =>
    obtain ⟨field, first, rfl⟩ := Option.map_eq_some_iff.mp found
    exact uniqueFields_mem unique.2 (List.mem_of_find?_eq_some first)
  | _ => contradiction

theorem find_mem (apart : (fields.map Prod.fst).Nodup) {name : Units} {value : JsonValue ν}
    (among : (name, value) ∈ fields) :
    fields.find? (fun field => field.1 = name) = some (name, value) := by
  induction fields with
  | nil => contradiction
  | cons field rest ih =>
    obtain ⟨other, before⟩ := field
    rw [List.map_cons, List.nodup_cons] at apart
    rcases List.mem_cons.mp among with same | later
    · cases same
      exact List.find?_cons_of_pos (by simp)
    · have different : other ≠ name := by
        rintro rfl
        exact apart.1 (List.mem_map.mpr ⟨_, later, rfl⟩)
      rw [List.find?_cons_of_neg (by simpa using different)]
      exact ih apart.2 later

theorem setField_names (fields : List (Units × JsonValue ν)) (name : Units) (value : JsonValue ν) :
    (setField fields name value).map Prod.fst =
      if name ∈ fields.map Prod.fst then fields.map Prod.fst else fields.map Prod.fst ++ [name] := by
  induction fields with
  | nil => rfl
  | cons field rest ih =>
    obtain ⟨other, before⟩ := field
    rw [setField]
    split
    · next same => simp [same]
    · next different =>
      have other_ : name ≠ other := fun same => different same.symm
      rw [List.map_cons, ih]
      by_cases among : name ∈ rest.map Prod.fst
      · rw [if_pos among]
        exact (if_pos (List.mem_cons_of_mem _ among)).symm
      · rw [if_neg among]
        exact (if_neg (List.not_mem_cons_of_ne_of_not_mem other_ among)).symm

theorem setField_nodup (apart : (fields.map Prod.fst).Nodup) (name : Units) (value : JsonValue ν) :
    ((setField fields name value).map Prod.fst).Nodup := by
  rw [setField_names]
  split
  · exact apart
  · next fresh =>
    rw [List.nodup_append]
    refine ⟨apart, by simp, ?_⟩
    intro one among other same
    rw [List.mem_singleton.mp same]
    rintro rfl
    exact fresh among

theorem setField_unique (unique : UniqueFields fields) (name : Units) {value : JsonValue ν}
    (inside : Unique value) :
    UniqueFields (setField fields name value) := by
  induction fields with
  | nil => exact ⟨inside, trivial⟩
  | cons field rest ih =>
    obtain ⟨other, before⟩ := field
    obtain ⟨first, later⟩ := unique
    rw [setField]
    split
    · exact ⟨inside, later⟩
    · exact ⟨first, ih later⟩

mutual

theorem unique_ofNode (numbers : NumberFormat ν) (node : Node) : Unique (ofNode numbers node) := by
  cases node with
  | word token =>
    rw [ofNode]
    split
    · trivial
    · split <;> trivial
  | number token => trivial
  | string token value => trivial
  | array items => exact unique_ofItems numbers items
  | object members => exact unique_ofMembers numbers members [] List.nodup_nil trivial

theorem unique_ofItems (numbers : NumberFormat ν) (items : List Node) :
    UniqueItems (ofItems numbers items) := by
  cases items with
  | nil => trivial
  | cons item items => exact ⟨unique_ofNode numbers item, unique_ofItems numbers items⟩

theorem unique_ofMembers (numbers : NumberFormat ν) (members : List ((Units × Units) × Node))
    (fields : List (Units × JsonValue ν)) (apart : (fields.map Prod.fst).Nodup)
    (unique : UniqueFields fields) : Unique (.object (ofMembers numbers members fields)) := by
  cases members with
  | nil => exact ⟨apart, unique⟩
  | cons member members =>
    obtain ⟨name, node⟩ := member
    exact unique_ofMembers numbers members _ (setField_nodup apart _ _)
      (setField_unique unique _ (unique_ofNode numbers node))

end

/-- `JSON.parse(text)`; `none` is a `SyntaxError`. -/
def parse (numbers : NumberFormat ν) (text : Units) : Option (Document ν) :=
  (parseText text).map fun node => ⟨ofNode numbers node, unique_ofNode numbers node⟩

/-! ## Strings -/

section Strings

variable {rest : Units}

theorem scanString_plain {unit : UInt16} {text token value after : Units} (open_ : unit ≠ 34)
    (plain : unit ≠ 92) (printed : ¬ unit < 32)
    (scanned : scanString text = some (token, value, after)) :
    scanString (unit :: text) = some (unit :: token, unit :: value, after) := by
  unfold scanString
  rw [if_neg open_, if_neg plain, if_neg printed, scanned]

theorem scanString_simple {escaped unit : UInt16} {text token value after : Units}
    (simple : simpleEscape escaped = some unit)
    (scanned : scanString text = some (token, value, after)) :
    scanString (92 :: escaped :: text) = some (92 :: escaped :: token, unit :: value, after) := by
  have other : escaped ≠ 117 := by
    rintro rfl
    contradiction
  unfold scanString
  rw [if_neg (by decide), if_pos rfl]
  dsimp only
  rw [if_neg other, simple, scanned]

theorem hexValue_hexUnit {digit : Nat} (small : digit < 16) :
    hexValue (Units.hexUnit digit) = some digit := by
  have every : ∀ digit < 16, hexValue (Units.hexUnit digit) = some digit := by decide
  exact every digit small

theorem scanString_unicode (unit : UInt16) {text token value after : Units}
    (scanned : scanString text = some (token, value, after)) :
    scanString (Units.unicodeEscape unit ++ text) =
      some (Units.unicodeEscape unit ++ token, unit :: value, after) := by
  have below := unit.toNat_lt
  have read : unitOf (Units.hexUnit (unit.toNat / 4096)) (Units.hexUnit (unit.toNat / 256 % 16))
      (Units.hexUnit (unit.toNat / 16 % 16)) (Units.hexUnit (unit.toNat % 16)) = some unit := by
    rw [unitOf, hexValue_hexUnit (by omega), hexValue_hexUnit (by omega),
      hexValue_hexUnit (by omega), hexValue_hexUnit (by omega)]
    have whole : unit.toNat / 4096 * 4096 + unit.toNat / 256 % 16 * 256 + unit.toNat / 16 % 16 * 16 +
        unit.toNat % 16 = unit.toNat := by
      omega
    simp only [Option.bind_eq_bind, Option.bind_some, whole, UInt16.ofNat_toNat]
    rfl
  simp only [Units.unicodeEscape, List.cons_append, List.nil_append]
  rw [scanString, if_neg (by decide), if_pos rfl, if_pos rfl, read, scanned]

theorem scanString_escapeUnit (unit : UInt16) {text token value after : Units}
    (scanned : scanString text = some (token, value, after)) :
    scanString (Units.escapeUnit unit ++ text) =
      some (Units.escapeUnit unit ++ token, unit :: value, after) := by
  unfold Units.escapeUnit
  split_ifs with quote slash back feed line carriage tab control
  · rw [quote]
    exact scanString_simple rfl scanned
  · rw [slash]
    exact scanString_simple rfl scanned
  · rw [back]
    exact scanString_simple rfl scanned
  · rw [feed]
    exact scanString_simple rfl scanned
  · rw [line]
    exact scanString_simple rfl scanned
  · rw [carriage]
    exact scanString_simple rfl scanned
  · rw [tab]
    exact scanString_simple rfl scanned
  · exact scanString_unicode unit scanned
  · have printed : ¬ unit < 32 := by
      intro low
      exact control (by simp [low])
    exact scanString_plain quote slash printed scanned

theorem surrogate_plain {unit : UInt16} (surrogate : Units.isSurrogate unit = true) :
    unit ≠ 34 ∧ unit ≠ 92 ∧ ¬ unit < 32 := by
  have range := Units.isSurrogate_iff.mp surrogate
  refine ⟨?_, ?_, ?_⟩
  · rintro rfl
    exact absurd range (by decide)
  · rintro rfl
    exact absurd range (by decide)
  · rw [UInt16.lt_iff_toNat_lt]
    change ¬ unit.toNat < 32
    omega

theorem scanString_escape (text rest : Units) :
    scanString (Units.escape text ++ 34 :: rest) = some (Units.escape text ++ [34], text, rest) := by
  have closes : scanString (34 :: rest) = some ([34], [], rest) := by
    unfold scanString
    exact if_pos rfl
  fun_induction Units.escape text with
  | case1 => exact closes
  | case2 unit => simpa using scanString_escapeUnit unit closes
  | case3 unit next after paired ih =>
    obtain ⟨high, low⟩ := (Bool.and_eq_true _ _).mp paired
    obtain ⟨open₁, plain₁, printed₁⟩ :=
      @surrogate_plain unit (by simp [Units.isSurrogate, high])
    obtain ⟨open₂, plain₂, printed₂⟩ := @surrogate_plain next (by simp [Units.isSurrogate, low])
    exact scanString_plain open₁ plain₁ printed₁ (scanString_plain open₂ plain₂ printed₂ ih)
  | case4 unit next after alone ih =>
    rw [List.append_assoc, List.append_assoc]
    exact scanString_escapeUnit unit ih

end Strings

/-! ## Numbers and words -/

/-- What may follow a value inside a text: nothing, or the end of an item. -/
def Delimited (rest : Units) : Prop := ∀ unit ∈ rest.head?, unit = 44 ∨ unit = 93 ∨ unit = 125

section Scalars

variable {text token after rest : Units}

theorem Delimited.head (delimited : Delimited rest) {unit : UInt16} {more : Units}
    (begins : rest = unit :: more) : isDigit unit = false ∧ unit ≠ 46 ∧ unit ≠ 43 ∧ unit ≠ 45 ∧
      unit ≠ 101 ∧ unit ≠ 69 := by
  have among := delimited unit (by rw [begins]; rfl)
  rcases among with rfl | rfl | rfl <;> decide

theorem delimited_cons {unit : UInt16} (ends : unit = 44 ∨ unit = 93 ∨ unit = 125) (more : Units) :
    Delimited (unit :: more) := by
  intro other first
  cases first
  exact ends

theorem takeWhile_delimited (delimited : Delimited rest) (text : Units) :
    (text ++ rest).takeWhile isDigit = text.takeWhile isDigit := by
  induction text with
  | nil =>
    cases rest with
    | nil => rfl
    | cons unit more =>
      have other := (delimited.head rfl).1
      simp [other]
  | cons digit text ih =>
    rw [List.cons_append, List.takeWhile_cons, List.takeWhile_cons, ih]

theorem dropWhile_delimited (delimited : Delimited rest) (text : Units) :
    (text ++ rest).dropWhile isDigit = text.dropWhile isDigit ++ rest := by
  induction text with
  | nil =>
    cases rest with
    | nil => rfl
    | cons unit more =>
      have other := (delimited.head rfl).1
      simp [other]
  | cons digit text ih =>
    rw [List.cons_append, List.dropWhile_cons, List.dropWhile_cons, ih]
    split <;> rfl

theorem scanInteger_append (delimited : Delimited rest)
    (scanned : scanInteger text = some (token, after)) :
    scanInteger (text ++ rest) = some (token, after ++ rest) := by
  cases text with
  | nil => contradiction
  | cons unit text =>
    rw [List.cons_append, scanInteger, takeWhile_delimited delimited,
      dropWhile_delimited delimited]
    rw [scanInteger] at scanned
    split_ifs at scanned ⊢ <;> cases scanned <;> rfl

theorem scanFraction_append (delimited : Delimited rest) (text : Units) :
    scanFraction (text ++ rest) = ((scanFraction text).1, (scanFraction text).2 ++ rest) := by
  rcases text with _ | ⟨point, _ | ⟨digit, text⟩⟩
  · rcases rest with _ | ⟨unit, _ | ⟨digit, more⟩⟩
    · rfl
    · rfl
    · have other := (delimited.head rfl).2.1
      simp [scanFraction, other]
  · cases rest with
    | nil => rfl
    | cons unit more =>
      have other := (delimited.head rfl).1
      simp [scanFraction, other]
  · rw [List.cons_append, List.cons_append, scanFraction, scanFraction,
      takeWhile_delimited delimited, dropWhile_delimited delimited]
    split <;> rfl

theorem scanSign_append (delimited : Delimited rest) (text : Units) :
    scanSign (text ++ rest) = ((scanSign text).1, (scanSign text).2 ++ rest) := by
  cases text with
  | nil =>
    cases rest with
    | nil => rfl
    | cons unit more =>
      obtain ⟨-, -, plus, minus, -, -⟩ := delimited.head rfl
      simp [scanSign, plus, minus]
  | cons sign text =>
    rw [List.cons_append, scanSign, scanSign]
    split <;> rfl

theorem scanExponent_append (delimited : Delimited rest) (text : Units) :
    scanExponent (text ++ rest) = ((scanExponent text).1, (scanExponent text).2 ++ rest) := by
  cases text with
  | nil =>
    cases rest with
    | nil => rfl
    | cons unit more =>
      obtain ⟨-, -, -, -, small, large⟩ := delimited.head rfl
      simp [scanExponent, small, large]
  | cons mark text =>
    rw [List.cons_append, scanExponent, scanExponent, scanSign_append delimited]
    cases signed : (scanSign text).2 with
    | nil =>
      cases rest with
      | nil => split <;> rfl
      | cons unit more =>
        have other := (delimited.head rfl).1
        simp only [List.nil_append, other]
        split <;> rfl
    | cons digit left =>
      simp only [List.cons_append, takeWhile_delimited delimited, dropWhile_delimited delimited]
      split_ifs <;> rfl

theorem scanNumber_append (delimited : Delimited rest)
    (scanned : scanNumber text = some (token, after)) :
    scanNumber (text ++ rest) = some (token, after ++ rest) := by
  have unsigned : ∀ minus unsigned, ((scanInteger unsigned).map fun scanned =>
      (minus ++ scanned.1 ++ (scanFraction scanned.2).1 ++
        (scanExponent (scanFraction scanned.2).2).1, (scanExponent (scanFraction scanned.2).2).2)) =
          some (token, after) →
      ((scanInteger (unsigned ++ rest)).map fun scanned =>
        (minus ++ scanned.1 ++ (scanFraction scanned.2).1 ++
          (scanExponent (scanFraction scanned.2).2).1,
            (scanExponent (scanFraction scanned.2).2).2)) = some (token, after ++ rest) := by
    intro minus unsigned found
    obtain ⟨⟨integer, left⟩, integral, shape⟩ := Option.map_eq_some_iff.mp found
    cases shape
    rw [scanInteger_append delimited integral, Option.map_some, scanFraction_append delimited,
      scanExponent_append delimited]
  cases text with
  | nil => contradiction
  | cons unit text =>
    rw [List.cons_append]
    unfold scanNumber at scanned ⊢
    by_cases minus : unit = 45
    · simp only [if_pos minus] at scanned ⊢
      exact unsigned [unit] text scanned
    · simp only [if_neg minus] at scanned ⊢
      exact unsigned [] (unit :: text) scanned

theorem scanWord_other {unit first : UInt16} {word : Units} (other : unit ≠ first) :
    scanWord (first :: word) (unit :: text) = none := by
  simp [scanWord, other.symm]

end Scalars

/-! ## What is written reads back -/

section Back

variable (numbers : NumberFormat ν)

theorem skip_plain {unit : UInt16} (plain : isBlank unit = false) (rest : Units) :
    skip (unit :: rest) = unit :: rest := by
  rw [skip, List.dropWhile_cons, plain, if_neg (by decide)]

theorem digits_begin (value : ν) : ∃ unit more, numbers.digits value = unit :: more ∧
    (unit = 45 ∨ isDigit unit = true) := by
  have scanned := numbers.number value
  cases shape : numbers.digits value with
  | nil =>
    rw [shape] at scanned
    contradiction
  | cons unit more =>
    rw [shape] at scanned
    exact ⟨unit, more, rfl, scanNumber_begins scanned⟩

theorem digit_plain {unit : UInt16} (number : unit = 45 ∨ isDigit unit = true) :
    isBlank unit = false ∧ unit ≠ 34 ∧ unit ≠ 91 ∧ unit ≠ 93 ∧ unit ≠ 123 ∧ unit ≠ 125 ∧
      unit ≠ 116 ∧ unit ≠ 102 ∧ unit ≠ 110 := by
  rcases number with rfl | digit
  · decide
  · simp only [isDigit, Bool.and_eq_true, decide_eq_true_eq, UInt16.le_iff_toNat_le] at digit
    change 48 ≤ unit.toNat ∧ unit.toNat ≤ 57 at digit
    have other : ∀ unit' : UInt16, unit'.toNat < 48 ∨ 57 < unit'.toNat → unit ≠ unit' := by
      rintro unit' outside rfl
      omega
    refine ⟨?_, other _ (by decide), other _ (by decide), other _ (by decide), other _ (by decide),
      other _ (by decide), other _ (by decide), other _ (by decide), other _ (by decide)⟩
    simp [isBlank, other 32 (by decide), other 9 (by decide), other 10 (by decide),
      other 13 (by decide)]

theorem stringify_begins (value : JsonValue ν) : ∃ unit more,
    stringify numbers value = unit :: more ∧ isBlank unit = false ∧ unit ≠ 93 := by
  cases value with
  | null => exact ⟨110, _, rfl, by decide⟩
  | boolean value =>
    cases value with
    | true => exact ⟨116, _, rfl, by decide⟩
    | false => exact ⟨102, _, rfl, by decide⟩
  | number value =>
    obtain ⟨unit, more, shape, number⟩ := digits_begin numbers value
    obtain ⟨space, -, -, bracket, -⟩ := digit_plain number
    exact ⟨unit, more, shape, space, bracket⟩
  | text value => exact ⟨34, _, rfl, by decide⟩
  | array items => exact ⟨91, _, rfl, by decide⟩
  | object fields => exact ⟨123, _, rfl, by decide⟩

theorem parseNode_word {word rest : Units} (among : word ∈ [TRUE, FALSE, NULL]) (fuel : Nat) :
    parseNode (fuel + 1) (word ++ rest) = some (.word word, rest) := by
  simp only [List.mem_cons, List.not_mem_nil, or_false] at among
  rcases among with rfl | rfl | rfl <;> rfl

theorem parseNode_number {rest : Units} (delimited : Delimited rest) (value : ν) (fuel : Nat) :
    parseNode (fuel + 1) (numbers.digits value ++ rest) =
      some (.number (numbers.digits value), rest) := by
  obtain ⟨unit, more, shape, number⟩ := digits_begin numbers value
  obtain ⟨space, quote, bracket, -, brace, -, t, f, n⟩ := digit_plain number
  have scanned := scanNumber_append delimited (numbers.number value)
  rw [shape] at scanned ⊢
  rw [List.cons_append] at scanned ⊢
  have none_ : ((scanWord TRUE (unit :: (more ++ rest))).or
      (scanWord FALSE (unit :: (more ++ rest)))).or (scanWord NULL (unit :: (more ++ rest))) =
        none := by
    rw [TRUE, FALSE, NULL, scanWord_other t, scanWord_other f, scanWord_other n]
    rfl
  rw [parseNode, skip_plain space]
  dsimp only
  rw [if_neg quote, if_neg bracket, if_neg brace, none_, scanned]
  rfl

theorem parseNode_quote (text rest : Units) (fuel : Nat) :
    parseNode (fuel + 1) (Units.quote text ++ rest) =
      some (.string (Units.quote text) text, rest) := by
  have scanned := scanString_escape text rest
  have shape : Units.quote text ++ rest = 34 :: (Units.escape text ++ 34 :: rest) := by
    simp [Units.quote]
  rw [shape, parseNode, skip_plain (by decide)]
  dsimp only
  rw [if_pos rfl, scanned]
  simp [Units.quote]

def NodesBack (fuel : Nat) : Prop :=
  ∀ value rest, (stringify numbers value).length ≤ fuel → Delimited rest →
    parseNode fuel (stringify numbers value ++ rest) = some (toNode numbers value, rest)

def ItemsBack (fuel : Nat) : Prop :=
  ∀ item items rest, (stringifyItems numbers (item :: items)).length + 1 ≤ fuel →
    parseItems fuel (stringifyItems numbers (item :: items) ++ 93 :: rest) =
      some (toItems numbers (item :: items), rest)

def MembersBack (fuel : Nat) : Prop :=
  ∀ name value fields rest, (stringifyFields numbers ((name, value) :: fields)).length + 1 ≤ fuel →
    parseMembers fuel (stringifyFields numbers ((name, value) :: fields) ++ 125 :: rest) =
      some (toMembers numbers ((name, value) :: fields), rest)

section Steps

variable {numbers} {fuel : Nat} {rest : Units}

theorem ItemsBack.array (back : ItemsBack numbers fuel) (items : List (JsonValue ν))
    (enough : (stringify numbers (.array items)).length ≤ fuel + 1) :
    parseNode (fuel + 1) (stringify numbers (.array items) ++ rest) =
      some (toNode numbers (.array items), rest) := by
  rw [stringify] at enough ⊢
  simp only [List.length_cons, List.length_append, List.length_nil] at enough
  rw [List.cons_append, parseNode, skip_plain (by decide)]
  dsimp only
  rw [if_neg (by decide), if_pos rfl, toNode]
  cases items with
  | nil =>
    rw [stringifyItems, List.nil_append, List.cons_append, skip_plain (by decide)]
    rfl
  | cons item items =>
    obtain ⟨unit, more, begins, space, open_⟩ := stringify_begins numbers item
    have parsed := back item items rest (by omega)
    rw [List.append_assoc, List.cons_append, List.nil_append]
    rw [stringifyItems, begins, List.cons_append, List.cons_append] at parsed ⊢
    rw [skip_plain space]
    dsimp only
    rw [if_neg open_, parsed]
    rfl

theorem MembersBack.object (back : MembersBack numbers fuel) (fields : List (Units × JsonValue ν))
    (enough : (stringify numbers (.object fields)).length ≤ fuel + 1) :
    parseNode (fuel + 1) (stringify numbers (.object fields) ++ rest) =
      some (toNode numbers (.object fields), rest) := by
  rw [stringify] at enough ⊢
  simp only [List.length_cons, List.length_append, List.length_nil] at enough
  rw [List.cons_append, parseNode, skip_plain (by decide)]
  dsimp only
  rw [if_neg (by decide), if_neg (by decide), if_pos rfl, toNode]
  cases fields with
  | nil =>
    rw [stringifyFields, List.nil_append, List.cons_append, skip_plain (by decide)]
    rfl
  | cons field fields =>
    obtain ⟨name, value⟩ := field
    have parsed := back name value fields rest (by omega)
    rw [List.append_assoc, List.cons_append, List.nil_append]
    rw [stringifyFields, Units.quote, List.cons_append, List.cons_append, List.cons_append]
      at parsed ⊢
    rw [skip_plain (by decide)]
    dsimp only
    rw [if_neg (by decide), parsed]
    rfl

theorem NodesBack.items (nodes : NodesBack numbers fuel) (items : ItemsBack numbers fuel) :
    ItemsBack numbers (fuel + 1) := by
  intro item others rest enough
  rw [stringifyItems] at enough ⊢
  rw [List.length_append] at enough
  rw [List.append_assoc, parseItems]
  cases others with
  | nil =>
    have parsed := nodes item (93 :: rest) (by omega) (delimited_cons (by decide) rest)
    rw [stringifyMoreItems, List.nil_append, parsed]
    rfl
  | cons next others =>
    rw [stringifyMoreItems, List.length_cons] at enough
    have parsed := nodes item
      (44 :: (stringify numbers next ++ stringifyMoreItems numbers others) ++ 93 :: rest)
      (by omega) (delimited_cons (by decide) _)
    have left := items next others rest (by rw [stringifyItems]; omega)
    rw [stringifyMoreItems, parsed]
    dsimp only
    rw [List.cons_append, skip_plain (by decide)]
    dsimp only
    rw [if_neg (by decide), if_pos rfl]
    rw [stringifyItems] at left
    rw [left]
    rfl

theorem NodesBack.members (nodes : NodesBack numbers fuel) (members : MembersBack numbers fuel) :
    MembersBack numbers (fuel + 1) := by
  intro name value others rest enough
  have named : ∀ more, Units.quote name ++ more = 34 :: (Units.escape name ++ 34 :: more) := by
    intro more
    simp [Units.quote]
  rw [stringifyFields] at enough ⊢
  rw [List.length_append, List.length_cons, List.length_append] at enough
  rw [List.append_assoc, named, parseMembers, skip_plain (by decide)]
  dsimp only
  rw [if_pos rfl, scanString_escape]
  dsimp only
  rw [List.cons_append, skip_plain (by decide)]
  dsimp only
  rw [if_pos rfl, List.append_assoc]
  cases others with
  | nil =>
    have parsed := nodes value (125 :: rest) (by omega) (delimited_cons (by decide) rest)
    rw [stringifyMoreFields, List.nil_append, parsed]
    rfl
  | cons field others =>
    obtain ⟨next, valued⟩ := field
    rw [stringifyMoreFields, List.length_cons] at enough
    have parsed := nodes value
      (44 :: (Units.quote next ++ 58 :: (stringify numbers valued ++
        stringifyMoreFields numbers others)) ++ 125 :: rest)
      (by omega) (delimited_cons (by decide) _)
    have left := members next valued others rest (by rw [stringifyFields]; omega)
    rw [stringifyMoreFields, parsed]
    dsimp only
    rw [List.cons_append, skip_plain (by decide)]
    dsimp only
    rw [if_neg (by decide), if_pos rfl]
    rw [stringifyFields] at left
    rw [left]
    rfl

end Steps

theorem parse_back (fuel : Nat) :
    NodesBack numbers fuel ∧ ItemsBack numbers fuel ∧ MembersBack numbers fuel := by
  induction fuel with
  | zero =>
    refine ⟨?_, nofun, nofun⟩
    intro value rest enough
    obtain ⟨unit, more, begins, -, -⟩ := stringify_begins numbers value
    simp [begins] at enough
  | succ fuel ih =>
    obtain ⟨nodes, items, members⟩ := ih
    refine ⟨?_, nodes.items items, nodes.members members⟩
    intro value rest enough delimited
    cases value with
    | null => exact @parseNode_word NULL rest (by decide) fuel
    | boolean value =>
      cases value with
      | true => exact @parseNode_word TRUE rest (by decide) fuel
      | false => exact @parseNode_word FALSE rest (by decide) fuel
    | number value => exact parseNode_number numbers delimited value fuel
    | text value => exact parseNode_quote value rest fuel
    | array list => exact items.array list enough
    | object fields => exact members.object fields enough

theorem parseText_stringify (value : JsonValue ν) :
    parseText (stringify numbers value) = some (toNode numbers value) := by
  have parsed := (parse_back numbers ((stringify numbers value).length + 1)).1 value []
    (Nat.le_succ _) nofun
  rw [List.append_nil] at parsed
  rw [parseText, parsed]
  rfl

/-! ### What is written is well formed -/

mutual

theorem isWellFormed_stringify (value : JsonValue ν) :
    Units.isWellFormed (stringify numbers value) = true := by
  cases value with
  | null => rfl
  | boolean value => cases value <;> rfl
  | number value =>
    refine Units.isWellFormed_plain fun unit among => numberUnit_plain ?_
    exact scanNumber_units (numbers.number value) unit among
  | text value => exact Units.isWellFormed_quote value
  | array items =>
    rw [stringify, Units.isWellFormed_cons (by decide)]
    refine Units.isWellFormed_append ?_ rfl
    cases items with
    | nil => rfl
    | cons item items =>
      exact Units.isWellFormed_append (isWellFormed_stringify item) (isWellFormed_moreItems items)
  | object fields =>
    rw [stringify, Units.isWellFormed_cons (by decide)]
    refine Units.isWellFormed_append ?_ rfl
    cases fields with
    | nil => rfl
    | cons field fields =>
      obtain ⟨name, value⟩ := field
      rw [stringifyFields]
      refine Units.isWellFormed_append (Units.isWellFormed_quote name) ?_
      rw [Units.isWellFormed_cons (by decide)]
      exact Units.isWellFormed_append (isWellFormed_stringify value)
        (isWellFormed_moreFields fields)

theorem isWellFormed_moreItems (items : List (JsonValue ν)) :
    Units.isWellFormed (stringifyMoreItems numbers items) = true := by
  cases items with
  | nil => rfl
  | cons item items =>
    rw [stringifyMoreItems, Units.isWellFormed_cons (by decide)]
    exact Units.isWellFormed_append (isWellFormed_stringify item) (isWellFormed_moreItems items)

theorem isWellFormed_moreFields (fields : List (Units × JsonValue ν)) :
    Units.isWellFormed (stringifyMoreFields numbers fields) = true := by
  cases fields with
  | nil => rfl
  | cons field fields =>
    obtain ⟨name, value⟩ := field
    rw [stringifyMoreFields, Units.isWellFormed_cons (by decide)]
    refine Units.isWellFormed_append (Units.isWellFormed_quote name) ?_
    rw [Units.isWellFormed_cons (by decide)]
    exact Units.isWellFormed_append (isWellFormed_stringify value) (isWellFormed_moreFields fields)

end

/-! ### The same value -/

theorem setField_fresh {name : Units} (fresh : name ∉ fields.map Prod.fst) (value : JsonValue ν) :
    setField fields name value = fields ++ [(name, value)] := by
  induction fields with
  | nil => rfl
  | cons field rest ih =>
    obtain ⟨other, before⟩ := field
    simp only [List.map_cons, List.mem_cons, not_or] at fresh
    rw [setField, if_neg (Ne.symm fresh.1), ih fresh.2]
    rfl

mutual

theorem ofNode_toNode (value : JsonValue ν) (unique : Unique value) :
    ofNode numbers (toNode numbers value) = value := by
  cases value with
  | null => rfl
  | boolean value => cases value <;> rfl
  | number value => rw [toNode, ofNode, numbers.back]
  | text value => rfl
  | array items => rw [toNode, ofNode, ofItems_toItems items unique]
  | object fields =>
    obtain ⟨apart, inside⟩ := unique
    rw [toNode, ofNode, ofMembers_toMembers fields [] inside (by simpa using apart)]
    rfl

theorem ofItems_toItems (items : List (JsonValue ν)) (unique : UniqueItems items) :
    ofItems numbers (toItems numbers items) = items := by
  cases items with
  | nil => rfl
  | cons item items =>
    rw [toItems, ofItems, ofNode_toNode item unique.1, ofItems_toItems items unique.2]

theorem ofMembers_toMembers (fields before : List (Units × JsonValue ν))
    (unique : UniqueFields fields) (apart : ((before ++ fields).map Prod.fst).Nodup) :
    ofMembers numbers (toMembers numbers fields) before = before ++ fields := by
  cases fields with
  | nil => rw [toMembers, ofMembers, List.append_nil]
  | cons field fields =>
    obtain ⟨name, value⟩ := field
    have fresh : name ∉ before.map Prod.fst := by
      rw [List.map_append, List.nodup_append] at apart
      intro among
      exact apart.2.2 name among name (by simp) rfl
    rw [toMembers, ofMembers, ofNode_toNode value unique.1, setField_fresh fresh,
      ofMembers_toMembers fields (before ++ [(name, value)]) unique.2 (by simpa using apart)]
    simp

end

theorem parse_stringify (document : Document ν) :
    parse numbers (stringify numbers document.value) = some document := by
  obtain ⟨value, unique⟩ := document
  rw [parse, parseText_stringify, Option.map_some]
  simp only [ofNode_toNode numbers value unique]

theorem stringify_injective {value other : JsonValue ν} (unique : Unique value)
    (unique' : Unique other) (same : stringify numbers value = stringify numbers other) :
    value = other := by
  have back := parse_stringify numbers ⟨value, unique⟩
  rw [same, parse_stringify numbers ⟨other, unique'⟩] at back
  cases back
  rfl

end Back

end JsonValue

end NostrWot.Data
