import NostrWot.Data.Numeral

namespace NostrWot.Data

/-! # Values and their texts

JSON values with the numbers of the language: what a text is parsed as, and what is left of a
value when it is written and read again.
-/

/-- How the language reads the numbers of a text and writes its finite ones: none is read as
`NaN`, and what was read is written so that it is read again. -/
structure Doubles where
  read : Numeral → Number
  write : Rat → Numeral
  real : ∀ numeral, read numeral ≠ .nan
  back : ∀ numeral value, read numeral = .finite value → read (write value) = .finite value

namespace JsonValue

variable {ν μ : Type}

mutual

def map (change : ν → μ) : JsonValue ν → JsonValue μ
  | .null => .null
  | .boolean value => .boolean value
  | .number value => .number (change value)
  | .text value => .text value
  | .array items => .array (mapItems change items)
  | .object fields => .object (mapFields change fields)

def mapItems (change : ν → μ) : List (JsonValue ν) → List (JsonValue μ)
  | [] => []
  | item :: items => map change item :: mapItems change items

def mapFields (change : ν → μ) : List (Units × JsonValue ν) → List (Units × JsonValue μ)
  | [] => []
  | (name, value) :: fields => (name, map change value) :: mapFields change fields

end

mutual

/-- A value as `JSON.stringify` writes it: a number that is not finite becomes `null`. -/
def written (write : Rat → Numeral) : JsonValue Number → Json
  | .null => .null
  | .boolean value => .boolean value
  | .number (.finite value) => .number (write value)
  | .number _ => .null
  | .text value => .text value
  | .array items => .array (writtenItems write items)
  | .object fields => .object (writtenFields write fields)

def writtenItems (write : Rat → Numeral) : List (JsonValue Number) → List Json
  | [] => []
  | item :: items => written write item :: writtenItems write items

def writtenFields (write : Rat → Numeral) : List (Units × JsonValue Number) → List (Units × Json)
  | [] => []
  | (name, value) :: fields => (name, written write value) :: writtenFields write fields

end

theorem mapItems_eq (change : ν → μ) (items : List (JsonValue ν)) :
    mapItems change items = items.map (map change) := by
  induction items with
  | nil => rfl
  | cons item items induction => rw [mapItems, induction, List.map_cons]

theorem mapFields_eq (change : ν → μ) (fields : List (Units × JsonValue ν)) :
    mapFields change fields = fields.map fun field => (field.1, map change field.2) := by
  induction fields with
  | nil => rfl
  | cons field fields induction => rw [mapFields, induction, List.map_cons]

theorem writtenItems_eq (write : Rat → Numeral) (items : List (JsonValue Number)) :
    writtenItems write items = items.map (written write) := by
  induction items with
  | nil => rfl
  | cons item items induction => rw [writtenItems, induction, List.map_cons]

theorem writtenFields_eq (write : Rat → Numeral) (fields : List (Units × JsonValue Number)) :
    writtenFields write fields = fields.map fun field => (field.1, written write field.2) := by
  induction fields with
  | nil => rfl
  | cons field fields induction => rw [writtenFields, induction, List.map_cons]

theorem find_changed {fields : List (Units × JsonValue ν)} (change : JsonValue ν → JsonValue μ)
    (name : Units) :
    ((fields.map fun field => (field.1, change field.2)).find? fun field => field.1 = name).map
        Prod.snd =
      ((fields.find? fun field => field.1 = name).map Prod.snd).map change := by
  induction fields with
  | nil => rfl
  | cons field fields induction =>
    rw [List.map_cons, List.find?_cons, List.find?_cons]
    by_cases same : field.1 = name
    · simp [same]
    · simpa [same] using induction

theorem field_map (change : ν → μ) (value : JsonValue ν) (name : String) :
    (map change value).field name = (value.field name).map (map change) := by
  cases value with
  | object fields =>
    rw [map, field, field, mapFields_eq]
    exact find_changed (map change) _
  | _ => rfl

theorem field_written (write : Rat → Numeral) (value : JsonValue Number) (name : String) :
    (written write value).field name = (value.field name).map (written write) := by
  cases value with
  | object fields =>
    rw [written, field, field, writtenFields_eq]
    exact find_changed (written write) _
  | number value => cases value <;> rfl
  | _ => rfl

mutual

theorem unique_written (write : Rat → Numeral) (value : JsonValue Number) (unique : Unique value) :
    Unique (written write value) := by
  cases value with
  | array items => exact unique_writtenItems write items unique
  | object fields =>
    have names : (writtenFields write fields).map Prod.fst = fields.map Prod.fst := by
      rw [writtenFields_eq, List.map_map]
      rfl
    exact ⟨names ▸ unique.1, unique_writtenFields write fields unique.2⟩
  | number value => cases value <;> trivial
  | _ => trivial

theorem unique_writtenItems (write : Rat → Numeral) (items : List (JsonValue Number))
    (unique : UniqueItems items) : UniqueItems (writtenItems write items) := by
  cases items with
  | nil => trivial
  | cons item items =>
    exact ⟨unique_written write item unique.1, unique_writtenItems write items unique.2⟩

theorem unique_writtenFields (write : Rat → Numeral) (fields : List (Units × JsonValue Number))
    (unique : UniqueFields fields) : UniqueFields (writtenFields write fields) := by
  cases fields with
  | nil => trivial
  | cons field fields =>
    exact ⟨unique_written write field.2 unique.1, unique_writtenFields write fields unique.2⟩

end

def withField (value : JsonValue ν) (name : String) (inside : JsonValue ν) : JsonValue ν :=
  match value with
  | .object fields => .object (setField fields (Units.ofString name) inside)
  | _ => .object [(Units.ofString name, inside)]

theorem find_setField (fields : List (Units × JsonValue ν)) (name other : Units)
    (inside : JsonValue ν) :
    ((setField fields name inside).find? fun field => field.1 = other).map Prod.snd =
      if other = name then some inside
      else (fields.find? fun field => field.1 = other).map Prod.snd := by
  induction fields with
  | nil =>
    by_cases same : other = name
    · simp [setField, same]
    · simp [setField, same, Ne.symm same]
  | cons field fields induction =>
    obtain ⟨first, before⟩ := field
    rw [setField]
    by_cases here : first = name
    · rw [if_pos here]
      by_cases same : other = name
      · simp [same]
      · simp [same, here, Ne.symm same]
    · rw [if_neg here, List.find?_cons, List.find?_cons]
      by_cases found : first = other
      · subst found
        simp [here]
      · simpa [found] using induction

theorem field_withField {value : JsonValue ν} (object : value.isObject = true) (name other : String)
    (inside : JsonValue ν) : (value.withField name inside).field other =
      if Units.ofString other = Units.ofString name then some inside else value.field other := by
  cases value with
  | object fields => exact find_setField fields _ _ inside
  | _ => cases object

theorem unique_withField {value inside : JsonValue ν} (unique : Unique value) (inner : Unique inside)
    (name : String) : Unique (value.withField name inside) := by
  cases value with
  | object fields =>
    exact ⟨setField_nodup unique.1 _ _, setField_unique unique.2 _ inner⟩
  | _ => exact ⟨List.nodup_singleton _, inner, trivial⟩

end JsonValue

namespace Doubles

open JsonValue

variable (doubles : Doubles)

def parse (text : Units) : Option (JsonValue Number) :=
  (Json.parse text).map (JsonValue.map doubles.read)

def stringify (value : JsonValue Number) : Units :=
  JsonValue.stringify Numeral.format (written doubles.write value)

def reread (value : JsonValue Number) : JsonValue Number :=
  JsonValue.map doubles.read (written doubles.write value)

/-- A finite number that the language has. -/
def IsDouble (value : Rat) : Prop := ∃ numeral, doubles.read numeral = .finite value

variable {doubles} {value other : JsonValue Number}

theorem parse_stringify (unique : Unique value) :
    doubles.parse (doubles.stringify value) = some (doubles.reread value) := by
  rw [parse, Json.parse, stringify,
    JsonValue.parse_stringify Numeral.format ⟨_, unique_written doubles.write value unique⟩]
  rfl

theorem written_of_stringify (unique : Unique value) (unique' : Unique other)
    (same : doubles.stringify value = doubles.stringify other) :
    written doubles.write value = written doubles.write other :=
  stringify_injective Numeral.format (unique_written _ _ unique) (unique_written _ _ unique') same

theorem field_reread (value : JsonValue Number) (name : String) :
    (doubles.reread value).field name = (value.field name).map doubles.reread := by
  rw [reread, field_map, field_written, Option.map_map]
  rfl

@[simp] theorem reread_text (text : Units) : doubles.reread (.text text) = .text text := rfl

theorem reread_finite {number : Rat} (double : doubles.IsDouble number) :
    doubles.reread (.number (.finite number)) = .number (.finite number) := by
  obtain ⟨numeral, read⟩ := double
  rw [reread, written, JsonValue.map, doubles.back numeral number read]

theorem reread_array (items : List (JsonValue Number)) :
    doubles.reread (.array items) = .array (items.map doubles.reread) := by
  rw [reread, written, JsonValue.map, writtenItems_eq, mapItems_eq, List.map_map]
  rfl

theorem number_of_parse {text : Units} {parsed : JsonValue Number} {name : String} {number : Number}
    (read : doubles.parse text = some parsed) (found : parsed.field name = some (.number number)) :
    ∃ numeral, doubles.read numeral = number := by
  obtain ⟨source, _, rfl⟩ := Option.map_eq_some_iff.mp read
  rw [field_map, Option.map_eq_some_iff] at found
  obtain ⟨inside, _, same⟩ := found
  cases inside with
  | number numeral => exact ⟨numeral, by rw [JsonValue.map] at same; cases same; rfl⟩
  | _ => cases same

end Doubles

end NostrWot.Data
