import NostrWot.Data.JsonValue
import NostrWot.Data.Value

namespace NostrWot.Data

/-! # Numbers of a JSON text

A parsed text with its numbers as they are written, and what the language makes of them.
-/

structure Numeral where
  text : Units
  whole : JsonSyntax.scanNumber text = some (text, [])

/-- Every number is kept as it is written. -/
def Numeral.format : JsonValue.NumberFormat Numeral where
  digits numeral := numeral.text
  read text :=
    if whole : JsonSyntax.scanNumber text = some (text, []) then ⟨text, whole⟩
    else ⟨[48], by decide⟩
  back numeral := dif_pos numeral.whole
  number numeral := numeral.whole

/-- What `JSON.parse` returns, the reading of numbers left to be done. -/
abbrev Json := JsonValue Numeral

def Json.parse (text : Units) : Option Json :=
  (JsonValue.parse Numeral.format text).map fun document => document.value

/-- How the language reads the numbers of a text and writes them as strings. -/
structure Numbers where
  read : Numeral → Number
  said : Number → Units

namespace Json

def isNull : Json → Bool
  | .null => true
  | _ => false

def isString (text : Units) : Json → Bool := JsonValue.isText fun said => said = text

def isNumber (numbers : Numbers) (number : Number) : Json → Bool :=
  JsonValue.isNumber fun numeral => numbers.read numeral = number

def truthy (numbers : Numbers) : Json → Bool
  | .null => false
  | .boolean value => value
  | .number numeral => numbers.read numeral ≠ 0 && numbers.read numeral ≠ .nan
  | .text said => said ≠ []
  | .array _ | .object _ => true

end Json

/-- What is thrown where a value is used as what it is not. -/
inductive Fault where
  | typeError
  deriving DecidableEq

namespace Json

def COMMA : UInt16 := 44

mutual

/-- `String(value)`: an object that has a `toString` of its own cannot be called for one. -/
def toText (numbers : Numbers) : Json → Except Fault Units
  | .null => .ok JsonSyntax.NULL
  | .boolean value => .ok (if value then JsonSyntax.TRUE else JsonSyntax.FALSE)
  | .number numeral => .ok (numbers.said (numbers.read numeral))
  | .text said => .ok said
  | .array items => (texts numbers items).map fun each => List.intercalate [COMMA] each
  | .object fields =>
    if (JsonValue.field (.object fields) "toString").isSome then .error .typeError
    else .ok (Units.ofString "[object Object]")

/-- The texts that are joined, an empty one for `null`. -/
def texts (numbers : Numbers) : List Json → Except Fault (List Units)
  | [] => .ok []
  | item :: rest => do
      let first ← if item.isNull then .ok [] else toText numbers item
      let others ← texts numbers rest
      return first :: others

end

end Json

end NostrWot.Data
