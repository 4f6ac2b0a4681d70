import NostrWot.Data.CodeUnits
import NostrWot.Data.Outcome
import NostrWot.Signing.Schema

namespace NostrWot.Signing.Untrusted

open NostrWot.Data NostrWot.Permissions

/-! # Reading untrusted objects

Every read of a caller's object runs the caller's code, which may answer
differently each time.  An event template is checked and copied through such
reads.
-/

/-- What a read answers; `ρ` are the objects of the caller. -/
inductive Foreign (ρ : Type) where
  | undefined
  | null
  | boolean (value : Bool)
  | number (value : Number)
  | text (value : Units)
  | object (reference : ρ)
  /-- A function, a symbol or a bigint. -/
  | other

inductive Key where
  | name (name : String)
  | index (place : Nat)

/-- Why nothing came back. -/
inductive Refusal where
  | signer (error : SignerError)
  /-- Something the caller's code or the language threw. -/
  | foreign
  /-- The caller's code never lets the reading end. -/
  | endless

abbrev Reads (σ α : Type) : Type := StateT σ (Except Refusal) α

/-- The tags of a copy: an array of the language's own, its holes `none`, or whatever the caller's
code answered for one. -/
inductive CopiedTags (ρ : Type) where
  | own (tags : List (Option (List (Foreign ρ))))
  | answered (value : Foreign ρ)

structure CopiedEvent (ρ : Type) where
  kind : Nat
  content : Units
  tags : CopiedTags ρ
  created_at : Option Nat := none
  pubkey : Option Units := none

/-- The caller's code: the traps of its proxies, its getters, iterators and conversions. -/
structure Caller (σ ρ ι : Type) where
  isArray : ρ → Reads σ Bool
  get : ρ → Key → Reads σ (Foreign ρ)
  has : ρ → Nat → Reads σ Bool
  keys : ρ → Reads σ Nat
  /-- The conversion of an operand of `<`, `>` or `*`. -/
  number : Foreign ρ → Reads σ Number
  iterator : Foreign ρ → Reads σ ι
  next : ι → Reads σ (Option (Foreign ρ × ι))
  /-- What its own `map` answers; `none` where `map` is the language's. -/
  map : ρ → Reads σ (Option (Foreign ρ))
  /-- What the language's `map` ends with in an array that its species makes; `none` where that
  is an array of the language's own. -/
  species : ρ → Nat → Reads σ (Option (Foreign ρ))
  /-- `JSON.stringify` of a copy that holds values of the caller. -/
  stringify : CopiedEvent ρ → Reads σ Units
  freeze : ρ → Reads σ Unit

def MAX_EVENT_BYTES : Nat := 1024 * 1024

def MAX_EVENT_TAGS : Nat := 10000

def MAX_TAG_VALUES : Nat := 1024

def MAX_KIND : Nat := 65535

def MAX_SAFE_INTEGER : Nat := 2 ^ 53 - 1

section Reading

variable {σ ρ ι α : Type}

def refuse (error : SignerError) : Reads σ α := throw (.signer error)

def fail (message : String) : Reads σ α := refuse (invalid message)

def isLowerHexUnit (unit : UInt16) : Bool :=
  (48 ≤ unit && unit ≤ 57) || (97 ≤ unit && unit ≤ 102)

/-- `HEX_PUBKEY`. -/
def isHexPubkey (text : Units) : Bool := text.length = 64 && text.all isLowerHexUnit

def requireString (value : Foreign ρ) (what : String) : Reads σ Units :=
  match value with
  | .text text => return text
  | _ => fail (what ++ " must be a string")

def requireNonEmptyString (value : Foreign ρ) (what : String) : Reads σ Units := do
  let text ← requireString value what
  if text.length = 0 then fail (what ++ " must not be empty") else return text

def requireBoundedString (value : Foreign ρ) (what : String) (max : Nat) : Reads σ Units := do
  let text ← requireString value what
  if max < text.length then
    fail (what ++ " may be at most " ++ toString max ++ " characters")
  else return text

def requirePubkey (value : Foreign ρ) (what : String) : Reads σ Units :=
  match value with
  | .text text =>
    if isHexPubkey text then return text
    else fail (what ++ " must be 64 lowercase hex characters")
  | _ => fail (what ++ " must be 64 lowercase hex characters")

def requireNonNegativeInteger (value : Foreign ρ) (what : String) (max : Nat) : Reads σ Nat :=
  let refusal := fail (what ++ " must be an integer between 0 and " ++ toString max)
  match value with
  | .number (.finite number) =>
    if number.den = 1 ∧ 0 ≤ number ∧ number ≤ max then return number.num.toNat else refusal
  | _ => refusal

def utf8ByteLength : Units → Nat
  | [] => 0
  | [unit] => if unit < 0x80 then 1 else if unit < 0x800 then 2 else 3
  | unit :: next :: rest =>
    if unit < 0x80 then 1 + utf8ByteLength (next :: rest)
    else if unit < 0x800 then 2 + utf8ByteLength (next :: rest)
    else if 0xD800 ≤ unit && unit ≤ 0xDBFF then
      if 0xDC00 ≤ next && next ≤ 0xDFFF then 4 + utf8ByteLength rest
      else 3 + utf8ByteLength (next :: rest)
    else 3 + utf8ByteLength (next :: rest)

def eventTooLarge : SignerError :=
  invalid ("event is too large: at most " ++ toString MAX_EVENT_BYTES ++ " bytes as JSON")

/-! ## Templates -/

variable (caller : Caller σ ρ ι)

def isRecord (value : Foreign ρ) : Reads σ (Option ρ) :=
  match value with
  | .object reference => do
      if ← caller.isArray reference then return none else return some reference
  | _ => return none

def toNumber (value : Foreign ρ) : Reads σ Number :=
  match value with
  | .undefined => return .nan
  | .null => return 0
  | .boolean value => return if value then 1 else 0
  | .number value => return value
  | value => caller.number value

def isZero : Foreign ρ → Bool
  | .number value => value = 0
  | _ => false

def tagOverhead : Number → Number
  | .finite length => .finite (2 + length * 3)
  | length => length

def checkValues (index : Nat) (limit : Int) (tooLarge : SignerError) :
    (fuel : Nat) → ι → Number → Reads σ Number
  | 0, _, _ => throw .endless
  | fuel + 1, iterator, tagBytes => do
      match ← caller.next iterator with
      | none => return tagBytes
      | some (entry, iterator) =>
        let text ← requireString entry ("event.tags[" ++ toString index ++ "] values")
        let tagBytes := tagBytes.add (.finite text.length)
        if (Number.finite limit).lt tagBytes then refuse tooLarge
        else checkValues index limit tooLarge fuel iterator tagBytes

def checkTag (fuel index : Nat) (limit : Int) (tooLarge : SignerError) (tag : Foreign ρ)
    (tagBytes : Number) : Reads σ Number := do
  let needed := fail ("event.tags[" ++ toString index ++ "] must be a non-empty array")
  match tag with
  | .object reference =>
    if !(← caller.isArray reference) then needed
    else
      if isZero (← caller.get reference (.name "length")) then needed
      else
        let length ← toNumber caller (← caller.get reference (.name "length"))
        if (Number.finite MAX_TAG_VALUES).lt length then
          fail ("event.tags[" ++ toString index ++ "] may hold at most " ++
            toString MAX_TAG_VALUES ++ " values")
        else
          let length ← toNumber caller (← caller.get reference (.name "length"))
          let tagBytes := tagBytes.add (tagOverhead length)
          if (Number.finite limit).lt tagBytes then refuse tooLarge
          else
            let iterator ← caller.iterator tag
            checkValues caller index limit tooLarge fuel iterator tagBytes
  | _ => needed

def checkTags (fuel : Nat) (limit : Int) (tooLarge : SignerError) (rawTags : ρ) :
    (rounds index : Nat) → Number → Reads σ Unit
  | 0, _, _ => throw .endless
  | rounds + 1, index, tagBytes => do
      let length ← toNumber caller (← caller.get rawTags (.name "length"))
      if (Number.finite index).lt length then
        let tag ← caller.get rawTags (.index index)
        let tagBytes ← checkTag caller fuel index limit tooLarge tag tagBytes
        checkTags fuel limit tooLarge rawTags rounds (index + 1) tagBytes
      else return ()

def collect : (fuel : Nat) → ι → Reads σ (List (Foreign ρ))
  | 0, _ => throw .endless
  | fuel + 1, iterator => do
      match ← caller.next iterator with
      | none => return []
      | some (entry, iterator) => return entry :: (← collect fuel iterator)

def spread (fuel : Nat) (tag : Foreign ρ) : Reads σ (List (Foreign ρ)) := do
  let iterator ← caller.iterator tag
  collect caller fuel iterator

/-- `LengthOfArrayLike`. -/
def toLength : Number → Nat
  | .finite value => min value.floor.toNat MAX_SAFE_INTEGER
  | .infinity => MAX_SAFE_INTEGER
  | .negInfinity | .nan => 0

/-- The items from `place` on, as the language's `map` visits them. -/
def mapItems (fuel : Nat) (rawTags : ρ) :
    (left place : Nat) → Reads σ (List (Option (List (Foreign ρ))))
  | 0, _ => return []
  | left + 1, place => do
      if ← caller.has rawTags place then
        let tag ← caller.get rawTags (.index place)
        let copy ← spread caller fuel tag
        return some copy :: (← mapItems fuel rawTags left (place + 1))
      else return none :: (← mapItems fuel rawTags left (place + 1))

def copyTags (fuel : Nat) (rawTags : ρ) : Reads σ (CopiedTags ρ) := do
  match ← caller.map rawTags with
  | some answer => return .answered answer
  | none =>
    let length ← toNumber caller (← caller.get rawTags (.name "length"))
    match ← caller.species rawTags (toLength length) with
    | some answer => return .answered answer
    | none =>
      if 2 ^ 32 ≤ toLength length then throw .foreign
      else return .own (← mapItems caller fuel rawTags (toLength length) 0)

/-- `undefined` where the property is, and what a second read of it makes. -/
def readDefined (reference : ρ) (name : String) (check : Foreign ρ → Reads σ α) :
    Reads σ (Option α) := do
  match ← caller.get reference (.name name) with
  | .undefined => return none
  | _ => some <$> check (← caller.get reference (.name name))

end Reading

/-! ## The text that is measured -/

section Text

variable {ρ : Type}

def textOf : Foreign ρ → Option Units
  | .text text => some text
  | _ => none

def CopiedTags.texts : CopiedTags ρ → Option (List (Option (List Units)))
  | .own tags => tags.mapM fun tag =>
    match tag with
    | none => some none
    | some values => some <$> values.mapM textOf
  | .answered _ => none

/-- A hole is written as `null`. -/
def tagText : Option (List Units) → Units
  | none => Units.ofString "null"
  | some values => Units.bracketed (values.map Units.quote)

def eventText (kind : Nat) (content : Units) (tags : List (Option (List Units)))
    (created_at : Option Nat) (pubkey : Option Units) : Units :=
  Units.braced ([(Units.ofString "kind", Units.digits kind),
    (Units.ofString "content", Units.quote content),
    (Units.ofString "tags", Units.bracketed (tags.map tagText))] ++
      (created_at.map fun time => (Units.ofString "created_at", Units.digits time)).toList ++
      (pubkey.map fun key => (Units.ofString "pubkey", Units.quote key)).toList)

variable {σ ι : Type}

def stringify (caller : Caller σ ρ ι) (event : CopiedEvent ρ) : Reads σ Units :=
  match event.tags.texts with
  | some tags => return eventText event.kind event.content tags event.created_at event.pubkey
  | none => caller.stringify event

def validateTemplate (caller : Caller σ ρ ι) (fuel : Nat) (value : Foreign ρ) (limit : Int)
    (tooLarge : SignerError) : Reads σ (CopiedEvent ρ × Nat) := do
  match ← isRecord caller value with
  | none => fail "signEvent needs an event template"
  | some template =>
    let kind ← requireNonNegativeInteger (← caller.get template (.name "kind")) "event.kind" MAX_KIND
    let content ← requireString (← caller.get template (.name "content")) "event.content"
    if limit < content.length then refuse tooLarge
    else
      match ← caller.get template (.name "tags") with
      | .object rawTags =>
        if !(← caller.isArray rawTags) then fail "event.tags must be an array"
        else
          let length ← toNumber caller (← caller.get rawTags (.name "length"))
          if (Number.finite MAX_EVENT_TAGS).lt length then
            fail ("event.tags may hold at most " ++ toString MAX_EVENT_TAGS ++ " tags")
          else
            checkTags caller fuel limit tooLarge rawTags fuel 0 0
            let tags ← copyTags caller fuel rawTags
            let created_at ← readDefined caller template "created_at" fun value =>
              requireNonNegativeInteger value "event.created_at" MAX_SAFE_INTEGER
            let pubkey ← readDefined caller template "pubkey" fun value =>
              requirePubkey value "event.pubkey"
            let event : CopiedEvent ρ := { kind, content, tags, created_at, pubkey }
            let bytes := utf8ByteLength (← stringify caller event)
            if limit < bytes then refuse tooLarge else return (event, bytes)
      | _ => fail "event.tags must be an array"

end Text

end NostrWot.Signing.Untrusted
