import NostrWot.Data.Value
import NostrWot.Signing.Types

namespace NostrWot.Signing

open NostrWot.Data NostrWot.Permissions

/-! # The boundary

What a request may call itself: its id and its origin, read from an untrusted
object before anything else of it.
-/

def MAX_REQUEST_ID_LENGTH : Nat := 256

def MAX_ORIGIN_IDENTIFIER_LENGTH : Nat := 512

def MAX_ORIGIN_DISPLAY_NAME_LENGTH : Nat := 128

def MAX_ORIGIN_ICON_LENGTH : Nat := 2048

def ORIGIN_KINDS : List OriginKind := [.web, .nip46, .nip55, .lan, .localApp]

def invalid (message : String) : SignerError := ⟨.invalid_request, message⟩

def requireString (value : Data.Value) (what : String) : Except SignerError String :=
  match value with
  | .text text => .ok text
  | _ => .error (invalid (what ++ " must be a string"))

def requireNonEmptyString (value : Data.Value) (what : String) : Except SignerError String := do
  let text ← requireString value what
  if text = "" then throw (invalid (what ++ " must not be empty")) else return text

def requireBoundedString (value : Data.Value) (what : String) (max : Nat) :
    Except SignerError String := do
  let text ← requireString value what
  if max < utf16Length text then
    throw (invalid (what ++ " may be at most " ++ toString max ++ " characters"))
  else return text

def requirePubkey (value what : String) : Except SignerError String :=
  if isHex64 value.toList then .ok value
  else .error (invalid (what ++ " must be 64 lowercase hex characters"))

/-- `identifier.replace(/\.+$/, '').length === 0`. -/
def isAllDots (identifier : String) : Bool := identifier.toList.all (· = '.')

def canonicalIdentifier (kind : OriginKind) (identifier : String) : Except SignerError String :=
  match kind with
  | .web =>
    match canonicalHttpOrigin identifier, canonicalHostname identifier with
    | some origin, _ => .ok origin
    | none, some host =>
      if host = "null" then
        .error (invalid ("origin.identifier is an opaque origin (null) and cannot hold " ++
          "permissions"))
      else .ok host
    | none, none =>
      if isAllDots identifier then .error (invalid "origin.identifier must not be empty")
      else .error (invalid ("origin.identifier for a web origin must be an exact http(s) " ++
        "origin or a bare hostname"))
  | .nip46 =>
    requirePubkey (String.ofList (toLowerCase identifier.toList))
      "origin.identifier for a nip46 origin"
  | _ => .ok identifier

/-- A field that may be missing. -/
def optionalBoundedString (value : Data.Value) (what : String) (max : Nat) :
    Except SignerError (Option String) :=
  if value.isDefined then some <$> requireBoundedString value what max else .ok none

def isRecord : Data.Value → Bool
  | .object _ => true
  | _ => false

def validateOrigin (value : Data.Value) : Except SignerError RequestOrigin := do
  if !isRecord value then throw (invalid "origin must be an object")
  let named := (value.field "kind").asText?.bind fun name => ORIGIN_KINDS.find? (·.name = name)
  match named with
  | none =>
    throw (invalid ("origin.kind must be one of " ++
      ", ".intercalate (ORIGIN_KINDS.map OriginKind.name)))
  | some kind =>
    let bounded ← requireBoundedString (value.field "identifier") "origin.identifier"
      MAX_ORIGIN_IDENTIFIER_LENGTH
    let identifier ← requireNonEmptyString (.text bounded) "origin.identifier"
    let identifier ← canonicalIdentifier kind identifier
    let displayName ← optionalBoundedString (value.field "displayName") "origin.displayName"
      MAX_ORIGIN_DISPLAY_NAME_LENGTH
    let icon ← optionalBoundedString (value.field "icon") "origin.icon" MAX_ORIGIN_ICON_LENGTH
    return { kind, identifier, displayName, icon }

/-- The id and the origin of a request, which `validate` reads first. -/
def validateRequester (input : Data.Value) : Except SignerError (String × RequestOrigin) := do
  if !isRecord input then throw (invalid "request must be an object")
  let bounded ← requireBoundedString (input.field "id") "id" MAX_REQUEST_ID_LENGTH
  let id ← requireNonEmptyString (.text bounded) "id"
  let origin ← validateOrigin (input.field "origin")
  return (id, origin)

end NostrWot.Signing
