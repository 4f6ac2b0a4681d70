import Mathlib.Algebra.Group.Nat.Defs
import Mathlib.Data.List.TakeDrop
import Mathlib.Data.List.TakeWhile
import Mathlib.Data.Option.Basic

namespace NostrWot.Permissions

/-! # Origins and labels

The one spelling of an http(s) origin, and the stored labels that a caller's
rules may come from.  Text is read as its characters.
-/

abbrev Text : Type := List Char

/-- `String.prototype.toLowerCase` as far as the patterns below can see it: the
Kelvin sign is the one character beyond ASCII that lowers into ASCII. -/
def lowerChar (char : Char) : Char :=
  if char = '\u212a' then 'k' else char.toLower

def toLowerCase (text : Text) : Text := text.map lowerChar

def isOctalDigit (char : Char) : Bool := '0' ≤ char && char ≤ '7'

def isHexDigit (char : Char) : Bool :=
  char.isDigit || ('a' ≤ char && char ≤ 'f') || ('A' ≤ char && char ≤ 'F')

def digitValue (char : Char) : Nat :=
  if char.isDigit then char.toNat - '0'.toNat
  else if 'a' ≤ char && char ≤ 'f' then char.toNat - 'a'.toNat + 10
  else char.toNat - 'A'.toNat + 10

/-- `parseInt(text, base)` of digits of that base. -/
def parseInt (base : Nat) (text : Text) : Nat :=
  text.foldl (fun value char => value * base + digitValue char) 0

/-- `Array.prototype.join`. -/
def join (separator : Text) (parts : List Text) : Text := List.intercalate separator parts

structure SchemePort where
  scheme : Text
  port : Nat

def HTTP_PORTS : List SchemePort := [⟨"http".toList, 80⟩, ⟨"https".toList, 443⟩]

def WEB_SOCKET_PORTS : List SchemePort := [⟨"ws".toList, 80⟩, ⟨"wss".toList, 443⟩]

/-- The names that a plain object has from `Object.prototype`. -/
def INHERITED_NAMES : List String :=
  ["constructor", "__defineGetter__", "__defineSetter__", "hasOwnProperty", "__lookupGetter__",
    "__lookupSetter__", "isPrototypeOf", "propertyIsEnumerable", "toString", "valueOf", "__proto__",
    "toLocaleString"]

/-- `defaultPorts[scheme]`: an inherited member is found too, and is no number. -/
def defaultPort (ports : List SchemePort) (scheme : Text) : Option (Option Nat) :=
  match ports.find? fun entry => entry.scheme = scheme with
  | some entry => some (some entry.port)
  | none => if INHERITED_NAMES.contains (String.ofList scheme) then some none else none

def isSchemeChar (char : Char) : Bool :=
  char.isAlphanum || char = '+' || char = '.' || char = '-'

/-- `ORIGIN_SHAPE`: the scheme and the authority of `scheme://authority`. -/
def originShape (value : Text) : Option (Text × Text) :=
  match value.span (· ≠ ':') with
  | (scheme, ':' :: '/' :: '/' :: authority) =>
    match scheme with
    | first :: rest =>
      if first.isAlpha && rest.all isSchemeChar &&
          authority.all (fun char => char ≠ '/' && char ≠ '?' && char ≠ '#') then
        some (scheme, authority)
      else none
    | [] => none
  | _ => none

def isDomainChar (char : Char) : Bool :=
  char.isLower || char.isDigit || char = '_' || char = '-'

/-- `DOMAIN`: non-empty labels between dots, one trailing dot allowed. -/
def isDomain (text : Text) : Bool :=
  let labels := text.splitOn '.'
  let labels := if 1 < labels.length && labels.getLast? = some [] then labels.dropLast else labels
  labels.all fun label => !label.isEmpty && label.all isDomainChar

def isIpv4Part (part : Text) : Bool :=
  match part with
  | '0' :: mark :: digits =>
    if mark = 'x' || mark = 'X' then digits.all isHexDigit else part.all Char.isDigit
  | _ => !part.isEmpty && part.all Char.isDigit

/-- One part of an IPv4 address, or nothing where the source answers `false`. -/
def ipv4Value (part : Text) : Option Nat :=
  if !isIpv4Part part then none
  else
    match part with
    | '0' :: mark :: digits =>
      if mark = 'x' || mark = 'X' then some (parseInt 16 digits)
      else if part.all isOctalDigit then some (parseInt 8 part)
      else none
    | _ => some (parseInt 10 part)

/-- The three answers of `canonicalIpv4`: `null`, `false` and an address. -/
inductive Ipv4 where
  | notNumeric
  | invalid
  | address (text : Text)

def canonicalIpv4 (host : Text) : Ipv4 :=
  let parts := host.splitOn '.'
  let parts := if 1 < parts.length && parts.getLast? = some [] then parts.dropLast else parts
  if !isIpv4Part (parts.getLast?.getD []) then .notNumeric
  else if 4 < parts.length then .invalid
  else
    match parts.mapM ipv4Value with
    | none => .invalid
    | some values =>
      let numbers := values.dropLast
      let tail := values.getLast?.getD 0
      if numbers.any (255 < ·) then .invalid
      else if 256 ^ (4 - numbers.length) ≤ tail then .invalid
      else
        let address := numbers.zipIdx.foldl
          (fun address (value, index) => address + value * 256 ^ (3 - index)) tail
        .address (join ['.'] ([24, 16, 8, 0].map fun shift =>
          Nat.toDigits 10 (address / 2 ^ shift % 256)))

/-- The text split at every `::`. -/
def splitOnDoubleColon : Text → List Text
  | [] => [[]]
  | ':' :: ':' :: rest => [] :: splitOnDoubleColon rest
  | char :: rest =>
    match splitOnDoubleColon rest with
    | part :: parts => (char :: part) :: parts
    | [] => [[char]]

def isDottedQuad (text : Text) : Bool :=
  let parts := text.splitOn '.'
  parts.length = 4 && parts.all fun part => !part.isEmpty && part.all Char.isDigit

/-- The part after the last `:`, and everything up to and including it. -/
def splitTail (text : Text) : Text × Text :=
  let tail := (text.reverse.takeWhile (· ≠ ':')).reverse
  (text.take (text.length - tail.length), tail)

/-- A dotted-quad tail rewritten into its two hex groups; nothing when the tail
is no address. -/
def foldDottedTail (text : Text) : Option Text :=
  let (front, tail) := splitTail text
  if isDottedQuad tail then
    match canonicalIpv4 tail with
    | .address quad =>
      match (quad.splitOn '.').map (parseInt 10) with
      | [first, second, third, fourth] =>
        some (front ++ join [':'] ([first * 256 + second, third * 256 + fourth].map
          (Nat.toDigits 16)))
      | _ => none
    | _ => none
  else some text

def parseGroups (part : Text) : Option (List Nat) :=
  if part.isEmpty then some []
  else (part.splitOn ':').mapM fun group =>
    if group.isEmpty || 4 < group.length then none else some (parseInt 16 group)

/-- The zero runs of `groups` from position `start` on: where each begins and
how long it is. -/
def zeroRuns : (start : Nat) → List Nat → List (Nat × Nat)
  | _, [] => []
  | start, group :: rest =>
    if group ≠ 0 then zeroRuns (start + 1) rest
    else
      match zeroRuns (start + 1) rest with
      | (next, length) :: runs =>
        if next = start + 1 then (start, length + 1) :: runs
        else (start, 1) :: (next, length) :: runs
      | [] => [(start, 1)]

def longestZeroRun (groups : List Nat) : Option (Nat × Nat) :=
  (zeroRuns 0 groups).foldl (fun best run =>
    if run.2 < 2 then best
    else
      match best with
      | some chosen => if chosen.2 < run.2 then some run else best
      | none => some run) none

def ipv6Groups (text : Text) : Option (List Nat) :=
  match splitOnDoubleColon text with
  | [whole] =>
    match parseGroups whole with
    | some groups => if groups.length = 8 then some groups else none
    | none => none
  | [first, second] =>
    match parseGroups first, parseGroups second with
    | some head, some tail =>
      if 8 - head.length - tail.length < 1 then none
      else some (head ++ List.replicate (8 - head.length - tail.length) 0 ++ tail)
    | _, _ => none
  | _ => none

def canonicalIpv6 (inner : Text) : Option Text :=
  match foldDottedTail (toLowerCase inner) with
  | none => none
  | some text =>
    if text.isEmpty || !text.all (fun char => char = ':' || isHexDigit char) then none
    else
      match ipv6Groups text with
      | none => none
      | some groups =>
        let hex := groups.map (Nat.toDigits 16)
        match longestZeroRun groups with
        | none => some ('[' :: join [':'] hex ++ [']'])
        | some (start, length) => some ('[' :: join [':'] (hex.take start) ++ [':', ':'] ++
            join [':'] (hex.drop (start + length)) ++ [']'])

def splitAuthority (authority : Text) : Option (Text × Option Text) :=
  match authority with
  | '[' :: _ =>
    match authority.span (· ≠ ']') with
    | (host, close :: rest) =>
      match rest with
      | [] => some (host ++ [close], none)
      | ':' :: port => some (host ++ [close], some port)
      | _ => none
    | (_, []) => none
  | _ =>
    match authority.span (· ≠ ':') with
    | (host, _ :: port) => some (host, some port)
    | (host, []) => some (host, none)

def canonicalHost (hostText : Text) : Option Text :=
  match hostText with
  | '[' :: inner => canonicalIpv6 inner.dropLast
  | _ =>
    let lowered := toLowerCase hostText
    if !isDomain lowered then none
    else
      match canonicalIpv4 lowered with
      | .invalid => none
      | .notNumeric => some lowered
      | .address text => some text

def canonicalPort (standard : Option Nat) : Option Text → Option Text
  | none => some []
  | some text =>
    if text.isEmpty || 5 < text.length || !text.all Char.isDigit then none
    else if 65535 < parseInt 10 text then none
    else if some (parseInt 10 text) = standard then some []
    else some (':' :: Nat.toDigits 10 (parseInt 10 text))

def canonicalOriginText (value : Text) (ports : List SchemePort) : Option Text :=
  match originShape value with
  | none => none
  | some (shape, authority) =>
    let scheme := toLowerCase shape
    match defaultPort ports scheme with
    | none => none
    | some standard =>
      if authority.contains '@' then none
      else
        match splitAuthority authority with
        | none => none
        | some (hostText, portText) =>
          match canonicalHost hostText, canonicalPort standard portText with
          | some host, some port => some (scheme ++ "://".toList ++ host ++ port)
          | _, _ => none

def canonicalOrigin (value : String) (ports : List SchemePort) : Option String :=
  (canonicalOriginText value.toList ports).map String.ofList

def canonicalHttpOrigin (value : String) : Option String := canonicalOrigin value HTTP_PORTS

def canonicalWebSocketOrigin (value : String) : Option String :=
  canonicalOrigin value WEB_SOCKET_PORTS

def canonicalHostname (value : String) : Option String :=
  let lowered := ((toLowerCase value.toList).reverse.dropWhile (· = '.')).reverse
  if lowered.isEmpty || !isDomain lowered then none
  else
    match canonicalIpv4 lowered with
    | .invalid => none
    | .notNumeric => some (String.ofList lowered)
    | .address text => some (String.ofList text)

/-- What follows the first `//`. -/
def afterSlashes : Text → Option Text
  | '/' :: '/' :: rest => some rest
  | _ :: rest => afterSlashes rest
  | [] => none

def hostnameText (canonical : Text) : Text :=
  -- `indexOf` answers -1 where there is no `//`, and the slice then starts at 1
  let authority := (afterSlashes canonical).getD (canonical.drop 1)
  match authority with
  | '[' :: _ =>
    match authority.span (· ≠ ']') with
    | (host, close :: _) => host ++ [close]
    | (_, []) => []
  | _ => authority.takeWhile (· ≠ ':')

def hostnameOf (canonical : String) : String := String.ofList (hostnameText canonical.toList)

/-- The labels to read for a caller, most specific first. -/
def siteScopes (origin : String) : List String :=
  match canonicalHttpOrigin origin with
  | none => [origin]
  | some canonical => [canonical, hostnameOf canonical]

/-- The label a caller's rules are written under. -/
def storageLabel (origin : String) : String := (canonicalHttpOrigin origin).getD origin

theorem originShape_of_no_colon {text : Text} (free : ':' ∉ text) : originShape text = none := by
  have rest : text.dropWhile (· ≠ ':') = [] := by
    rw [List.dropWhile_eq_nil_iff]
    intro char member
    exact decide_eq_true fun same => free (same ▸ member)
  unfold originShape
  rw [List.span_eq_takeWhile_dropWhile, rest]

theorem originShape_of_bracket (rest : Text) : originShape ('[' :: rest) = none := by
  unfold originShape
  rw [List.span_eq_takeWhile_dropWhile, List.takeWhile_cons_of_pos (by decide)]
  split
  · next scheme authority split =>
    obtain ⟨same, -⟩ := Prod.mk.inj split
    subst same
    have first : '['.isAlpha = false := by decide
    simp [first]
  · rfl

theorem hostnameText_cases (canonical : Text) :
    (∃ rest, hostnameText canonical = '[' :: rest) ∨ ':' ∉ hostnameText canonical := by
  unfold hostnameText
  simp only
  split
  · next authority rest found =>
    rw [found, List.span_eq_takeWhile_dropWhile, List.takeWhile_cons_of_pos (by decide)]
    split
    · next host close after split =>
      obtain ⟨same, -⟩ := Prod.mk.inj split
      exact .inl ⟨_, by rw [← same]; rfl⟩
    · exact .inr List.not_mem_nil
  · right
    intro member
    simpa using List.mem_takeWhile_imp member

theorem canonicalHttpOrigin_hostnameOf (canonical : String) :
    canonicalHttpOrigin (hostnameOf canonical) = none := by
  have shape : originShape (hostnameText canonical.toList) = none := by
    rcases hostnameText_cases canonical.toList with ⟨rest, bracket⟩ | free
    · rw [bracket, originShape_of_bracket]
    · exact originShape_of_no_colon free
  simp [canonicalHttpOrigin, canonicalOrigin, canonicalOriginText, hostnameOf, shape]

theorem siteScopes_hostnameOf (canonical : String) :
    siteScopes (hostnameOf canonical) = [hostnameOf canonical] := by
  rw [siteScopes, canonicalHttpOrigin_hostnameOf]

theorem siteScopes_of_storageLabel {origin : String} (canonical : storageLabel origin = origin) :
    siteScopes origin = [origin] ∨ siteScopes origin = [origin, hostnameOf origin] := by
  unfold storageLabel at canonical
  unfold siteScopes
  cases found : canonicalHttpOrigin origin with
  | none => exact .inl rfl
  | some label =>
    rw [found, Option.getD_some] at canonical
    subst canonical
    exact .inr rfl

example : canonicalHttpOrigin "HTTPS://User.Example.COM:0443" = some "https://user.example.com" := by
  decide +kernel

-- `Object` stands in the table of every plain object
example : canonicalHttpOrigin "Constructor://example.com:80" =
    some "constructor://example.com:80" := by
  decide +kernel

example : siteScopes "http://0x7f.1:8080" = ["http://127.0.0.1:8080", "127.0.0.1"] := by
  decide +kernel

example : canonicalHttpOrigin "http://[1:0:0:2::127.0.0.1]" = some "http://[1::2:0:0:7f00:1]" := by
  decide +kernel

end NostrWot.Permissions
