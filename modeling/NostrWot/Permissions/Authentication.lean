import NostrWot.Data.Json
import NostrWot.Permissions.Store

namespace NostrWot.Permissions

open NostrWot.Data

/-! # Authentication events

A kind 22242 or 27235 event is a credential for the destination named in its
tags.  Here it is parsed, and given the keys that consents are stored under.
-/

def NIP98_KIND : Int := 27235

def AUTHENTICATION_SIGN_KINDS : List Int := [NIP42_KIND, NIP98_KIND]

/-- Where a request can come from. -/
inductive OriginKind where
  | web
  | nip46
  | nip55
  | lan
  | localApp
  deriving DecidableEq, Repr

def OriginKind.name : OriginKind → String
  | .web => "web"
  | .nip46 => "nip46"
  | .nip55 => "nip55"
  | .lan => "lan"
  | .localApp => "local"

/-- Who is asking, as the transport of the host established it. -/
inductive AuthenticationRequester where
  | web (origin : String)
  | nip46 (clientPubkey : String)
  | nip55 (packageName : String) (signatureDigest : Option String)
  | lan (peerId : String)
  | localApp (id : String)
  deriving DecidableEq

def AuthenticationRequester.kind : AuthenticationRequester → OriginKind
  | .web _ => .web
  | .nip46 _ => .nip46
  | .nip55 .. => .nip55
  | .lan _ => .lan
  | .localApp _ => .localApp

def AUTHENTICATION_REQUESTER_KINDS : List OriginKind := [.web, .nip46, .nip55, .lan, .localApp]

def NON_WEB_REQUESTER_KINDS : List OriginKind := [.nip46, .nip55, .lan, .localApp]

/-- What `String.prototype.trim` takes off. -/
def isTrimmed (char : Char) : Bool :=
  ('\t' ≤ char && char ≤ '\r') || char = ' ' || char = '\u00a0' || char = '\u1680' ||
    ('\u2000' ≤ char && char ≤ '\u200a') || char = '\u2028' || char = '\u2029' ||
    char = '\u202f' || char = '\u205f' || char = '\u3000' || char = '\ufeff'

def trim (text : Text) : Text := ((text.dropWhile isTrimmed).reverse.dropWhile isTrimmed).reverse

def isControl (char : Char) : Bool := char.toNat ≤ 32 || char.toNat = 127

def isLowerHex (char : Char) : Bool := char.isDigit || ('a' ≤ char && char ≤ 'f')

/-- `HEX_PUBKEY` and `SHA256_HEX`: 32 bytes as lowercase hex. -/
def isHex64 (text : Text) : Bool := text.length = 64 && text.all isLowerHex

def requesterLabel (value : String) : Except String String :=
  if value = "" ∨ value.toList ≠ trim value.toList then .error "Invalid authentication requester"
  else if value.toList.any isControl then .error "Invalid authentication requester"
  else .ok value

def authenticationRequesterKey : AuthenticationRequester → Except String String
  | .web origin =>
    if canonicalHttpOrigin origin = some origin then .ok origin
    else .error "Invalid authentication requester"
  | .nip46 clientPubkey => do
      let pubkey := toLowerCase (← requesterLabel clientPubkey).toList
      if isHex64 pubkey then return "nip46:" ++ String.ofList pubkey
      else throw "Invalid authentication requester"
  | .nip55 packageName _ => do return "nip55:" ++ (← requesterLabel packageName)
  | .lan peerId => do return "lan:" ++ (← requesterLabel peerId)
  | .localApp id => do return "local:" ++ (← requesterLabel id)

inductive Requester where
  | origin (text : String)
  | typed (requester : AuthenticationRequester)
  deriving DecidableEq

def webOriginOf : Requester → Except String (Option String)
  | .origin text => .ok (some text)
  | .typed (.web origin) => .ok (some origin)
  | .typed requester => do
      let _ ← authenticationRequesterKey requester
      return none

inductive AuthenticationScope where
  | once
  | site
  | connectedSites
  deriving DecidableEq, Repr

/-- What a parsed event asks to authenticate to. -/
structure AuthenticationRequest where
  protocol : AuthenticationProtocol
  url : String
  destination : String
  method : Option String := none
  crossOrigin : Bool
  deriving DecidableEq

structure AuthenticationParserOptions where
  legacyLoginOrigins : List String := []

/-- The parts of an event that the parser reads; a missing time is `NaN`. -/
structure AuthenticationEventInput where
  kind : Int
  content : String
  created_at : Option Int
  tags : List (List String)

def NIP42_MAX_AGE_SECONDS : Int := 600

def NIP98_MAX_AGE_SECONDS : Int := 60

def LOOPBACK_HOSTS : List String := ["localhost", "127.0.0.1", "[::1]"]

def HTTP_METHOD_SIGNS : List Char := "!#$%&'*+.^_`|~-".toList

def isHttpMethod (text : Text) : Bool :=
  !text.isEmpty && text.all fun char =>
    char.isDigit || ('A' ≤ char && char ≤ 'Z') || HTTP_METHOD_SIGNS.contains char

def ORIGIN_METADATA_TAGS : List String := ["origin", "client-origin"]

/-- `URL_SHAPE`: the scheme, the authority, and what follows them verbatim. -/
def urlShape (value : Text) : Option (Text × Text × Text) :=
  match value.span (· ≠ ':') with
  | (scheme, ':' :: '/' :: '/' :: rest) =>
    match scheme with
    | first :: others =>
      if first.isAlpha && others.all isSchemeChar then
        let (authority, tail) := rest.span fun char => char ≠ '/' && char ≠ '?'
        some (scheme, authority, tail)
      else none
    | [] => none
  | _ => none

def tagsNamed (event : AuthenticationEventInput) (name : String) : List (List String) :=
  event.tags.filter fun item => item.head? = some name

def tag (event : AuthenticationEventInput) (name : String) : Except String String :=
  match tagsNamed event name with
  | [[_, value]] =>
    if value = "" then .error ("Invalid authentication " ++ name ++ " tag") else .ok value
  | _ => .error ("Invalid authentication " ++ name ++ " tag")

def isLoopback (canonical : String) : Bool := LOOPBACK_HOSTS.contains (hostnameOf canonical)

structure Destination where
  origin : String
  full : String

def isRequestingOrigin (origin : String) : Bool :=
  canonicalHttpOrigin origin = some origin &&
    (!("http://".toList.isPrefixOf origin.toList) || isLoopback origin)

def destinationOf (raw : String) (requesterOrigin : Option String) (relay : Bool) :
    Option Destination :=
  if raw.toList ≠ trim raw.toList then none
  else if raw.toList.contains '#' then none
  else if raw.toList.any (fun char => isControl char || char = '\\') then none
  else if requesterOrigin.any (fun origin => !isRequestingOrigin origin) then none
  else
    match urlShape raw.toList with
    | none => none
    | some (shape, authority, tail) =>
      let scheme := toLowerCase shape
      let text := String.ofList (scheme ++ "://".toList ++ authority)
      match if relay then canonicalWebSocketOrigin text else canonicalHttpOrigin text with
      | none => none
      | some origin =>
        let insecure := if relay then "ws" else "http"
        if scheme = insecure.toList && !isLoopback origin then none
        else
          let path := if tail.head? = some '/' then tail else '/' :: tail
          some ⟨origin, origin ++ String.ofList path⟩

/-- An event time within `maxAge` seconds of `now`. -/
def isTimely (created_at : Option Int) (now maxAge : Int) : Bool :=
  match created_at with
  | some time => decide ((now - time).natAbs ≤ maxAge.toNat)
  | none => false

/-- Stated origins agree with the attested one. -/
def checkOriginTags (event : AuthenticationEventInput) (origin : Option String) :
    List String → Except String Unit
  | [] => .ok ()
  | name :: rest =>
    if (tagsNamed event name).isEmpty ∨ origin.isSome ∧ (tag event name).toOption = origin then
      checkOriginTags event origin rest
    else .error ("Invalid authentication " ++ name ++ " tag")

def parseLegacyLogin (event : AuthenticationEventInput) (origin : Option String) (now : Int)
    (options : AuthenticationParserOptions) : Except String AuthenticationRequest := do
  match origin with
  | none => throw "Invalid legacy authentication domain or format"
  | some origin =>
    if ¬ options.legacyLoginOrigins.contains origin ∨ canonicalHttpOrigin origin ≠ some origin ∨
        ¬ "https://".toList.isPrefixOf origin.toList then
      throw "Invalid legacy authentication domain or format"
    if (← tag event "domain") ≠ hostnameOf origin ∨ event.tags.any (fun item =>
        !(["domain", "challenge", "origin", "client-origin"].contains (item.headD ""))) then
      throw "Invalid legacy authentication domain or format"
    if (trim (← tag event "challenge").toList).isEmpty then
      throw "Invalid authentication challenge tag"
    if !isTimely event.created_at now NIP98_MAX_AGE_SECONDS then
      throw "Invalid authentication timestamp"
    if event.content ≠ "" then throw "Invalid authentication content"
    return { protocol := .legacyLogin, url := origin, destination := origin, crossOrigin := false }

def payloadFits (event : AuthenticationEventInput) : Bool :=
  match tagsNamed event "payload" with
  | [] => true
  | [[_, value]] => isHex64 value.toList
  | _ => false

/-- What an authentication event asks for; `none` for an ordinary event. -/
def parseAuthentication (event : AuthenticationEventInput) (requester : Requester) (now : Int)
    (options : AuthenticationParserOptions) : Except String (Option AuthenticationRequest) := do
  if event.kind ≠ NIP98_KIND ∧ event.kind ≠ NIP42_KIND then return none
  let relay := decide (event.kind = NIP42_KIND)
  let origin ← webOriginOf requester
  checkOriginTags event origin ORIGIN_METADATA_TAGS
  if relay ∧ (tagsNamed event "relay").isEmpty ∧ ¬ (tagsNamed event "domain").isEmpty then
    return some (← parseLegacyLogin event origin now options)
  let raw ← tag event (if relay then "relay" else "u")
  match destinationOf raw origin relay with
  | none => throw "Invalid authentication destination"
  | some destination =>
    if !isTimely event.created_at now (if relay then NIP42_MAX_AGE_SECONDS else NIP98_MAX_AGE_SECONDS)
        then throw "Invalid authentication timestamp"
    if event.content ≠ "" then throw "Invalid authentication content"
    if relay then
      let _ ← tag event "challenge"
      return some { protocol := .nip42, url := raw, destination := destination.full,
                    crossOrigin := true }
    else
      let method ← tag event "method"
      if !isHttpMethod method.toList then throw "Invalid authentication HTTP method"
      if !payloadFits event then throw "Invalid authentication payload tag"
      return some { protocol := .nip98, url := raw, destination := destination.origin,
                    method := some method, crossOrigin := decide (origin ≠ some destination.origin) }

def AuthenticationProtocol.name : AuthenticationProtocol → String
  | .nip42 => "nip42"
  | .nip98 => "nip98"
  | .legacyLogin => "legacy-login"

def authenticationKey (auth : AuthenticationRequest) : String :=
  Json.stringifyStrings [auth.protocol.name, auth.url, auth.method.getD ""]

def validAuthenticationScope (auth : AuthenticationRequest) (scope : AuthenticationScope) : Bool :=
  match auth.protocol, scope with
  | .legacyLogin, scope => scope = .once
  | _, .once | _, .site => true
  | protocol, .connectedSites => protocol = .nip42

end NostrWot.Permissions
