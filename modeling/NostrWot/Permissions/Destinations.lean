import NostrWot.Data.Outcome
import NostrWot.Permissions.Authentication
import NostrWot.Permissions.Endpoint
import Mathlib.Data.List.Infix

namespace NostrWot.Permissions

open NostrWot.Data

/-! # The destinations that are accepted

What an authentication event must name to be parsed, and when two events authenticate to the same
destination.
-/

/-- The hosts that plain schemes may reach. -/
def LOOPBACK : List Host :=
  [.domain "localhost".toList, .ipv4 (127 * 2 ^ 24 + 1), .ipv6 [0, 0, 0, 0, 0, 0, 0, 1]]

/-- The origin of a destination as the event spells it. -/
def statedOrigin (raw : String) : Option Text := (urlShape raw.toList).map fun shape =>
  toLowerCase shape.1 ++ "://".toList ++ shape.2.1

/-- What the event spells behind the origin. -/
def statedTail (raw : String) : Option Text := (urlShape raw.toList).map fun shape => shape.2.2

/-- A tail with its path; an absent one is `/`. -/
def withPath (tail : Text) : Text := if tail.head? = some '/' then tail else '/' :: tail

def portsFor (relay : Bool) : List SchemePort := if relay then WEB_SOCKET_PORTS else HTTP_PORTS

def secureScheme (relay : Bool) : String := if relay then "wss" else "https"

def insecureScheme (relay : Bool) : String := if relay then "ws" else "http"

/-- Encrypted, or on this machine. -/
def Endpoint.Private (relay : Bool) (endpoint : Endpoint) : Prop :=
  endpoint.scheme = (secureScheme relay).toList ∨
    endpoint.scheme = (insecureScheme relay).toList ∧ endpoint.host ∈ LOOPBACK

structure Destined (raw : String) (origin : Option String) (relay : Bool)
    (destination : Destination) : Prop where
  named : ∃ text endpoint tail, statedOrigin raw = some text ∧
    canonicalOrigin (String.ofList text) (portsFor relay) = some destination.origin ∧
    endpointOf (portsFor relay) text = some endpoint ∧ statedTail raw = some tail ∧
    destination.origin = String.ofList (endpoint.text (portsFor relay)) ∧
    destination.full = String.ofList (endpoint.text (portsFor relay) ++ withPath tail) ∧
    (endpoint.scheme ≠ "constructor".toList → endpoint.Private relay)
  page : ∀ page, origin = some page → canonicalHttpOrigin page = some page ∧
    (¬ namesScheme "constructor" page →
      ∃ endpoint, endpointOf HTTP_PORTS page.toList = some endpoint ∧ endpoint.Private false)

section Loopback

theorem afterSlashes_spelled {scheme rest : Text} (free : '/' ∉ scheme) :
    afterSlashes (scheme ++ ':' :: '/' :: '/' :: rest) = some rest := by
  induction scheme with
  | nil => rfl
  | cons first others ih =>
    have other : first ≠ '/' := fun same => free (same ▸ List.mem_cons_self)
    rw [List.cons_append, afterSlashes]
    · exact ih fun member => free (List.mem_cons_of_mem _ member)
    · intro tail same
      exact absurd same other

theorem splitAuthority_host {authority host : Text} {portText : Option Text}
    (split : splitAuthority authority = some (host, portText)) (prior : Text)
    (free : '/' ∉ prior) :
    hostnameText (prior ++ ':' :: '/' :: '/' :: authority) = host := by
  unfold hostnameText
  rw [afterSlashes_spelled free, Option.getD_some]
  unfold splitAuthority at split
  dsimp only
  split at split
  · next rest =>
    split at split
    · next before close after parts =>
      split at split
      · cases split
        rfl
      · cases split
        rfl
      · contradiction
    · contradiction
  · next plain =>
    have taken : authority.takeWhile (· ≠ ':') = host := by
      rw [List.span_eq_takeWhile_dropWhile] at split
      split at split
      · next parts =>
        obtain ⟨same, -⟩ := Prod.mk.inj parts
        cases split
        exact same
      · next parts =>
        obtain ⟨same, -⟩ := Prod.mk.inj parts
        cases split
        exact same
    exact taken

theorem plainScheme_chars {scheme : Text} (plain : isPlainScheme scheme = true) {char : Char}
    (member : char ∈ scheme) : isSchemeChar char = true := by
  cases scheme with
  | nil => contradiction
  | cons first rest =>
    simp only [isPlainScheme, Bool.and_eq_true, List.all_eq_true] at plain
    rcases List.mem_cons.mp member with rfl | behind
    · simp [isSchemeChar, Char.isAlphanum, plain.1.1]
    · exact plain.1.2 char behind

theorem hostnameText_text {ports : List SchemePort} {value : Text} {endpoint : Endpoint}
    (named : endpointOf ports value = some endpoint) :
    hostnameText (endpoint.text ports) = endpoint.host.text := by
  obtain ⟨plain, proper, portText, port, ported, effective⟩ := endpointOf_parts named
  obtain ⟨written, back, split, _, _⟩ :=
    splitAuthority_spelled proper.hosted (standardPort ports endpoint.scheme) ported
  rw [← effective] at split
  have free : '/' ∉ endpoint.scheme := fun member => absurd (plainScheme_chars plain member) (by decide)
  rw [endpoint.text_eq]
  exact splitAuthority_host split endpoint.scheme free

theorem isLoopback_text {ports : List SchemePort} {value : Text} {endpoint : Endpoint}
    (named : endpointOf ports value = some endpoint) :
    isLoopback (String.ofList (endpoint.text ports)) = true ↔ endpoint.host ∈ LOOPBACK := by
  have proper := (endpointOf_parts named).2.1
  have texts : LOOPBACK.map (fun host => String.ofList host.text) = LOOPBACK_HOSTS := by decide
  have each : ∀ host ∈ LOOPBACK, host.Proper := by
    intro host member
    simp only [LOOPBACK, List.mem_cons, List.not_mem_nil, or_false] at member
    rcases member with rfl | rfl | rfl
    · exact ⟨by decide, by decide⟩
    · show 127 * 2 ^ 24 + 1 < 2 ^ 32
      decide
    · exact ⟨rfl, by decide⟩
  rw [isLoopback, hostnameOf, String.toList_ofList, hostnameText_text named, ← texts,
    List.contains_iff_mem, List.mem_map]
  constructor
  · rintro ⟨host, member, same⟩
    have read := namedHost_text (each host member)
    rw [String.ofList_inj.mp same, namedHost_text proper] at read
    rw [Option.some.inj read]
    exact member
  · exact fun member => ⟨endpoint.host, member, rfl⟩

end Loopback

section Destination

variable {raw : String} {origin : Option String} {relay : Bool} {destination : Destination}

theorem endpointOf_scheme {ports : List SchemePort} {scheme rest : Text} {endpoint : Endpoint}
    (named : endpointOf ports (scheme ++ ':' :: rest) = some endpoint) (free : ':' ∉ scheme) :
    endpoint.scheme = toLowerCase scheme := by
  unfold endpointOf at named
  obtain ⟨⟨shape, authority⟩, shaped, named⟩ := Option.bind_eq_some_iff.mp named
  dsimp only at named
  have anonymous := Option.ite_none_left_eq_some.mp named
  obtain ⟨⟨hostText, portText⟩, _, named⟩ := Option.bind_eq_some_iff.mp anonymous.2
  obtain ⟨host, _, named⟩ := Option.bind_eq_some_iff.mp named
  obtain ⟨port, _, named⟩ := Option.bind_eq_some_iff.mp named
  cases named
  unfold originShape at shaped
  rw [span_append free (.inr rfl)] at shaped
  split at shaped
  · next parts =>
    cases parts
    split at shaped
    · have whole := Option.ite_none_right_eq_some.mp shaped
      rw [← (Prod.mk.inj (Option.some.inj whole.2)).1]
    · contradiction
  · contradiction

theorem urlShape_plain {value shape authority tail : Text}
    (shaped : urlShape value = some (shape, authority, tail)) :
    isPlainScheme (toLowerCase shape) = true := by
  unfold urlShape at shaped
  split at shaped
  · next scheme rest _ =>
    cases scheme with
    | nil => contradiction
    | cons first others =>
      have whole := Option.ite_none_right_eq_some.mp shaped
      rw [Bool.and_eq_true] at whole
      obtain ⟨⟨letter, chars⟩, same⟩ := whole
      rw [← (Prod.mk.inj (Option.some.inj same)).1]
      exact isPlainScheme_lower letter chars
  · contradiction

theorem page_of_isRequestingOrigin {page : String} (asks : isRequestingOrigin page = true) :
    canonicalHttpOrigin page = some page ∧ (¬ namesScheme "constructor" page →
      ∃ endpoint, endpointOf HTTP_PORTS page.toList = some endpoint ∧ endpoint.Private false) := by
  simp only [isRequestingOrigin, Bool.and_eq_true, decide_eq_true_eq, Bool.or_eq_true,
    Bool.not_eq_true'] at asks
  obtain ⟨canonical, secure⟩ := asks
  refine ⟨canonical, fun other => ?_⟩
  obtain ⟨endpoint, named, same, listed | inherited⟩ := canonicalOrigin_named canonical
  · refine ⟨endpoint, named, ?_⟩
    obtain ⟨entry, member, scheme⟩ := listed
    simp only [HTTP_PORTS, List.mem_cons, List.not_mem_nil, or_false] at member
    rcases member with rfl | rfl
    · right
      refine ⟨scheme.symm, ?_⟩
      have starts : "http://".toList.isPrefixOf page.toList = true := by
        rw [same, List.isPrefixOf_iff_prefix, Endpoint.text, ← scheme, List.append_assoc]
        simp only [String.toList_ofList]
        exact List.prefix_append _ _
      rw [starts] at secure
      rw [← isLoopback_text named, ← same]
      exact secure.resolve_left (by simp)
    · exact .inl scheme.symm
  · exact absurd (namesScheme_of_named named inherited) other

theorem destinationOf_destined (found : destinationOf raw origin relay = some destination) :
    Destined raw origin relay destination := by
  unfold destinationOf at found
  split at found
  · contradiction
  split at found
  · contradiction
  split at found
  · contradiction
  split at found
  · contradiction
  · next asking =>
    split at found
    · contradiction
    · next shape authority tail shaped =>
      dsimp only at found
      split at found
      · contradiction
      · next canonical answered =>
        obtain ⟨reachable, built⟩ := Option.ite_none_left_eq_some.mp found
        have plain := urlShape_plain shaped
        have free : ':' ∉ toLowerCase shape := fun member =>
          absurd (plainScheme_chars plain member) (by decide)
        have answered : canonicalOrigin (String.ofList (toLowerCase shape ++ "://".toList ++
            authority)) (portsFor relay) = some canonical := by
          cases relay <;> exact answered
        obtain ⟨endpoint, named, same, known⟩ := canonicalOrigin_named answered
        rw [String.toList_ofList] at named
        have scheme : endpoint.scheme = toLowerCase shape := by
          rw [List.append_assoc] at named
          rw [endpointOf_scheme named free, toLowerCase_of_plain plain]
        have near : endpoint.scheme = (insecureScheme relay).toList → endpoint.host ∈ LOOPBACK := by
          intro insecure
          rw [← isLoopback_text named, ← same]
          by_contra far
          apply reachable
          rw [Bool.not_eq_true] at far
          rw [← scheme, insecure, far]
          cases relay <;> rfl
        have listed : endpoint.scheme ≠ "constructor".toList → endpoint.Private relay := by
          intro other
          obtain ⟨entry, member, spelled⟩ := known.resolve_right other
          cases relay with
          | false =>
            simp only [portsFor, HTTP_PORTS, Bool.false_eq_true, if_false, List.mem_cons,
              List.not_mem_nil, or_false] at member
            rcases member with rfl | rfl
            · exact .inr ⟨spelled.symm, near spelled.symm⟩
            · exact .inl spelled.symm
          | true =>
            simp only [portsFor, WEB_SOCKET_PORTS, if_true, List.mem_cons,
              List.not_mem_nil, or_false] at member
            rcases member with rfl | rfl
            · exact .inr ⟨spelled.symm, near spelled.symm⟩
            · exact .inl spelled.symm
        cases built
        refine ⟨⟨_, endpoint, tail, ?_, answered, named, ?_, same, ?_, listed⟩,
          fun page isPage => ?_⟩
        · rw [statedOrigin, shaped]
          rfl
        · rw [statedTail, shaped]
          rfl
        · rw [same, ← String.ofList_append]
          rfl
        · rw [isPage, Option.any_some] at asking
          exact page_of_isRequestingOrigin (by simpa using asking)

end Destination

section Parsed

variable {event other : AuthenticationEventInput} {requester asker : Requester} {now later : Int}
  {options choices : AuthenticationParserOptions} {request demand : AuthenticationRequest}

def isRelayEvent (event : AuthenticationEventInput) : Bool := event.kind = NIP42_KIND

def destinationTag (event : AuthenticationEventInput) : String :=
  if isRelayEvent event then "relay" else "u"

theorem parseLegacyLogin_protocol {origin : Option String}
    (parsed : parseLegacyLogin event origin now options = .ok request) :
    request.protocol = .legacyLogin := by
  unfold parseLegacyLogin at parsed
  cases origin with
  | none => cases parsed
  | some origin =>
    dsimp only at parsed
    split at parsed
    · cases parsed
    obtain ⟨domain, _, parsed⟩ := bind_ok parsed
    split at parsed
    · cases parsed
    obtain ⟨challenge, _, parsed⟩ := bind_ok parsed
    split at parsed
    · cases parsed
    split at parsed
    · cases parsed
    split at parsed
    · cases parsed
    cases parsed
    rfl

theorem parseAuthentication_cases
    (parsed : parseAuthentication event requester now options = .ok (some request))
    (current : request.protocol ≠ .legacyLogin) :
    ∃ origin raw destination, webOriginOf requester = .ok origin ∧
      checkOriginTags event origin ORIGIN_METADATA_TAGS = .ok () ∧
      tag event (destinationTag event) = .ok raw ∧
      destinationOf raw origin (isRelayEvent event) = some destination ∧
      request.destination = if isRelayEvent event then destination.full else destination.origin := by
  unfold parseAuthentication at parsed
  dsimp only at parsed
  split at parsed
  · cases parsed
  obtain ⟨origin, asked, parsed⟩ := bind_ok parsed
  obtain ⟨_, agree, parsed⟩ := bind_ok parsed
  split at parsed
  · obtain ⟨login, logged, parsed⟩ := bind_ok parsed
    cases parsed
    exact absurd (parseLegacyLogin_protocol logged) current
  obtain ⟨raw, tagged, parsed⟩ := bind_ok parsed
  split at parsed
  · cases parsed
  · next destination found =>
    refine ⟨origin, raw, destination, asked, agree, tagged, found, ?_⟩
    obtain ⟨_, parsed⟩ := check_ok parsed
    obtain ⟨_, parsed⟩ := check_ok parsed
    by_cases relay : isRelayEvent event = true
    · rw [if_pos (by exact relay)] at parsed ⊢
      obtain ⟨_, _, parsed⟩ := bind_ok parsed
      cases parsed
      rfl
    · rw [if_neg (by exact relay)] at parsed ⊢
      obtain ⟨method, _, parsed⟩ := bind_ok parsed
      obtain ⟨_, parsed⟩ := check_ok parsed
      obtain ⟨_, parsed⟩ := check_ok parsed
      cases parsed
      rfl

theorem tag_ok {name value : String} (tagged : tag event name = .ok value) :
    ∃ key, tagsNamed event name = [[key, value]] := by
  unfold tag at tagged
  split at tagged
  · next key found only =>
    split at tagged
    · contradiction
    · cases tagged
      exact ⟨key, only⟩
  · contradiction

theorem checkOriginTags_ok {origin : Option String} {names : List String}
    (agree : checkOriginTags event origin names = .ok ()) :
    ∀ name ∈ names, ∀ item ∈ tagsNamed event name, ∃ page, origin = some page ∧
      item = [name, page] := by
  induction names with
  | nil => simp
  | cons first rest ih =>
    unfold checkOriginTags at agree
    split at agree
    · next fits =>
      intro name member item among
      rcases List.mem_cons.mp member with rfl | behind
      · rcases fits with none | ⟨_, same⟩
        · rw [List.isEmpty_iff.mp none] at among
          contradiction
        · cases tagged : tag event name with
          | error fault =>
            rw [tagged] at same
            cases origin with
            | none => contradiction
            | some page => contradiction
          | ok page =>
            obtain ⟨key, only⟩ := tag_ok tagged
            rw [tagged] at same
            refine ⟨page, same.symm, ?_⟩
            have named := (List.mem_filter.mp among).2
            rw [only, List.mem_singleton] at among
            rw [among] at named ⊢
            simpa using named
      · exact ih agree name behind item among
    · contradiction

structure Sound (event : AuthenticationEventInput) (requester : Requester)
    (request : AuthenticationRequest) : Prop where
  /-- The destination starts with the origin that the event names. -/
  destination : ∃ raw text endpoint, tag event (destinationTag event) = .ok raw ∧
    statedOrigin raw = some text ∧
    endpointOf (portsFor (isRelayEvent event)) text = some endpoint ∧
    endpoint.text (portsFor (isRelayEvent event)) <+: request.destination.toList ∧
    (endpoint.scheme ≠ "constructor".toList → endpoint.Private (isRelayEvent event))
  page : ∀ page, webOriginOf requester = .ok (some page) → canonicalHttpOrigin page = some page ∧
    (¬ namesScheme "constructor" page →
      ∃ endpoint, endpointOf HTTP_PORTS page.toList = some endpoint ∧ endpoint.Private false)
  tags : ∀ name ∈ ORIGIN_METADATA_TAGS, ∀ item ∈ tagsNamed event name,
    ∃ page, webOriginOf requester = .ok (some page) ∧ item = [name, page]

def relayParts (raw : String) : Option (String × Text) := do
  let text ← statedOrigin raw
  let origin ← canonicalWebSocketOrigin (String.ofList text)
  let tail ← statedTail raw
  return (origin, withPath tail)

theorem sound_of_parsed
    (parsed : parseAuthentication event requester now options = .ok (some request))
    (current : request.protocol ≠ .legacyLogin) : Sound event requester request := by
  obtain ⟨origin, raw, destination, asked, agree, tagged, found, same⟩ :=
    parseAuthentication_cases parsed current
  obtain ⟨⟨text, endpoint, tail, stated, _, named, _, canonical, full, private'⟩, page⟩ :=
    destinationOf_destined found
  refine ⟨⟨raw, text, endpoint, tagged, stated, named, ?_, private'⟩, fun site isSite => ?_, ?_⟩
  · rw [same]
    split
    · rw [full, String.toList_ofList]
      exact List.prefix_append _ _
    · rw [canonical, String.toList_ofList]
  · rw [asked] at isSite
    exact page site (Except.ok.inj isSite)
  · intro name member item among
    obtain ⟨site, isSite, spelled⟩ := checkOriginTags_ok agree name member item among
    exact ⟨site, by rw [asked, isSite], spelled⟩

theorem withPath_starts (tail : Text) : (withPath tail).head? = some '/' := by
  unfold withPath
  split
  · next starts => exact starts
  · rfl

theorem relayParts_of_parsed
    (parsed : parseAuthentication event requester now options = .ok (some request))
    (current : request.protocol ≠ .legacyLogin) (relay : event.kind = NIP42_KIND) :
    ∃ raw endpoint path, tag event "relay" = .ok raw ∧
      relayParts raw = some (String.ofList (Endpoint.text WEB_SOCKET_PORTS endpoint), path) ∧
      path.head? = some '/' ∧ isPlainScheme endpoint.scheme = true ∧ endpoint.host.Proper ∧
      request.destination = String.ofList (endpoint.text WEB_SOCKET_PORTS ++ path) := by
  have isRelay : isRelayEvent event = true := decide_eq_true relay
  obtain ⟨origin, raw, destination, asked, agree, tagged, found, same⟩ :=
    parseAuthentication_cases parsed current
  rw [destinationTag, isRelay, if_pos rfl] at tagged
  rw [isRelay] at found same
  obtain ⟨⟨text, endpoint, tail, stated, answered, named, tailed, canonical, full, _⟩, _⟩ :=
    destinationOf_destined found
  have parts := endpointOf_parts named
  refine ⟨raw, endpoint, withPath tail, tagged, ?_, withPath_starts tail, parts.1, parts.2.1, ?_⟩
  · rw [canonical] at answered
    have answered : canonicalWebSocketOrigin (String.ofList text) =
      some (String.ofList (endpoint.text WEB_SOCKET_PORTS)) := answered
    simp only [relayParts, stated, answered, tailed, Option.bind_eq_bind, Option.bind_some]
    rfl
  · rw [same, if_pos rfl, full]
    rfl

theorem text_append_inj {ports : List SchemePort} {one two : Endpoint} {path way : Text}
    (same : one.text ports ++ path = two.text ports ++ way)
    (plain : isPlainScheme one.scheme = true) (plain' : isPlainScheme two.scheme = true)
    (proper : one.host.Proper) (proper' : two.host.Proper)
    (starts : path.head? = some '/') (starts' : way.head? = some '/') :
    one.text ports = two.text ports ∧ path = way := by
  have noColon : ∀ {scheme : Text}, isPlainScheme scheme = true → ':' ∉ scheme :=
    fun plain member => absurd (plainScheme_chars plain member) (by decide)
  have noSlash : ∀ {endpoint : Endpoint}, endpoint.host.Proper → '/' ∉ endpoint.host.text ++
      portSpelled (standardPort ports endpoint.scheme) endpoint.port :=
    fun proper member => (authority_chars proper _ _ '/' member).1 rfl
  rw [one.text_eq, two.text_eq, List.append_assoc, List.append_assoc] at same
  have split := congrArg (List.span (· ≠ ':')) same
  rw [List.cons_append, List.cons_append, span_append (noColon plain) (.inr rfl),
    span_append (noColon plain') (.inr rfl)] at split
  obtain ⟨scheme, rest⟩ := Prod.mk.inj split
  have authorities : (one.host.text ++ portSpelled (standardPort ports one.scheme) one.port) ++ path =
      (two.host.text ++ portSpelled (standardPort ports two.scheme) two.port) ++ way :=
    List.tail_eq_of_cons_eq (List.tail_eq_of_cons_eq (List.tail_eq_of_cons_eq rest))
  have cut := congrArg (List.span (· ≠ '/')) authorities
  rw [span_append (noSlash proper) (.inr starts), span_append (noSlash proper') (.inr starts')] at cut
  obtain ⟨authority, behind⟩ := Prod.mk.inj cut
  exact ⟨by rw [one.text_eq, two.text_eq, authority, scheme], behind⟩

/-- What is accepted is sound, and two relay destinations are equal if the relays' canonical origins
and their tails are. -/
theorem accepted_authentication
    (parsed : parseAuthentication event requester now options = .ok (some request))
    (current : request.protocol ≠ .legacyLogin)
    (parsed' : parseAuthentication other asker later choices = .ok (some demand))
    (current' : demand.protocol ≠ .legacyLogin) :
    Sound event requester request ∧
      (event.kind = NIP42_KIND → other.kind = NIP42_KIND →
        ∃ raw raw', tag event "relay" = .ok raw ∧ tag other "relay" = .ok raw' ∧
          (request.destination = demand.destination ↔ relayParts raw = relayParts raw')) := by
  refine ⟨sound_of_parsed parsed current, fun relay relay' => ?_⟩
  obtain ⟨raw, one, path, tagged, parts, starts, plain, proper, full⟩ :=
    relayParts_of_parsed parsed current relay
  obtain ⟨raw', two, way, tagged', parts', starts', plain', proper', full'⟩ :=
    relayParts_of_parsed parsed' current' relay'
  refine ⟨raw, raw', tagged, tagged', ?_⟩
  rw [parts, parts', full, full', String.ofList_inj]
  constructor
  · intro same
    have both := text_append_inj same plain plain' proper proper' starts starts'
    rw [both.1, both.2]
  · intro same
    obtain ⟨origin, behind⟩ := Prod.mk.inj (Option.some.inj same)
    rw [String.ofList_inj.mp origin, behind]

end Parsed

section Example

def challenged (relay : String) : AuthenticationEventInput where
  kind := NIP42_KIND
  content := ""
  created_at := some 0
  tags := [["relay", relay], ["challenge", "c"]]

def answered (relay destination : String) : AuthenticationRequest where
  protocol := .nip42
  url := relay
  destination := destination
  crossOrigin := true

theorem parsed_challenged : parseAuthentication (challenged "wss://relay.example?x")
      (.origin "https://a.example") 0 {} =
        .ok (some (answered "wss://relay.example?x" "wss://relay.example/?x")) ∧
    parseAuthentication (challenged "wss://relay.example/?x") (.origin "https://a.example") 0 {} =
      .ok (some (answered "wss://relay.example/?x" "wss://relay.example/?x")) := by
  constructor <;> rfl

theorem accepted_authentication_challenged :
    Sound (challenged "wss://relay.example?x") (.origin "https://a.example")
        (answered "wss://relay.example?x" "wss://relay.example/?x") ∧
      ((challenged "wss://relay.example?x").kind = NIP42_KIND →
        (challenged "wss://relay.example/?x").kind = NIP42_KIND →
        ∃ raw raw', tag (challenged "wss://relay.example?x") "relay" = .ok raw ∧
          tag (challenged "wss://relay.example/?x") "relay" = .ok raw' ∧
          ((answered "wss://relay.example?x" "wss://relay.example/?x").destination =
              (answered "wss://relay.example/?x" "wss://relay.example/?x").destination ↔
            relayParts raw = relayParts raw')) :=
  accepted_authentication parsed_challenged.1 (by decide) parsed_challenged.2 (by decide)

/-- The canonical origin and the tail of a relay address, where only no tail at all is `/`. -/
def relayTail (raw : String) : Option (String × Text) := do
  let text ← statedOrigin raw
  let origin ← canonicalWebSocketOrigin (String.ofList text)
  let tail ← statedTail raw
  return (origin, if tail = [] then ['/'] else tail)

/-- A query without a path is put behind one. -/
theorem destination_of_query :
    ¬ ∀ (event other : AuthenticationEventInput) (requester : Requester)
      (request demand : AuthenticationRequest) (raw raw' : String),
      parseAuthentication event requester 0 {} = .ok (some request) →
      parseAuthentication other requester 0 {} = .ok (some demand) →
      event.kind = NIP42_KIND → other.kind = NIP42_KIND →
      request.protocol ≠ .legacyLogin → demand.protocol ≠ .legacyLogin →
      tag event "relay" = .ok raw → tag other "relay" = .ok raw' →
      (request.destination = demand.destination ↔ relayTail raw = relayTail raw') := by
  intro claim
  have same := claim _ _ _ _ _ "wss://relay.example?x" "wss://relay.example/?x"
    parsed_challenged.1 parsed_challenged.2 rfl rfl (by decide) (by decide) rfl rfl
  have apart : relayTail "wss://relay.example?x" ≠ relayTail "wss://relay.example/?x" := by
    decide
  exact apart (same.mp rfl)

end Example

end NostrWot.Permissions
