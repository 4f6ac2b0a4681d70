import NostrWot.Data.Outcome
import NostrWot.Permissions.Endpoint
import NostrWot.Signing.Schema

namespace NostrWot.Signing

open NostrWot.Data NostrWot.Permissions

/-! # Requesters

A request's origin as the requester an authentication decision is made against,
and the one string that a requester's grants are stored under.
-/

/-- A shape change and nothing more. -/
def requesterOf (origin : RequestOrigin) : AuthenticationRequester :=
  match origin.kind with
  | .web => .web origin.identifier
  | .nip46 => .nip46 origin.identifier
  | .nip55 => .nip55 origin.identifier none
  | .lan => .lan origin.identifier
  | .localApp => .localApp origin.identifier

def identifierOf : AuthenticationRequester → Text
  | .web origin => origin.toList
  | .nip46 clientPubkey => toLowerCase clientPubkey.toList
  | .nip55 packageName _ => packageName.toList
  | .lan peerId => peerId.toList
  | .localApp id => id.toList

/-- The schemes of canonical origins: those of pages, and a name that every object inherits. -/
def WEB_SCHEMES : List Text := ["http".toList, "https".toList, "constructor".toList]

/-- A label that `requesterLabel` does not take. -/
def isBadLabel (identifier : String) : Bool :=
  identifier = "" || identifier.toList ≠ trim identifier.toList || identifier.toList.any isControl

/-- The kinds whose identifier the boundary takes as the host spells it. -/
def FREE_KINDS : List OriginKind := [.nip55, .lan, .localApp]

/-! ## Keys -/

section Keys

variable {requester first second : AuthenticationRequester} {key : String}

theorem requesterLabel_eq (value : String) :
    requesterLabel value =
      if isBadLabel value then .error "Invalid authentication requester" else .ok value := by
  by_cases empty : value = ""
  · simp [requesterLabel, isBadLabel, empty]
  · by_cases spaced : value.toList = trim value.toList
    · by_cases control : value.toList.any isControl = true
      · simp [requesterLabel, isBadLabel, empty, ← spaced, control]
      · simp [requesterLabel, isBadLabel, empty, ← spaced, control]
    · simp [requesterLabel, isBadLabel, empty, spaced]

theorem requesterLabel_ok {value label : String} (taken : requesterLabel value = .ok label) :
    label = value := by
  rw [requesterLabel_eq] at taken
  split at taken
  · contradiction
  · exact (Except.ok.inj taken).symm

theorem canonical_scheme {origin : String} (canonical : canonicalHttpOrigin origin = some origin) :
    ∃ scheme rest, origin.toList = scheme ++ ':' :: rest ∧ scheme ∈ WEB_SCHEMES := by
  obtain ⟨endpoint, named, same, schemes⟩ := canonicalOrigin_named canonical
  have spelled : origin.toList = endpoint.text HTTP_PORTS := by
    have text := congrArg String.toList same
    rwa [String.toList_ofList] at text
  refine ⟨endpoint.scheme, _, by rw [spelled, Endpoint.text_eq], ?_⟩
  rcases schemes with ⟨entry, member, scheme⟩ | inherited
  · have listed : ∀ entry ∈ HTTP_PORTS, entry.scheme ∈ WEB_SCHEMES := by decide
    rw [← scheme]
    exact listed entry member
  · rw [inherited]
    decide

theorem requesterKey_spelled (keyed : authenticationRequesterKey requester = .ok key)
    (other : requester.kind ≠ .web) :
    key.toList = requester.kind.name.toList ++ ':' :: identifierOf requester := by
  cases requester with
  | web origin => exact absurd rfl other
  | nip46 clientPubkey =>
    obtain ⟨label, taken, keyed⟩ := bind_ok keyed
    rw [requesterLabel_ok taken] at keyed
    simp only at keyed
    split at keyed
    · rw [← Except.ok.inj keyed]
      simp [AuthenticationRequester.kind, OriginKind.name, identifierOf]
    · contradiction
  | nip55 packageName digest =>
    obtain ⟨label, taken, keyed⟩ := bind_ok keyed
    rw [← Except.ok.inj keyed, requesterLabel_ok taken]
    simp [AuthenticationRequester.kind, OriginKind.name, identifierOf]
  | lan peerId =>
    obtain ⟨label, taken, keyed⟩ := bind_ok keyed
    rw [← Except.ok.inj keyed, requesterLabel_ok taken]
    simp [AuthenticationRequester.kind, OriginKind.name, identifierOf]
  | localApp id =>
    obtain ⟨label, taken, keyed⟩ := bind_ok keyed
    rw [← Except.ok.inj keyed, requesterLabel_ok taken]
    simp [AuthenticationRequester.kind, OriginKind.name, identifierOf]

theorem requesterKey_web (keyed : authenticationRequesterKey requester = .ok key)
    (page : requester.kind = .web) :
    key.toList = identifierOf requester ∧ canonicalHttpOrigin key = some key := by
  cases requester with
  | web origin =>
    simp only [authenticationRequesterKey] at keyed
    split at keyed
    · next canonical =>
      cases keyed
      exact ⟨rfl, canonical⟩
    · contradiction
  | nip46 clientPubkey => contradiction
  | nip55 packageName digest => contradiction
  | lan peerId => contradiction
  | localApp id => contradiction

theorem colon_inj {front front' rest rest' : Text} (free : ':' ∉ front) (free' : ':' ∉ front')
    (same : front ++ ':' :: rest = front' ++ ':' :: rest') : front = front' ∧ rest = rest' := by
  have spans := congrArg (List.span (· ≠ ':')) same
  rw [span_append free (.inr rfl), span_append free' (.inr rfl)] at spans
  obtain ⟨fronts, rests⟩ := Prod.mk.inj spans
  exact ⟨fronts, (List.cons.inj rests).2⟩

theorem name_free (kind : OriginKind) : ':' ∉ kind.name.toList := by
  cases kind <;> decide

theorem name_not_scheme (kind : OriginKind) : kind.name.toList ∉ WEB_SCHEMES := by
  cases kind <;> decide

theorem name_injective {kind other : OriginKind} (same : kind.name.toList = other.name.toList) :
    kind = other := by
  cases kind <;> cases other <;> first | rfl | exact absurd same (by decide)

theorem requesterKey_front (keyed : authenticationRequesterKey requester = .ok key) :
    ∃ front rest, key.toList = front ++ ':' :: rest ∧ ':' ∉ front ∧
      (requester.kind = .web → front ∈ WEB_SCHEMES) ∧
      (requester.kind ≠ .web → front = requester.kind.name.toList ∧ rest = identifierOf requester) := by
  by_cases page : requester.kind = .web
  · obtain ⟨scheme, rest, spelled, among⟩ := canonical_scheme (requesterKey_web keyed page).2
    have free : ∀ scheme ∈ WEB_SCHEMES, ':' ∉ scheme := by decide
    exact ⟨scheme, rest, spelled, free scheme among, fun _ => among, fun other => absurd page other⟩
  · exact ⟨_, _, requesterKey_spelled keyed page, name_free _, fun web => absurd web page,
      fun _ => ⟨rfl, rfl⟩⟩

theorem requesterKey_inj (keyed : authenticationRequesterKey first = .ok key)
    (keyed' : authenticationRequesterKey second = .ok key) :
    first.kind = second.kind ∧ identifierOf first = identifierOf second := by
  obtain ⟨front, rest, spelled, free, web, other⟩ := requesterKey_front keyed
  obtain ⟨front', rest', spelled', free', web', other'⟩ := requesterKey_front keyed'
  obtain ⟨fronts, rests⟩ := colon_inj free free' (spelled.symm.trans spelled')
  by_cases page : first.kind = .web
  · by_cases page' : second.kind = .web
    · refine ⟨page.trans page'.symm, ?_⟩
      rw [← (requesterKey_web keyed page).1, ← (requesterKey_web keyed' page').1]
    · have among := web page
      rw [fronts, (other' page').1] at among
      exact absurd among (name_not_scheme _)
  · by_cases page' : second.kind = .web
    · have among := web' page'
      rw [← fronts, (other page).1] at among
      exact absurd among (name_not_scheme _)
    · constructor
      · apply name_injective
        rw [← (other page).1, ← (other' page').1, fronts]
      · rw [← (other page).2, ← (other' page').2, rests]

theorem requesterKey_congr {key' : String} (keyed : authenticationRequesterKey first = .ok key)
    (keyed' : authenticationRequesterKey second = .ok key') (kinds : first.kind = second.kind)
    (identifiers : identifierOf first = identifierOf second) : key = key' := by
  apply String.toList_injective
  by_cases page : first.kind = .web
  · rw [(requesterKey_web keyed page).1, (requesterKey_web keyed' (kinds ▸ page)).1, identifiers]
  · rw [requesterKey_spelled keyed page, requesterKey_spelled keyed' (kinds ▸ page), kinds,
      identifiers]

theorem requesterKey_ne_star : authenticationRequesterKey requester ≠ .ok "*" := by
  intro keyed
  obtain ⟨front, rest, spelled, -⟩ := requesterKey_front keyed
  have member : ':' ∈ "*".toList := by
    rw [spelled]
    simp
  exact absurd member (by decide)

end Keys

/-! ## Requests -/

section Requests

variable {value : Data.Value} {origin : RequestOrigin}

theorem validateOrigin_identifier (accepted : validateOrigin value = .ok origin) :
    ∃ raw, raw ≠ "" ∧ canonicalIdentifier origin.kind raw = .ok origin.identifier := by
  unfold validateOrigin at accepted
  obtain ⟨-, accepted⟩ := check_ok accepted
  dsimp only at accepted
  split at accepted
  · contradiction
  · next kind _ =>
    obtain ⟨bounded, -, accepted⟩ := bind_ok accepted
    obtain ⟨raw, filled, accepted⟩ := bind_ok accepted
    obtain ⟨identifier, canonical, accepted⟩ := bind_ok accepted
    obtain ⟨displayName, -, accepted⟩ := bind_ok accepted
    obtain ⟨icon, -, accepted⟩ := bind_ok accepted
    cases accepted
    refine ⟨raw, ?_, canonical⟩
    obtain ⟨text, read, filled⟩ := bind_ok filled
    split at filled
    · contradiction
    · next nonempty =>
      cases filled
      exact nonempty

theorem canonicalHttpOrigin_hostname {name host : String}
    (found : canonicalHostname name = some host) : canonicalHttpOrigin host = none := by
  obtain ⟨text, rfl, spelled⟩ := canonicalHostname_text found
  have free : ':' ∉ text := by
    intro member
    have chars := isDomain_chars spelled.domain ':' member
    exact absurd chars (by decide)
  have shape := originShape_of_no_colon free
  simp [canonicalHttpOrigin, canonicalOrigin, canonicalOriginText, shape]

theorem validateOrigin_web (accepted : validateOrigin value = .ok origin) (page : origin.kind = .web)
    (full : canonicalHttpOrigin origin.identifier ≠ none) :
    canonicalHttpOrigin origin.identifier = some origin.identifier := by
  obtain ⟨raw, -, canonical⟩ := validateOrigin_identifier accepted
  rw [page] at canonical
  simp only [canonicalIdentifier] at canonical
  split at canonical
  · next found =>
    rw [← Except.ok.inj canonical]
    exact canonicalOrigin_fixed found
  · next host _ found =>
    split at canonical
    · contradiction
    · rw [← Except.ok.inj canonical] at full
      exact absurd (canonicalHttpOrigin_hostname found) full
  · split at canonical <;> contradiction

theorem validateOrigin_nip46 (accepted : validateOrigin value = .ok origin)
    (client : origin.kind = .nip46) : isHex64 origin.identifier.toList = true := by
  obtain ⟨raw, -, canonical⟩ := validateOrigin_identifier accepted
  rw [client] at canonical
  simp only [canonicalIdentifier, requirePubkey] at canonical
  split at canonical
  · next hex =>
    rw [← Except.ok.inj canonical]
    exact hex
  · contradiction

theorem isLowerHex_bounds {char : Char} (hex : isLowerHex char = true) :
    48 ≤ char.toNat ∧ char.toNat ≤ 102 := by
  rcases (Bool.or_eq_true _ _).mp hex with digit | letter
  · have low : 48 ≤ char.toNat := of_decide_eq_true ((Bool.and_eq_true _ _).mp digit).1
    have high : char.toNat ≤ 57 := of_decide_eq_true ((Bool.and_eq_true _ _).mp digit).2
    omega
  · have low : 97 ≤ char.toNat := of_decide_eq_true ((Bool.and_eq_true _ _).mp letter).1
    have high : char.toNat ≤ 102 := of_decide_eq_true ((Bool.and_eq_true _ _).mp letter).2
    omega

theorem isLowerHex_plain {char : Char} (hex : isLowerHex char = true) :
    lowerChar char = char ∧ isTrimmed char = false ∧ isControl char = false := by
  have every : ∀ code < 103, isLowerHex (Char.ofNat code) = true →
      lowerChar (Char.ofNat code) = Char.ofNat code ∧ isTrimmed (Char.ofNat code) = false ∧
        isControl (Char.ofNat code) = false := by
    decide
  have bounds := isLowerHex_bounds hex
  have plain := every char.toNat (by omega)
  rw [Char.ofNat_toNat] at plain
  exact plain hex

theorem trim_of_plain {text : Text} (plain : ∀ char ∈ text, isTrimmed char = false) :
    trim text = text := by
  have kept : ∀ text : Text, (∀ char ∈ text, isTrimmed char = false) →
      text.dropWhile isTrimmed = text := by
    intro text plain
    cases text with
    | nil => rfl
    | cons first rest =>
      rw [List.dropWhile_cons_of_neg (by rw [plain first List.mem_cons_self]; decide)]
  unfold trim
  rw [kept text plain, kept text.reverse fun char member => plain char (List.mem_reverse.mp member),
    List.reverse_reverse]

theorem isBadLabel_hex {key : String} (hex : isHex64 key.toList = true) :
    isBadLabel key = false ∧ toLowerCase key.toList = key.toList := by
  obtain ⟨long, chars⟩ := (Bool.and_eq_true _ _).mp hex
  have each := List.all_eq_true.mp chars
  have filled : key ≠ "" := by
    rintro rfl
    exact absurd long (by decide)
  have control : key.toList.any isControl = false := by
    rw [List.any_eq_false]
    intro char member
    simp [(isLowerHex_plain (each char member)).2.2]
  constructor
  · simp [isBadLabel, filled, control,
      trim_of_plain fun char member => (isLowerHex_plain (each char member)).2.1]
  · exact toLowerCase_of_forall fun char member => (isLowerHex_plain (each char member)).1

/-- The requester of a validated request is keyed as the request's rules are, or refused for the
spelling of its identifier. -/
theorem requesterOf_key (accepted : validateOrigin value = .ok origin)
    (full : origin.kind = .web → canonicalHttpOrigin origin.identifier ≠ none) :
    authenticationRequesterKey (requesterOf origin) =
      if origin.kind ∈ FREE_KINDS ∧ isBadLabel origin.identifier then
        .error "Invalid authentication requester"
      else .ok (permissionOrigin origin) := by
  cases named : origin.kind with
  | web =>
    have canonical := validateOrigin_web accepted named (full named)
    rw [if_neg fun bad => absurd bad.1 (by decide)]
    simp [requesterOf, permissionOrigin, named, authenticationRequesterKey, canonical]
  | nip46 =>
    have hex := validateOrigin_nip46 accepted named
    obtain ⟨label, lower⟩ := isBadLabel_hex hex
    rw [if_neg fun bad => absurd bad.1 (by decide)]
    simp only [requesterOf, permissionOrigin, named, authenticationRequesterKey, requesterLabel_eq,
      label, Bool.false_eq_true, if_false]
    show (if isHex64 (toLowerCase origin.identifier.toList) = true then _ else _) = _
    rw [lower, if_pos hex, String.ofList_toList]
    rfl
  | nip55 =>
    simp only [requesterOf, permissionOrigin, named, authenticationRequesterKey, requesterLabel_eq]
    cases isBadLabel origin.identifier <;> rfl
  | lan =>
    simp only [requesterOf, permissionOrigin, named, authenticationRequesterKey, requesterLabel_eq]
    cases isBadLabel origin.identifier <;> rfl
  | localApp =>
    simp only [requesterOf, permissionOrigin, named, authenticationRequesterKey, requesterLabel_eq]
    cases isBadLabel origin.identifier <;> rfl

theorem canonicalHttpOrigin_kind (kind : OriginKind) (identifier : String) :
    canonicalHttpOrigin (kind.name ++ ":" ++ identifier) = none := by
  have unknown : defaultPort HTTP_PORTS (toLowerCase kind.name.toList) = none := by
    cases kind <;> decide
  have text : (kind.name ++ ":" ++ identifier).toList =
      kind.name.toList ++ ':' :: identifier.toList := by
    simp
  unfold canonicalHttpOrigin canonicalOrigin canonicalOriginText
  cases shaped : originShape (kind.name ++ ":" ++ identifier).toList with
  | none => rfl
  | some parts =>
    have front : parts.1 = kind.name.toList := by
      unfold originShape at shaped
      rw [text, span_append (name_free kind) (.inr rfl)] at shaped
      split at shaped
      · next scheme authority split =>
        have scheme := (Prod.mk.inj split).1
        split at shaped
        · split at shaped
          · rw [← Option.some.inj shaped]
            exact scheme.symm
          · contradiction
        · contradiction
      · contradiction
    dsimp only
    rw [front, unknown]
    rfl

theorem permissionOrigin_scopes (accepted : validateOrigin value = .ok origin)
    (full : origin.kind = .web → canonicalHttpOrigin origin.identifier ≠ none) :
    (siteScopes (permissionOrigin origin)).head? = some (permissionOrigin origin) := by
  by_cases page : origin.kind = .web
  · have canonical := validateOrigin_web accepted page (full page)
    simp [permissionOrigin, page, siteScopes, canonical]
  · have spelled : permissionOrigin origin = origin.kind.name ++ ":" ++ origin.identifier := by
      cases named : origin.kind with
      | web => exact absurd named page
      | nip46 | nip55 | lan | localApp => simp [permissionOrigin, named]
    rw [siteScopes, spelled, canonicalHttpOrigin_kind]
    rfl

end Requests

/-! ## Agreement -/

/-- A request of a paired device with a space in its name. -/
def livingRoom : Data.Value :=
  .object [("kind", .text "lan"), ("identifier", .text "Living Room")]

end NostrWot.Signing
