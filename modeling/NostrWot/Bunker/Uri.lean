import NostrWot.Bunker.Types
import NostrWot.Data.Outcome

namespace NostrWot.Bunker

open NostrWot.Data NostrWot.Permissions

/-! # Relay lists and pairing URIs -/

variable (host : Host)

def normalizeURL (url : String) : Except Fault String :=
  match host.normalizeURL url with
  | some normal => .ok normal
  | none => .error (error ("Invalid URL: " ++ url))

def pushNew (out : List String) (url : String) : List String :=
  if url ∈ out then out else out ++ [url]

def normalizeRelays (urls : List String) : Except Fault (List String) :=
  urls.foldlM (fun out raw => (normalizeURL host raw).map (pushNew out)) []

/-- What `createBunkerUri` of `uri.ts` refuses, given relays that are normalized. -/
def checkBunkerUri (relays : List String) : Except Fault Unit :=
  if !HEX64 host.connectionPubkey then .error (error "bunker URI: pubkey must be 64 hex chars")
  else if relays = [] then .error (error "bunker URI: at least one relay is required")
  else .ok ()

def isLineTerminator (char : Char) : Bool :=
  char = '\n' || char = '\r' || char = '\u2028' || char = '\u2029'

/-- `\??`. -/
def skipMark : List Char → List Char
  | '?' :: rest => rest
  | rest => rest

/-- The key and the query of a text that `NOSTRCONNECT` matches. -/
def matchNostrConnect (text : List Char) : Option (String × String) :=
  let scheme := "nostrconnect://".toList
  if scheme.isPrefixOf text then
    let rest := text.drop scheme.length
    let key := rest.take 64
    let query := skipMark (rest.drop 64)
    if key.length = 64 && key.all isHexDigit && !(query.any isLineTerminator) then
      some (String.ofList (key.map Char.toLower), String.ofList query)
    else none
  else none

/-- `qs.get(name)`. -/
def queryValue (query : List (String × String)) (name : String) : Option String :=
  (query.find? fun entry => entry.1 = name).map Prod.snd

def queryValues (query : List (String × String)) (name : String) : List String :=
  (query.filter fun entry => entry.1 = name).map Prod.snd

def trimmed (text : String) : String := String.ofList (trim text.toList)

/-- One `relay` of a scanned URI; a blank one is skipped. -/
def parseRelay (relays : List String) (raw : String) : Except Fault (List String) :=
  if trimmed raw = "" then .ok relays
  else match host.normalizeURL (trimmed raw) with
    | some url => .ok (pushNew relays url)
    | none => .error (error "nostrconnect URI: invalid relay URL")

def parseRelays (raws : List String) : Except Fault (List String) := raws.foldlM (parseRelay host) []

def splitCommas (text : String) : List String :=
  (text.toList.splitOn ',').map String.ofList

def optionalValue (query : List (String × String)) (key : String) : Option String :=
  ((queryValue query key).map trimmed).filter fun value => value ≠ ""

def parseNostrConnectUri (uri : String) : Except Fault NostrConnectUri :=
  match matchNostrConnect (trim uri.toList) with
  | none => .error (error
      "nostrconnect URI: expected nostrconnect://<client-pubkey>?relay=...&secret=...")
  | some (clientPubkey, text) => do
      let query := host.searchParams text
      let relays ← parseRelays host (queryValues query "relay")
      let limit := host.options.maxRelaysPerClient
      let secret := trimmed ((queryValue query "secret").getD "")
      if relays = [] then
        .error (error "nostrconnect URI: at least one relay is required")
      else if relays.length > limit then
        .error (error ("nostrconnect URI: too many relays (limit " ++ toString limit ++ ")"))
      else if secret = "" then
        .error (error "nostrconnect URI: secret is required")
      else .ok {
        clientPubkey, relays, secret
        perms := ((splitCommas ((queryValue query "perms").getD "")).map trimmed).filter
          fun perm => perm ≠ ""
        name := optionalValue query "name"
        url := optionalValue query "url"
        image := optionalValue query "image" }

/-! ## What is normalized -/

structure Normal (relays : List String) : Prop where
  nodup : relays.Nodup
  fixed : ∀ url ∈ relays, host.normalizeURL url = some url

variable {host : Host}

theorem Normal.nil : Normal host [] := ⟨List.nodup_nil, by simp⟩

theorem normal_pushNew {relays : List String} {raw url : String} (normal : Normal host relays)
    (normalized : host.normalizeURL raw = some url) : Normal host (pushNew relays url) := by
  unfold pushNew
  split
  · exact normal
  · next absent =>
    constructor
    · rw [List.nodup_append]
      refine ⟨normal.nodup, List.nodup_singleton _, ?_⟩
      intro first before second last same
      rw [List.mem_singleton] at last
      exact absent (last ▸ same ▸ before)
    · intro other member
      rcases List.mem_append.mp member with before | last
      · exact normal.fixed other before
      · rw [List.mem_singleton.mp last]
        exact host.normalizeURL_idem raw url normalized

theorem pushNew_ne_nil (relays : List String) (url : String) : pushNew relays url ≠ [] := by
  unfold pushNew
  split
  · next member => exact List.ne_nil_of_mem member
  · simp

theorem parseRelay_normal {relays next : List String} {raw : String}
    (parsed : parseRelay host relays raw = .ok next) (normal : Normal host relays) :
    Normal host next := by
  unfold parseRelay at parsed
  split at parsed
  · cases parsed; exact normal
  · split at parsed
    · next url normalized =>
      cases parsed
      exact normal_pushNew normal normalized
    · contradiction

theorem parseRelays_normal {raws relays : List String}
    (parsed : parseRelays host raws = .ok relays) : Normal host relays :=
  foldlM_ok (Normal host) parsed .nil fun _ _ _ _ normal stepped => parseRelay_normal stepped normal

structure Scanned (host : Host) (parsed : NostrConnectUri) : Prop where
  pubkey : isPubkey parsed.clientPubkey = true
  normal : Normal host parsed.relays
  listens : parsed.relays ≠ []
  few : parsed.relays.length ≤ host.options.maxRelaysPerClient
  secret : parsed.secret ≠ ""

theorem isPubkey_toLower {key : List Char} (length : key.length = 64)
    (digits : key.all Permissions.isHexDigit = true) :
    isPubkey (String.ofList (key.map Char.toLower)) = true := by
  have small : ∀ code < 128, isHexDigit (Char.ofNat code) = true →
      isLowerHex (Char.ofNat code).toLower = true := by decide
  have lower : ∀ char, isHexDigit char = true → isLowerHex char.toLower = true := by
    intro char digit
    have bound : char.toNat < 128 := by
      simp only [isHexDigit, Char.isDigit, Bool.or_eq_true, Bool.and_eq_true, decide_eq_true_eq,
        Char.le_def, UInt32.le_iff_toNat_le] at digit
      have code : char.toNat = char.val.toNat := rfl
      rcases digit with (⟨-, high⟩ | ⟨-, high⟩) | ⟨-, high⟩
      · exact Nat.lt_of_le_of_lt high (by decide)
      · exact Nat.lt_of_le_of_lt high (by decide)
      · exact Nat.lt_of_le_of_lt high (by decide)
    have known := small char.toNat bound
    rw [Char.ofNat_toNat] at known
    exact known digit
  simp only [isPubkey, isHex64, String.toList_ofList, List.length_map, length, decide_true,
    Bool.true_and, List.all_map]
  rw [List.all_eq_true] at digits ⊢
  exact fun char member => lower char (digits char member)

theorem matchNostrConnect_pubkey {text : List Char} {key query : String}
    (matched : matchNostrConnect text = some (key, query)) : isPubkey key = true := by
  unfold matchNostrConnect at matched
  simp only at matched
  split at matched
  · split at matched
    · next found =>
      rw [Bool.and_eq_true, Bool.and_eq_true, decide_eq_true_eq] at found
      cases matched
      exact isPubkey_toLower found.1.1 found.1.2
    · contradiction
  · contradiction

theorem parseNostrConnectUri_scanned {uri : String} {parsed : NostrConnectUri}
    (accepted : parseNostrConnectUri host uri = .ok parsed) : Scanned host parsed := by
  unfold parseNostrConnectUri at accepted
  split at accepted
  · contradiction
  · next key query matched =>
    simp only at accepted
    cases relays : parseRelays host (queryValues (host.searchParams query) "relay") with
    | error fault => rw [relays] at accepted; contradiction
    | ok found =>
      rw [relays] at accepted
      simp only [bind, Except.bind] at accepted
      split at accepted
      · contradiction
      · split at accepted
        · contradiction
        · split at accepted
          · contradiction
          · next some few secret =>
            cases accepted
            exact ⟨matchNostrConnect_pubkey matched, parseRelays_normal relays, some,
              Nat.le_of_not_lt few, secret⟩

end NostrWot.Bunker
