import NostrWot.Bunker.Uri

namespace NostrWot.Bunker

open NostrWot.Data

/-! # The persisted state

How a state is signed, and what `restore` reads out of an untrusted one.
-/

variable (host : Host)

def STATE_VERSION : Number := 2

def definedField (value : Value) (name : String) : List (String × Value) :=
  if (value.field name).isDefined then [(name, value.field name)] else []

def canonicalSecret (record : Value) : Value :=
  .object ([("secret", record.field "secret"), ("origin", record.field "origin"),
      ("relays", record.field "relays")] ++ definedField record "clientPubkey" ++
    [("confirmed", record.field "confirmed")] ++ definedField record "expiresAt")

def canonicalClient (client : Value) : Value :=
  .object ([("clientPubkey", client.field "clientPubkey"), ("relays", client.field "relays")] ++
    definedField client "secret" ++ [("connectedAt", client.field "connectedAt")])

/-- What the MAC covers: every field `restore` reads. -/
def canonicalState (state : Value) : Value :=
  .object [("version", state.field "version"),
    ("connectionPubkey", state.field "connectionPubkey"),
    ("generation", state.field "generation"),
    ("secrets", .array ((state.field "secrets").itemsOf.map canonicalSecret)),
    ("clients", .array ((state.field "clients").itemsOf.map canonicalClient))]

def stateMac (state : Value) : String := host.stateDigest (canonicalState state)

def withField (fields : List (String × Value)) (name : String) (value : Value) :
    List (String × Value) :=
  if fields.any fun entry => entry.1 = name then
    fields.map fun entry => if entry.1 = name then (name, value) else entry
  else fields ++ [(name, value)]

def orDefault (value fallback : Value) : Value :=
  match value with
  | .undefined | .null => fallback
  | value => value

/-- Authenticate a state under the connection key. -/
def signBunkerState (state : List (String × Value)) : Value :=
  let version := orDefault ((Value.object state).field "version") (.number STATE_VERSION)
  let generation := orDefault ((Value.object state).field "generation") (.number 0)
  let unsigned := withField (withField state "version" version) "generation" generation
  .object (withField unsigned "mac" (.text (stateMac host (.object unsigned))))

/-- True when `state.mac` is the MAC of `state` under this key. -/
def verifyBunkerState (state : Value) : Bool :=
  match state.field "mac" with
  | .text mac => utf16Length mac = 64 && mac = stateMac host state
  | _ => false

/-! ## Validation -/

def restoreRefused (text : String) : Fault := error ("restore refused: " ++ text)

def refuseIf (when : Bool) (text : String) : Except Fault Unit :=
  if when then .error (restoreRefused text) else .ok ()

def textOf (value : Value) (holds : String → Bool) (text : String) : Except Fault String :=
  match value with
  | .text content => if holds content then .ok content else .error (restoreRefused text)
  | _ => .error (restoreRefused text)

def stringsOf : Value → Option (List String)
  | .array items => if items = [] then none else items.mapM Value.asText?
  | _ => none

def relaysOf (raw : Value) (what : String) : Except Fault (List String) :=
  match stringsOf raw with
  | none => .error (restoreRefused (what ++ " needs at least one relay"))
  | some urls => match normalizeRelays host urls with
    | .error _ => .error (restoreRefused (what ++ " has an invalid relay URL"))
    | .ok relays =>
      let limit := host.options.maxRelaysPerClient
      if relays.length > limit then
        .error (restoreRefused (what ++ " has too many relays (limit " ++ toString limit ++ ")"))
      else .ok relays

def convKeyOf (pubkey what : String) : Except Fault String :=
  match host.conversationKey pubkey with
  | some key => .ok key
  | none => .error (restoreRefused (what ++ " pubkey is not on the curve"))

def lowerHex (text : String) : String := String.ofList (text.toList.map Char.toLower)

/-- The first characters of a label. -/
def shortened (text : String) : String := String.ofList (text.toList.take 8)

def originOf : Value → Except Fault SecretOrigin
  | .text "bunker" => .ok .bunker
  | .text "nostrconnect" => .ok .nostrconnect
  | _ => .error (restoreRefused "secret origin must be bunker or nostrconnect")

def confirmedOf : Value → Except Fault Bool
  | .boolean value => .ok value
  | _ => .error (restoreRefused "secret confirmed must be a boolean")

def boundOf : Value → Except Fault (Option String)
  | .undefined => .ok none
  | value => (textOf value HEX64 "secret clientPubkey must be 64 hex characters").map some

def finiteOf (value : Value) (text : String) : Except Fault Number :=
  match value with
  | .number value => if value.isFinite then .ok value else .error (restoreRefused text)
  | _ => .error (restoreRefused text)

def expiryOf : Value → Except Fault (Option Number)
  | .undefined => .ok none
  | value => (finiteOf value "secret expiresAt must be a finite number").map some

/-- Whether an unconfirmed secret with this expiry has lapsed. -/
def isPast (expiresAt : Option Number) (now : Rat) : Bool :=
  match expiresAt with
  | some at_ => at_.le (.finite now)
  | none => false

/-- An unconfirmed record with no expiry gets the default TTL. -/
def restoredExpiry (confirmed : Bool) (expiresAt : Option Number) (now : Rat) : Option Number :=
  if !confirmed && expiresAt.isNone && Number.lt 0 host.options.secretTtlMs then
    some ((Number.finite now).add host.options.secretTtlMs)
  else expiresAt

/-- One secret record; `none` for one that has lapsed. -/
def validateSecret (now : Rat) (secrets : OrderedMap String SecretState) (record : Value) :
    Except Fault (Option (String × SecretState)) := do
  refuseIf (!record.isObject) "secret record is not an object"
  let secret ← textOf (record.field "secret")
    (fun text => 0 < utf16Length text && utf16Length text ≤ 256)
    "secret must be a string of 1 to 256 characters"
  refuseIf (secrets.has secret) "duplicate secret"
  let origin ← originOf (record.field "origin")
  let confirmed ← confirmedOf (record.field "confirmed")
  let bound ← boundOf (record.field "clientPubkey")
  refuseIf (confirmed && bound.isNone) "a confirmed secret needs a clientPubkey"
  let expiresAt ← expiryOf (record.field "expiresAt")
  let label := "secret " ++ shortened secret
  let relays ← relaysOf host (record.field "relays") label
  let clientPubkey := bound.map lowerHex
  discard (clientPubkey.mapM fun pubkey => convKeyOf host pubkey label)
  return if !confirmed && isPast expiresAt now then none
    else some (secret, {
      relays, clientPubkey, confirmed, pending := 0, origin
      expiresAt := restoredExpiry host confirmed expiresAt now })

def validateSecrets (now : Rat) (records : List Value) :
    Except Fault (OrderedMap String SecretState) :=
  records.foldlM (fun secrets record => do
    match ← validateSecret host now secrets record with
    | some (secret, state) => return secrets.set secret state
    | none => return secrets) ∅

/-- A client record that has been validated. -/
structure RestoredClient where
  clientPubkey : String
  secret : Option String
  relays : List String
  connectedAt : Number
  convKey : String

def backedSecret (secrets : OrderedMap String SecretState) (clientPubkey : String)
    (relays : List String) : Value → Except Fault (Option String)
  | .undefined =>
    if host.options.requireSecret then
      .error (restoreRefused "a client needs the secret it paired with")
    else .ok none
  | .text secret => match secrets.get secret with
      | some bound =>
        if bound.clientPubkey ≠ some clientPubkey ∨ !bound.confirmed then
          .error (restoreRefused
            "a client's secret must be in the state, bound to that client and confirmed")
        else if bound.relays.length ≠ relays.length ∨ !(bound.relays.all (relays.contains ·)) then
          .error (restoreRefused "client relays differ from its secret's relays")
        else .ok (some secret)
      | none => .error (restoreRefused
          "a client's secret must be in the state, bound to that client and confirmed")
  | _ => .error (restoreRefused "client secret must be a string")

def validateClient (secrets : OrderedMap String SecretState) (clients : List RestoredClient)
    (record : Value) : Except Fault RestoredClient := do
  refuseIf (!record.isObject) "client record is not an object"
  let pubkey ← textOf (record.field "clientPubkey") HEX64
    "client clientPubkey must be 64 hex characters"
  let clientPubkey := lowerHex pubkey
  refuseIf (clients.any fun client => client.clientPubkey = clientPubkey) "duplicate client"
  let connectedAt ← finiteOf (record.field "connectedAt")
    "client connectedAt must be a finite number"
  let label := "client " ++ shortened clientPubkey
  let relays ← relaysOf host (record.field "relays") label
  let secret ← backedSecret host secrets clientPubkey relays (record.field "secret")
  let convKey ← convKeyOf host clientPubkey label
  return { clientPubkey, secret, relays, connectedAt, convKey }

def validateClients (secrets : OrderedMap String SecretState) (records : List Value) :
    Except Fault (List RestoredClient) :=
  records.foldlM (fun clients record => do
    return clients ++ [← validateClient host secrets clients record]) []

def isArray : Value → Bool
  | .array _ => true
  | _ => false

/-- Validate and normalize a state without touching anything. -/
def validateState (state : Value) (now : Rat) :
    Except Fault (OrderedMap String SecretState × List RestoredClient) := do
  refuseIf (!isArray (state.field "secrets") || !isArray (state.field "clients"))
    "secrets and clients must be arrays"
  let secrets ← validateSecrets host now (state.field "secrets").itemsOf
  refuseIf (secrets.size > host.options.maxSecrets)
    ("too many secrets (limit " ++ toString host.options.maxSecrets ++ ")")
  let clients ← validateClients host secrets (state.field "clients").itemsOf
  refuseIf (clients.length > host.options.maxClients)
    ("too many clients (limit " ++ toString host.options.maxClients ++ ")")
  return (secrets, clients)

/-! ## What a validated state holds -/

variable {host : Host}

theorem refuseIf_ok {when : Bool} {text : String} (passed : refuseIf when text = .ok ()) :
    when = false := by
  cases when with
  | true => contradiction
  | false => rfl

theorem textOf_ok {value : Value} {holds : String → Bool} {text found : String}
    (read : textOf value holds text = .ok found) : value = .text found ∧ holds found = true := by
  unfold textOf at read
  split at read
  · split at read
    · next met =>
      cases read
      exact ⟨rfl, met⟩
    · contradiction
  · contradiction

structure Settled (record : SecretState) : Prop where
  idle : record.pending = 0
  bound : record.confirmed = true → record.clientPubkey.isSome

variable {secrets : OrderedMap String SecretState}

theorem validateSecret_settled {now : Rat} {record : Value} {secret : String} {state : SecretState}
    (valid : validateSecret host now secrets record = .ok (some (secret, state))) :
    Settled state := by
  unfold validateSecret at valid
  obtain ⟨-, -, valid⟩ := bind_ok valid
  obtain ⟨text, -, valid⟩ := bind_ok valid
  obtain ⟨-, -, valid⟩ := bind_ok valid
  obtain ⟨origin, -, valid⟩ := bind_ok valid
  obtain ⟨confirmed, -, valid⟩ := bind_ok valid
  obtain ⟨client, -, valid⟩ := bind_ok valid
  obtain ⟨⟨⟩, bound, valid⟩ := bind_ok valid
  obtain ⟨expiresAt, -, valid⟩ := bind_ok valid
  obtain ⟨relays, -, valid⟩ := bind_ok valid
  obtain ⟨-, -, valid⟩ := bind_ok valid
  have bound := refuseIf_ok bound
  replace valid := Except.ok.inj valid
  split at valid
  · contradiction
  · cases valid
    refine ⟨rfl, fun confirmed => ?_⟩
    cases client with
    | none => simp_all
    | some client => rfl

theorem validateSecrets_settled {now : Rat} {records : List Value}
    (valid : validateSecrets host now records = .ok secrets) :
    ∀ entry ∈ secrets.entries, Settled entry.2 := by
  refine foldlM_ok (fun secrets => ∀ entry ∈ secrets.entries, Settled entry.2) valid (by simp) ?_
  intro record _ before after settled stepped
  obtain ⟨outcome, checked, rest⟩ := bind_ok stepped
  cases outcome with
  | none =>
    cases rest
    exact settled
  | some found =>
    obtain ⟨secret, state⟩ := found
    cases rest
    intro entry member
    obtain ⟨name, held⟩ := entry
    rcases OrderedMap.mem_set.mp member with ⟨-, rfl⟩ | ⟨-, old⟩
    · exact validateSecret_settled checked
    · exact settled (name, held) old

theorem validateClient_pubkey {clients : List RestoredClient} {record : Value}
    {client : RestoredClient} (valid : validateClient host secrets clients record = .ok client) :
    isPubkey client.clientPubkey = true := by
  unfold validateClient at valid
  obtain ⟨-, -, valid⟩ := bind_ok valid
  obtain ⟨pubkey, read, valid⟩ := bind_ok valid
  obtain ⟨-, -, valid⟩ := bind_ok valid
  obtain ⟨connectedAt, -, valid⟩ := bind_ok valid
  obtain ⟨relays, -, valid⟩ := bind_ok valid
  obtain ⟨secret, -, valid⟩ := bind_ok valid
  obtain ⟨key, -, valid⟩ := bind_ok valid
  cases valid
  have digits := (textOf_ok read).2
  simp only [HEX64, Bool.and_eq_true, decide_eq_true_eq] at digits
  exact isPubkey_toLower digits.1 digits.2

theorem validateClients_pubkey {records : List Value} {clients : List RestoredClient}
    (valid : validateClients host secrets records = .ok clients) :
    ∀ client ∈ clients, isPubkey client.clientPubkey = true := by
  refine foldlM_ok (fun clients : List RestoredClient =>
    ∀ client ∈ clients, isPubkey client.clientPubkey = true) valid (by simp) ?_
  intro record _ before after keyed stepped
  obtain ⟨client, checked, rest⟩ := bind_ok stepped
  cases rest
  intro other member
  rcases List.mem_append.mp member with old | new
  · exact keyed other old
  · rw [List.mem_singleton.mp new]
    exact validateClient_pubkey checked

theorem validateState_ok {state : Value} {now : Rat}
    {plan : OrderedMap String SecretState × List RestoredClient}
    (valid : validateState host state now = .ok plan) :
    (∀ entry ∈ plan.1.entries, Settled entry.2) ∧
      ∀ client ∈ plan.2, isPubkey client.clientPubkey = true := by
  unfold validateState at valid
  obtain ⟨-, -, valid⟩ := bind_ok valid
  obtain ⟨secrets, checked, valid⟩ := bind_ok valid
  obtain ⟨-, -, valid⟩ := bind_ok valid
  obtain ⟨clients, keyed, valid⟩ := bind_ok valid
  obtain ⟨-, -, valid⟩ := bind_ok valid
  cases valid
  exact ⟨validateSecrets_settled checked, validateClients_pubkey keyed⟩

end NostrWot.Bunker
