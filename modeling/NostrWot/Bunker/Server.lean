import NostrWot.Bunker.Network
import NostrWot.Bunker.Secrets
import NostrWot.Bunker.State
import NostrWot.Sync.Act

namespace NostrWot.Bunker

open NostrWot.Data NostrWot.Sync

/-! # The server

What one `BunkerServer` holds, and its synchronous methods.
-/

structure Dispatch where
  request : BunkerRequest
  sourceRelay : String
  wasConnected : Bool

/-- An `await` of the server, with what it resumes with. -/
inductive Frame where
  /-- `#connect` in the handler. -/
  | approval (dispatch : Dispatch) (record : Option Ref) (responseRelays : List String)
      (slot : Bool)
  /-- `#connect` in `#admit`. -/
  | admission (dispatch : Dispatch)
  /-- `#dispatch` in the handler. -/
  | handling (dispatch : Dispatch)
  /-- `#dispatch` when `#connect` has thrown. -/
  | refused (dispatch : Dispatch) (fault : Fault)
  /-- `#dispatch` in `#send`. -/
  | responding (dispatch : Dispatch) (relays : List String) (answered : Bool)
  /-- `acceptNostrConnect` in the handler. -/
  | scanApproval (parsed : NostrConnectUri) (requestId : String) (record : Ref) (slot : Bool)
  /-- `acceptNostrConnect` in `#admit`. -/
  | scanAdmission (parsed : NostrConnectUri) (requestId : String)
  /-- `restore` in the admissions. -/
  | restoring

/-- How a client came to be connected. -/
inductive Admission where
  | approved (record : Option Ref)
  | restored
  deriving DecidableEq

/-- What has happened, for the record only: nothing here is read by the code. -/
inductive Note where
  | opened (sender : String)
  | recorded (sender key : String)
  /-- The handler was given this request, which this event carried. -/
  | handed (client eventId requestId : String)
  | admitted (client : String) (admission : Admission)
  | left (client : String)
  /-- A result or an error was published to `relays`; `owned` are the relays the
  client owned then, if it was connected. -/
  | published (client : String) (payload : ResponsePayload) (relays : List String)
      (arrivedOn : Option String) (owned : Option (List String))
  deriving DecidableEq

structure Server where
  secrets : Secrets
  clients : OrderedMap String ClientState
  /-- Dedup windows for senders that have not connected. -/
  strangers : OrderedMap String BoundedSet
  network : Network
  pendingApprovals : Int
  pendingAdmissions : OrderedMap String Int
  generation : Nat
  frames : List Frame
  history : List Note

variable (host : Host)

/-- `new BunkerServer(options)`, given what `normalizeRelays(options.relays)` is. -/
def Server.new (relays : List String) : Server where
  secrets := .empty
  clients := ∅
  strangers := ∅
  network := {
    relays, subs := ∅, opened := [], started := false, stopped := false, serial := 0 }
  pendingApprovals := 0
  pendingAdmissions := ∅
  generation := host.options.generation.getD 0
  frames := []
  history := []

namespace Server

def push (server : Server) (frame : Frame) : Server :=
  { server with frames := server.frames ++ [frame] }

def note (server : Server) (note : Note) : Server :=
  { server with history := server.history ++ [note] }

def emit (server : Server) (now : Rat) : Server :=
  { server with
    secrets := if host.options.observed then server.secrets.sweep now else server.secrets }

def beginApproval (server : Server) (client : String) : Bool × Server :=
  let tookSlot := !server.clients.has client
  (tookSlot, { server with
    pendingApprovals := server.pendingApprovals + 1
    pendingAdmissions :=
      if tookSlot then
        server.pendingAdmissions.set client ((server.pendingAdmissions.get client).getD 0 + 1)
      else server.pendingAdmissions })

def endApproval (server : Server) (client : String) (tookSlot : Bool) : Server :=
  let left := (server.pendingAdmissions.get client).getD 1 - 1
  { server with
    pendingApprovals := server.pendingApprovals - 1
    pendingAdmissions :=
      if tookSlot then
        if left ≤ 0 then server.pendingAdmissions.delete client
        else server.pendingAdmissions.set client left
      else server.pendingAdmissions }

/-- Would admitting `client` exceed `maxClients`, counting admissions in flight? -/
def overClientCeiling (server : Server) (client : String) : Bool :=
  if server.clients.has client || server.pendingAdmissions.has client then false
  else server.clients.size + server.pendingAdmissions.size ≥ host.options.maxClients

def roomFor (server : Server) (client : String) : Bool :=
  server.clients.has client || server.clients.size < host.options.maxClients

def relaysFor (server : Server) (client : String) : List String :=
  ((server.clients.get client).map ClientState.relays).getD []

def closeSockets (server : Server) (urls : List String) : Server :=
  { server with network := server.network.closeAll urls }

/-- A connected client forgotten, and the relays only it used dropped. -/
def departed (server : Server) (client : String) (state : ClientState) : Server :=
  ({ server with
    clients := server.clients.delete client
    network := server.network.releaseAll state.relays client }).note (.left client)

def disconnectClient (server : Server) (client : String) (now : Rat) : Server :=
  match server.clients.get client with
  | none => server
  | some state => (server.departed client state).emit host now

def revokeSecret (server : Server) (secret : String) (now : Rat) : Bool × Server :=
  match server.secrets.get secret with
  | none => (false, server)
  | some record =>
    let revoked := { server with
      secrets := server.secrets.remove secret
      generation := nearestDouble (server.generation + 1) }
    (true, match record.clientPubkey with
      | none => revoked.emit host now
      | some client =>
        if (server.clients.get client).any fun bound => bound.secret = some secret then
          revoked.disconnectClient host client now
        else revoked.emit host now)

/-! ## Exporting -/

def exportedSecret (secret : String) (record : SecretState) : Value :=
  .object ([("secret", .text secret), ("origin", .text record.origin.name),
      ("relays", .array (record.relays.map .text)), ("confirmed", .boolean record.confirmed)] ++
    (match record.clientPubkey with
      | some client => [("clientPubkey", .text client)]
      | none => []) ++
    match record.expiresAt with
    | some expiresAt => [("expiresAt", .number expiresAt)]
    | none => [])

def exportedClient (client : String) (state : ClientState) : Value :=
  .object ([("clientPubkey", .text client), ("relays", .array (state.relays.map .text)),
      ("connectedAt", .number state.connectedAt)] ++
    match state.secret with
    | some secret => [("secret", .text secret)]
    | none => [])

def unsignedState (server : Server) : List (String × Value) :=
  [("version", .number STATE_VERSION), ("connectionPubkey", .text host.connectionPubkey),
    ("generation", .number (.finite server.generation)),
    ("secrets", .array (server.secrets.secrets.entries.map fun entry =>
      exportedSecret entry.1 (server.secrets.records entry.2))),
    ("clients", .array (server.clients.entries.map fun entry => exportedClient entry.1 entry.2))]

def exportState (server : Server) (now : Rat) : Value × Server :=
  let swept := { server with secrets := server.secrets.sweep now }
  (signBunkerState host (swept.unsignedState host), swept)

/-! ## Pairing -/

def liveSecret (server : Server) (secret : String) (now : Rat) :
    Option SecretState × Server :=
  match server.secrets.get secret with
  | none => (none, server)
  | some record =>
    if Secrets.lapsed record now then
      (none, emit host { server with secrets := server.secrets.remove secret } now)
    else (some record, server)

/-- `#bind`: the record of `secret`, with one more approval pending. -/
def bind (secret client : String) (relays : Option (List String)) (refusal : String) (now : Rat) :
    Act Server Fault Ref := fun server =>
  let take (ref : Ref) (secrets : Secrets) : Except Fault Ref × Server :=
    (.ok ref, emit host { server with secrets := secrets.update ref (.bound client) } now)
  match server.secrets.secrets.get secret with
  | some ref =>
    if (server.secrets.records ref).clientPubkey.any (· ≠ client) then
      (.error (bunkerError refusal), server)
    else take ref server.secrets
  | none => match relays with
      | none => (.error (bunkerError "invalid secret"), server)
      | some relays => take server.secrets.next (server.secrets.insert secret
          { relays, clientPubkey := none, confirmed := false, pending := 0, origin := .nostrconnect
            expiresAt := none })

def unbind (server : Server) (ref : Ref) (secret : String) (now : Rat) : Server :=
  let record := (server.secrets.records ref).settled
  let undone := { server with secrets := server.secrets.unbind ref secret }
  if record.pending ≤ 0 ∧ record.confirmed = false then
    if record.origin = .nostrconnect ∧ server.secrets.secrets.get secret = some ref then
      emit host (undone.closeSockets record.relays) now
    else emit host undone now
  else undone

def windowOf (server : Server) (client : String) : BoundedSet :=
  match server.clients.get client with
  | some previous => previous.seen
  | none => (server.strangers.get client).getD (.new host.options.seenCapacity)

def admissionKey (server : Server) (client : String) (convKey : Option String) : Option String :=
  match server.clients.get client with
  | some previous => some previous.convKey
  | none => convKey.orElse fun _ => host.conversationKey client

/-- The relays of `server` once `client` listens on `relays` and nowhere else. -/
def relocate (server : Server) (client : String) (relays : List String) : Network :=
  match server.clients.get client with
  | some previous =>
    (server.network.releaseAll (previous.relays.filter fun url => url ∉ relays) client).listenAll
      host client relays
  | none => server.network.listenAll host client relays

/-- `client` connected as `state`, on its relays, with the window it had. -/
def connectedAs (server : Server) (client : String) (state : ClientState) (admission : Admission) :
    Server :=
  ({ server with
    strangers := server.strangers.delete client
    clients := server.clients.set client state
    network := server.relocate host client state.relays }).note (.admitted client admission)

/-- `#admit` up to its `await`: mark a client connected, on its relays. -/
def admitClient (client : String) (secret : Option String) (relays : List String)
    (connectedAt : Number) (convKey : Option String) (admission : Admission)
    (silent : Bool) (now : Rat) : Act Server Fault Unit := fun server =>
  match normalizeRelays host relays with
  | .error fault => (.error fault, server)
  | .ok relaySet => match server.admissionKey host client convKey with
    | none => (.error (error "invalid public key"),
        { server with strangers := server.strangers.delete client })
    | some key =>
      let connected := server.connectedAs host client
        { connectedAt, secret, relays := relaySet, convKey := key
          seen := server.windowOf host client } admission
      (.ok (), if silent then connected else connected.emit host now)

def addRelay (rawUrl : String) : Act Server Fault Unit := fun server =>
  match normalizeURL host rawUrl with
  | .error fault => (.error fault, server)
  | .ok url => (.ok (), { server with network := server.network.addHosted host url })

def addRelays (relays : List String) (server : Server) : Server :=
  relays.foldl (fun server url => (addRelay host url server).2) server

/-- The secrets of a server after `createBunkerUri` minted or re-minted one. -/
def minted (secrets : Secrets) (secret : String) (relays : List String) (ttl : Number)
    (now : Rat) : Secrets :=
  match secrets.secrets.get secret with
  | some ref =>
    if (secrets.records ref).clientPubkey = none then
      secrets.update ref fun record => { record with relays }
    else secrets
  | none =>
    let record : SecretState :=
      { relays, clientPubkey := none, confirmed := false, pending := 0, origin := .bunker
        expiresAt := none }
    if Number.lt 0 ttl then
      let expiresAt := (Number.finite now).add ttl
      (secrets.scheduleSweep expiresAt).insert secret { record with expiresAt := some expiresAt }
    else secrets.insert secret record

def createBunkerUri (named : Option (List String)) (given : Option String)
    (ttlMs : Option Number) (randomHex : String) (now : Rat) : Act Server Fault String := do
  Act.modify fun server => { server with secrets := server.secrets.sweep now }
  let server ← Act.get
  let secret := given.getD randomHex
  let relays ← Act.ofExcept (normalizeRelays host
    ((named.filter fun urls => urls ≠ []).getD server.network.relays))
  Act.modify (addRelays host relays)
  Act.demand (fun server => (server.secrets.secrets.get secret).isSome ||
      server.secrets.secrets.size < host.options.maxSecrets)
    (error ("too many secrets (limit " ++ toString host.options.maxSecrets ++
      "): revoke some or wait for unclaimed ones to lapse"))
  Act.modify fun server => emit host { server with
    secrets := minted server.secrets secret relays (ttlMs.getD host.options.secretTtlMs) now } now
  Act.ofExcept (checkBunkerUri host relays)
  return secret

/-! ## Restoring -/

def isNumber (value : Value) (number : Number) : Bool :=
  match value with
  | .number held => held = number
  | _ => false

def generationOf : Value → Except Fault Rat
  | .number (.finite generation) =>
    if generation.den = 1 ∧ 0 ≤ generation then .ok generation
    else .error (restoreRefused "state generation must be a non-negative integer")
  | _ => .error (restoreRefused "state generation must be a non-negative integer")

/-- What `restore` reads before it validates: the generation of a state that may
be restored here. -/
def admissibleGeneration (state : Value) (allowUnsigned : Bool) : Except Fault Rat :=
  let version := state.field "version"
  if !state.isObject then .error (restoreRefused "state is not an object")
  else if !version.isDefined || isNumber version 1 then
    if !allowUnsigned then .error (restoreRefused (
      "state is unsigned (pre-2 format); pass \x7b allowUnsigned: true \x7d once to migrate it, " ++
      "then persist the signed export"))
    else if host.options.generation.isNone then .error (restoreRefused (
      "allowUnsigned requires an explicit generation: 0 from the host, asserting it has no " ++
      "keychain counter yet"))
    else .ok 0
  else if isNumber version STATE_VERSION then
    if !(state.field "mac").isDefined then .error (restoreRefused
      "a version 2 state must be signed; allowUnsigned only migrates pre-2 states")
    else if !verifyBunkerState host state then
      .error (restoreRefused "state authentication failed")
    else generationOf (state.field "generation")
  else .error (restoreRefused "unsupported state version")

/-- Whether `state.connectionPubkey` is this server's. -/
def sameKey (state : Value) : Bool :=
  match state.field "connectionPubkey" with
  | .text pubkey => pubkey = host.connectionPubkey
  | _ => false

/-- One record of a plan, unless memory outranks it. -/
def acceptSecret (server : Server) (chosen : List (String × SecretState))
    (incoming : String × SecretState) : Except Fault (List (String × SecretState)) :=
  match (server.secrets.get incoming.1).bind SecretState.clientPubkey with
  | some current =>
    if incoming.2.clientPubkey.any (· ≠ current) then
      .error (restoreRefused "secret is bound to a different client in memory")
    else .ok chosen
  | none => .ok (chosen ++ [incoming])

/-- The records of a plan that memory does not outrank. -/
def acceptedSecrets (server : Server) (plan : List (String × SecretState)) :
    Except Fault (List (String × SecretState)) :=
  plan.foldlM server.acceptSecret []

/-- The record of one restored secret, put in place. -/
def installSecret (secrets : Secrets) (entry : String × SecretState) : Secrets :=
  let installed := secrets.insert entry.1 entry.2
  match entry.2.expiresAt with
  | some expiresAt => if !entry.2.confirmed then installed.scheduleSweep expiresAt else installed
  | none => installed

/-- What `restore` applies once everything is decided. -/
structure RestorePlan where
  generation : Rat
  setSecrets : List (String × SecretState)
  admitted : List RestoredClient

/-- Everything `restore` decides before it touches anything. -/
def planRestore (server : Server) (state : Value) (allowUnsigned : Bool) (now : Rat) :
    Except Fault RestorePlan := do
  let generation ← admissibleGeneration host state allowUnsigned
  refuseIf (!sameKey host state) "state belongs to a different connection key"
  refuseIf (generation < server.generation)
    ("state generation " ++ toString generation.num ++ " is behind the host's " ++
      toString server.generation ++ "; a revocation since then would be undone")
  refuseIf (server.pendingApprovals > 0) (toString server.pendingApprovals ++
    (if server.pendingApprovals = 1 then " approval pending" else " approvals pending"))
  let plan ← validateState host state now
  let setSecrets ← acceptedSecrets server plan.1.entries
  let admitted := plan.2.filter fun client => !server.clients.has client.clientPubkey
  let fresh := setSecrets.filter fun entry => (server.secrets.secrets.get entry.1).isNone
  refuseIf (server.secrets.secrets.size + fresh.length > host.options.maxSecrets)
    ("too many secrets (limit " ++ toString host.options.maxSecrets ++ ")")
  refuseIf (server.clients.size + server.pendingAdmissions.size + admitted.length >
      host.options.maxClients)
    ("too many clients (limit " ++ toString host.options.maxClients ++ ")")
  return { generation, setSecrets, admitted }

/-- One client of a plan admitted; an `#admit` that throws rejects a promise
that is only awaited later. -/
def admitRestored (now : Rat) (server : Server) (client : RestoredClient) : Server :=
  (admitClient host client.clientPubkey client.secret client.relays client.connectedAt
    (some client.convKey) .restored true now server).2

def applied (server : Server) (plan : RestorePlan) (now : Rat) : Server :=
  let installed := { server with
    secrets := plan.setSecrets.foldl installSecret server.secrets }
  let readmitted := plan.admitted.foldl (admitRestored host now) installed
  emit host { readmitted with
    generation := max readmitted.generation plan.generation.num.toNat } now

/-- `restore` up to its `await`. -/
def restore (state : Value) (allowUnsigned : Bool) (now : Rat) : Act Server Fault Unit := do
  let server ← Act.get
  let plan ← Act.ofExcept (planRestore host server state allowUnsigned now)
  Act.modify fun server => server.applied host plan now

variable {host : Host} {server : Server} {state : Value} {allowUnsigned : Bool} {now : Rat}

theorem restore_refused {fault : Fault}
    (decided : server.planRestore host state allowUnsigned now = .error fault) :
    restore host state allowUnsigned now server = (.error fault, server) := by
  unfold restore
  rw [Act.bind_ok (show Act.get server = (.ok server, server) from rfl)]
  exact Act.bind_error (by rw [decided]; rfl)

theorem restore_applied {plan : RestorePlan}
    (decided : server.planRestore host state allowUnsigned now = .ok plan) :
    restore host state allowUnsigned now server = (.ok (), server.applied host plan now) := by
  unfold restore
  rw [Act.bind_ok (show Act.get server = (.ok server, server) from rfl)]
  exact Act.bind_ok (by rw [decided]; rfl)

end Server

end NostrWot.Bunker
