import NostrWot.Bunker.Server
import NostrWot.Sync.Run

namespace NostrWot.Bunker

open NostrWot.Data NostrWot.Sync

/-! # Requests, pairings and runs

Between two awaits the server is alone.  Each move here is one such stretch: a
call of the host, an event from a relay, or an `await` that resumes.
-/

variable (host : Host)

namespace Server

/-! ## Outbound -/

def wireError (fault : Fault) (request : BunkerRequest) : String :=
  ((host.mapError fault request).filter fun text => text ≠ "").getD "request rejected"

/-- `#conversationKey`; `none` where it throws. -/
def conversationKey (server : Server) (client : String) : Option String :=
  match server.clients.get client with
  | some state => some state.convKey
  | none => host.conversationKey client

def ownedBy (server : Server) (client : String) : Option (List String) :=
  (server.clients.get client).map fun _ => server.network.ownedBy client

/-- `#send` up to its `await`; first, whether its promise resolves. -/
def send (server : Server) (client : String) (payload : ResponsePayload) (relays : List String)
    (arrivedOn : Option String) : Bool × Server :=
  if server.network.stopped then (true, server)
  else if (server.conversationKey host client).isNone || !host.encrypts payload then (false, server)
  else
    let opened := relays.foldl pushNew server.network.opened
    (true, ({ server with network := { server.network with opened } }).note
      (.published client payload relays arrivedOn (server.ownedBy client)))

def goneMeanwhile (server : Server) (dispatch : Dispatch) : Bool :=
  dispatch.wasConnected && !server.clients.has dispatch.request.clientPubkey &&
    dispatch.request.method ≠ "connect"

def payloadOf (request : BunkerRequest) : Except Fault String → ResponsePayload
  | .ok result => { id := request.id, result := some result, error := none }
  | .error fault => { id := request.id, result := none, error := some (wireError host fault request) }

def responseRelays (server : Server) (dispatch : Dispatch) : List String :=
  match server.clients.get dispatch.request.clientPubkey with
  | some state => state.relays
  | none => [dispatch.sourceRelay]

def succeeded : Except Fault String → Bool
  | .ok _ => true
  | .error _ => false

/-- The rest of `#dispatch` once it has a result or an error, up to its `await`. -/
def answer (dispatch : Dispatch) (outcome : Except Fault String) (server : Server) : Server :=
  if server.goneMeanwhile dispatch then server
  else
    let relays := server.responseRelays dispatch
    let sent := server.send host dispatch.request.clientPubkey
      (payloadOf host dispatch.request outcome) relays (some dispatch.sourceRelay)
    if sent.1 then sent.2.push (.responding dispatch relays (succeeded outcome)) else sent.2

def responded (dispatch : Dispatch) (relays : List String) (answered : Bool) (now : Rat)
    (server : Server) : Server :=
  let client := dispatch.request.clientPubkey
  let closed := if dispatch.wasConnected && !server.clients.has client then
    server.closeSockets relays else server
  if answered && dispatch.request.method = "logout" then closed.disconnectClient host client now
  else closed

/-! ## Connecting -/

/-- The secret a `connect` presents. -/
def presented (request : BunkerRequest) : String := request.params.getD 1 ""

/-- `#connect` up to the handler. -/
def beginConnect (dispatch : Dispatch) (eventId : String) (now : Rat) :
    Act Server Fault Unit := do
  let client := dispatch.request.clientPubkey
  let secret := presented dispatch.request
  let live ← Act.lift fun server =>
    if secret = "" then (none, server) else server.liveSecret host secret now
  Act.demand (fun _ => !host.options.requireSecret || live.isSome) (bunkerError "invalid secret")
  Act.demand (fun server => !server.overClientCeiling host client) (bunkerError "too many clients")
  let record ← if live.isSome then
      some <$> bind host secret client none "secret already used by another client" now
    else pure none
  let server ← Act.get
  let relays := (record.map fun ref => (server.secrets.records ref).relays).getD
    [dispatch.sourceRelay]
  let slot ← Act.lift fun server => server.beginApproval client
  Act.modify fun server => (server.note (.handed client eventId dispatch.request.id)).push
    (.approval dispatch record relays slot)

/-- `#unbind` of the record a `connect` holds, if it holds one. -/
def unbindHeld (server : Server) (record : Option Ref) (secret : String) (now : Rat) : Server :=
  match record with
  | some ref => server.unbind host ref secret now
  | none => server

/-- Whether an approval's record is no longer the one its secret names. -/
def revoked (server : Server) (record : Option Ref) (secret : String) : Bool :=
  record.any fun ref => server.secrets.secrets.get secret ≠ some ref

def updateHeld (server : Server) (record : Option Ref) (change : SecretState → SecretState) :
    Server :=
  match record with
  | some ref => { server with secrets := server.secrets.update ref change }
  | none => server

/-- `#connect` from an approval of the handler up to the end of `#admit`. -/
def finishConnect (dispatch : Dispatch) (record : Option Ref) (relays : List String) (now : Rat) :
    Act Server Fault Unit := fun server =>
  let client := dispatch.request.clientPubkey
  let secret := presented dispatch.request
  if server.revoked record secret then
    (.error (bunkerError "secret revoked"), server.updateHeld record .settled)
  else if !server.roomFor host client then
    (.error (bunkerError "too many clients"), server.unbindHeld host record secret now)
  else
    admitClient host client (some secret |>.filter fun text => text ≠ "") relays (.finite now) none
      (.approved record) false now (server.updateHeld record (.approved none))

/-- `#connect` when the handler has settled. -/
def connectSettled (dispatch : Dispatch) (record : Option Ref) (relays : List String) (slot : Bool)
    (outcome : Except Fault String) (now : Rat) (server : Server) : Server :=
  let ended := server.endApproval dispatch.request.clientPubkey slot
  match outcome with
  | .error fault =>
    (ended.unbindHeld host record (presented dispatch.request) now).push (.refused dispatch fault)
  | .ok _ => match finishConnect host dispatch record relays now ended with
    | (.ok _, after) => after.push (.admission dispatch)
    | (.error fault, after) => after.push (.refused dispatch fault)

/-! ## Scanning -/

def tooMany (what : String) (limit : Nat) (remedy : String) : Fault :=
  error ("too many " ++ what ++ " (limit " ++ toString limit ++ "): " ++ remedy)

def acceptNostrConnect (uri requestId : String) (now : Rat) : Act Server Fault Unit := do
  let parsed ← Act.ofExcept (parseNostrConnectUri host uri)
  let _ ← Act.lift fun server => server.liveSecret host parsed.secret now
  Act.demand (fun server => !server.overClientCeiling host parsed.clientPubkey)
    (tooMany "clients" host.options.maxClients "disconnect some first")
  Act.demand (fun server => (server.secrets.secrets.get parsed.secret).isSome ||
      server.secrets.secrets.size < host.options.maxSecrets)
    (tooMany "secrets" host.options.maxSecrets "revoke some or wait for unclaimed ones to lapse")
  let ref ← bind host parsed.secret parsed.clientPubkey (some parsed.relays)
    "secret already in use" now
  let slot ← Act.lift fun server => server.beginApproval parsed.clientPubkey
  Act.modify fun server => server.push (.scanApproval parsed requestId ref slot)

/-- `acceptNostrConnect` from an approval of the handler up to the end of `#admit`. -/
def finishScan (parsed : NostrConnectUri) (ref : Ref) (now : Rat) : Act Server Fault Unit :=
  fun server =>
  if server.revoked (some ref) parsed.secret then
    (.error (bunkerError "secret revoked"),
      (server.updateHeld (some ref) .settled).closeSockets parsed.relays)
  else if !server.roomFor host parsed.clientPubkey then
    (.error (tooMany "clients" host.options.maxClients "disconnect some first"),
      (server.unbind host ref parsed.secret now).closeSockets parsed.relays)
  else
    admitClient host parsed.clientPubkey (some parsed.secret) parsed.relays (.finite now) none
      (.approved (some ref)) false now (server.updateHeld (some ref) (.approved (some parsed.relays)))

/-- `acceptNostrConnect` when the handler has settled. -/
def scanSettled (parsed : NostrConnectUri) (requestId : String) (ref : Ref) (slot : Bool)
    (outcome : Except Fault String) (now : Rat) (server : Server) : Server :=
  let ended := server.endApproval parsed.clientPubkey slot
  match outcome with
  | .error _ => (ended.unbind host ref parsed.secret now).closeSockets parsed.relays
  | .ok _ => match finishScan host parsed ref now ended with
    | (.ok _, after) => after.push (.scanAdmission parsed requestId)
    | (.error _, after) => after

def acknowledge (parsed : NostrConnectUri) (requestId : String) (server : Server) : Server :=
  (server.send host parsed.clientPubkey
    { id := requestId, result := some parsed.secret, error := none } parsed.relays none).2

/-! ## Inbound -/

def dispatchRequest (request : BunkerRequest) (eventId sourceRelay : String) (now : Rat)
    (server : Server) : Server :=
  let dispatch : Dispatch :=
    { request, sourceRelay, wasConnected := server.clients.has request.clientPubkey }
  if request.method = "ping" then server.answer host dispatch (.ok "pong")
  else if request.method = "connect" then
    match beginConnect host dispatch eventId now server with
    | (.ok _, after) => after
    | (.error fault, after) => after.push (.refused dispatch fault)
  else if !server.clients.has request.clientPubkey then
    server.answer host dispatch (.error (bunkerError "unauthorized: connect first"))
  else if request.method = "switch_relays" then
    server.answer host dispatch
      (.ok (host.stringify (.array ((server.relaysFor request.clientPubkey).map .text))))
  else (server.note (.handed request.clientPubkey eventId request.id)).push (.handling dispatch)

/-- The stranger pool with a window for `pubkey` in it. -/
def opened (server : Server) (pubkey : String) : Server :=
  match server.strangers.get pubkey with
  | some _ => server
  | none =>
    let grown := server.strangers.set pubkey (.new host.options.seenCapacity)
    ({ server with strangers :=
        if grown.size > host.options.strangerCapacity then grown.dropOldest else grown }).note
      (.opened pubkey)

def noteNew (server : Server) (pubkey key : String) (known : Bool) : Server :=
  if known then server else server.note (.recorded pubkey key)

/-- `#seen`: connected clients keep their own window, strangers share a bounded
pool of them. -/
def seen (server : Server) (pubkey key : String) : Bool × Server :=
  match server.clients.get pubkey with
  | some client =>
    let added := client.seen.addIfNew key
    (added.1, ({ server with
      clients := server.clients.set pubkey { client with seen := added.2 } }).noteNew pubkey key
        added.1)
  | none =>
    let window := (server.strangers.get pubkey).getD (.new host.options.seenCapacity)
    let added := window.addIfNew key
    let pooled := server.opened host pubkey
    -- A pool without room has let the new window go before it is written.
    let strangers := if pooled.strangers.has pubkey then pooled.strangers.set pubkey added.2
      else pooled.strangers
    (added.1, ({ pooled with strangers }).noteNew pubkey key added.1)

/-- A structurally valid decrypted request. -/
def parseRequest (clientPubkey : String) (message : Value) : Option BunkerRequest :=
  match message.field "id", message.field "method" with
  | .text id, .text method =>
    if 0 < utf16Length id ∧ utf16Length id ≤ 256 ∧ method ≠ "" then
      some { id, clientPubkey, method
             params := (message.field "params").itemsOf.map fun param =>
               match param with
               | .text text => text
               | .undefined => host.stringify .null
               | other => host.stringify other }
    else none
  | _, _ => none

def extractId (message : Value) : Option String :=
  (message.field "id").asText?.filter fun id => 0 < utf16Length id && utf16Length id ≤ 256

def refuseMalformed (message : Value) (clientPubkey sourceRelay : String) (server : Server) :
    Server :=
  match extractId message with
  | some id => (server.send host clientPubkey
      { id, result := none, error := some "invalid request" } [sourceRelay] (some sourceRelay)).2
  | none => server

def onMessage (event : NostrEvent) (message : Value) (sourceRelay : String) (now : Rat)
    (server : Server) : Server :=
  match parseRequest host event.pubkey message with
  | none => server.refuseMalformed host message event.pubkey sourceRelay
  | some request =>
    let fresh := server.seen host event.pubkey ("r:" ++ request.id)
    if fresh.1 then fresh.2
    else fresh.2.dispatchRequest host request event.id sourceRelay now

/-- How far a timestamp is from the clock, in seconds. -/
def skew (created_at now : Rat) : Rat :=
  let clock : Rat := (now / 1000).floor
  if clock ≤ created_at then created_at - clock else clock - created_at

def admissible (event : NostrEvent) (now : Rat) : Bool :=
  event.kind = NostrConnect &&
    event.tags.any (fun tag => tag[0]? = some "p" && tag[1]? = some host.connectionPubkey) &&
    host.verifyEvent event &&
    skew event.created_at now ≤ host.options.maxClockSkewSec

def onEvent (event : NostrEvent) (sourceRelay : String) (now : Rat) (server : Server) : Server :=
  if server.network.stopped || !admissible host event now then server
  else
    let fresh := server.seen host event.pubkey ("e:" ++ event.id)
    if fresh.1 then fresh.2
    else match (fresh.2.conversationKey host event.pubkey).bind (host.decryptPayload event.content) with
      | none => fresh.2
      | some message => fresh.2.onMessage host event message sourceRelay now

/-! ## Moves -/

/-- An `await` resumes; `outcome` is what it was waiting for. -/
def resume (frame : Frame) (outcome : Except Fault String) (now : Rat) (server : Server) : Server :=
  match frame with
  | .approval dispatch record relays slot =>
    server.connectSettled host dispatch record relays slot outcome now
  | .admission dispatch => server.answer host dispatch (outcome.map fun _ => "ack")
  | .handling dispatch => server.answer host dispatch outcome
  | .refused dispatch fault => server.answer host dispatch (.error fault)
  | .responding dispatch relays answered => server.responded host dispatch relays answered now
  | .scanApproval parsed requestId ref slot =>
    server.scanSettled host parsed requestId ref slot outcome now
  | .scanAdmission parsed requestId => match outcome with
      | .ok _ => server.acknowledge host parsed requestId
      | .error _ => server
  | .restoring => server

end Server

inductive Move where
  | createBunkerUri (relays : Option (List String)) (secret : Option String)
      (ttlMs : Option Number) (randomHex : String) (now : Rat)
  | addRelay (rawUrl : String)
  | acceptNostrConnect (uri requestId : String) (now : Rat)
  | event (event : NostrEvent) (relay : String) (now : Rat)
  | resume (frame : Nat) (outcome : Except Fault String) (now : Rat)
  | disconnectClient (client : String) (now : Rat)
  | revokeSecret (secret : String) (now : Rat)
  | exportState (now : Rat)
  | restore (state : Value) (allowUnsigned : Bool) (now : Rat)
  | signal (url : String) (id : Nat) (signal : Network.Signal)
  | start
  | stop

namespace Server

def start (server : Server) : Server :=
  if server.network.started || server.network.stopped then server
  else { server with network := server.network.start host }

def stop (server : Server) : Server :=
  if server.network.stopped then server else { server with network := server.network.stop }

/-- `restore`, which waits for the admissions when it does not throw. -/
def restoreCall (state : Value) (allowUnsigned : Bool) (now : Rat) (server : Server) : Server :=
  match restore host state allowUnsigned now server with
  | (.ok _, after) => after.push .restoring
  | (.error _, after) => after

/-- A text `randomHex(16)` can be. -/
def isRandomHex (text : String) : Bool :=
  text.toList.length = 32 && text.toList.all Permissions.isLowerHex

/-- One move; `none` where it cannot be made. -/
def step (server : Server) : Move → Option Server
  | .createBunkerUri relays secret ttlMs randomHex now =>
    if isRandomHex randomHex then
      some (createBunkerUri host relays secret ttlMs randomHex now server).2
    else none
  | .addRelay rawUrl => some (addRelay host rawUrl server).2
  | .acceptNostrConnect uri requestId now =>
    some (acceptNostrConnect host uri requestId now server).2
  | .event event relay now =>
    -- A subscription names its relay as the pool does.
    if host.normalizeURL relay = some relay then some (server.onEvent host event relay now)
    else none
  | .resume index outcome now => server.frames[index]?.map fun frame =>
    { server with frames := server.frames.eraseIdx index }.resume host frame outcome now
  | .disconnectClient client now => some (server.disconnectClient host client now)
  | .revokeSecret secret now => some (server.revokeSecret host secret now).2
  | .exportState now => some (server.exportState host now).2
  | .restore state allowUnsigned now => some (server.restoreCall host state allowUnsigned now)
  | .signal url id signal => some { server with network := server.network.signal host url id signal }
  | .start => some (server.start host)
  | .stop => some server.stop

end Server

/-! ## Messages for examples -/

/-- A `connect` that presents `secret`. -/
def connectMessage (id secret : String) : Value :=
  .object [("id", .text id), ("method", .text "connect"),
    ("params", .array [.text (String.ofList (List.replicate 64 'b')), .text secret])]

/-- An event of `pubkey` for the plain host. -/
def plainEvent (pubkey id content : String) : NostrEvent where
  id
  pubkey
  kind := NostrConnect
  tags := [["p", String.ofList (List.replicate 64 'b')]]
  content
  created_at := 0

end NostrWot.Bunker
