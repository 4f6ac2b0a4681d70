import Mathlib.Logic.Relation
import NostrWot.Bunker.Run

namespace NostrWot.Bunker

open NostrWot.Data NostrWot.Sync

/-! # What a move can do

Every move is a chain of edits, each of which leaves the server consistent.
What holds of the server is shown edit by edit.
-/

structure Approval where
  client : String
  secret : String
  record : Option Ref
  relays : List String
  /-- A scan moves its record to the scanned relays. -/
  scanned : Bool
  slot : Bool

def Frame.approval? : Frame → Option Approval
  | .approval dispatch record relays slot => some {
      client := dispatch.request.clientPubkey, secret := Server.presented dispatch.request, record
      relays, scanned := false, slot }
  | .scanApproval parsed _ ref slot => some {
      client := parsed.clientPubkey, secret := parsed.secret, record := some ref
      relays := parsed.relays, scanned := true, slot }
  | _ => none

def Approval.brought (approval : Approval) : Option (List String) :=
  if approval.scanned then some approval.relays else none

def Approval.kept (approval : Approval) : Option String :=
  if approval.scanned then some approval.secret
  else (some approval.secret).filter fun text => text ≠ ""

def Frame.client : Frame → Option String
  | .approval dispatch .. | .admission dispatch | .handling dispatch | .refused dispatch _
  | .responding dispatch .. => some dispatch.request.clientPubkey
  | .scanApproval parsed .. | .scanAdmission parsed _ => some parsed.clientPubkey
  | .restoring => none

def Frame.Keyed (frame : Frame) : Prop := ∀ client, frame.client = some client → isPubkey client

namespace Server

def ended (server : Server) (index : Nat) (approval : Approval) : Server :=
  { server with frames := server.frames.eraseIdx index }.endApproval approval.client approval.slot

def withHeld (server : Server) (approval : Approval) (change : Secrets → Ref → Secrets) : Server :=
  { server with secrets := match approval.record with
      | some ref => change server.secrets ref
      | none => server.secrets }

/-- The record of an approval, confirmed. -/
def withApproved (server : Server) (approval : Approval) : Server :=
  server.withHeld approval fun secrets ref => secrets.update ref
    (.approved approval.brought)

end Server

/-- How `bind` comes by the record of a secret, given the relays of a scan. -/
inductive Bound (host : Host) (secrets : Secrets) (secret client : String) :
    Option (List String) → Ref → Secrets → Prop
  | existing {relays : Option (List String)} {ref : Ref}
      (found : secrets.secrets.get secret = some ref)
      (free : ∀ other, (secrets.records ref).clientPubkey = some other → other = client) :
      Bound host secrets secret client relays ref (secrets.update ref (.bound client))
  | fresh {relays : List String} (absent : secrets.secrets.get secret = none)
      (room : secrets.secrets.size < host.options.maxSecrets) :
      Bound host secrets secret client (some relays) secrets.next
        ((secrets.insert secret
          { relays, clientPubkey := none, confirmed := false, pending := 0, origin := .nostrconnect
            expiresAt := none }).update secrets.next (.bound client))

/-- Where an approval answers its client: on the relays of its record, or where
the request came from; and what a scan has checked. -/
structure Approval.Fit (host : Host) (secrets : Secrets) (approval : Approval) : Prop where
  held : approval.scanned = false → ∀ ref, approval.record = some ref →
    approval.relays = (secrets.records ref).relays
  free : approval.record = none → approval.scanned = false ∧
    ∃ source, approval.relays = [source] ∧ host.normalizeURL source = some source
  normal : approval.scanned = true → Normal host approval.relays
  listens : approval.scanned = true → approval.relays ≠ []
  few : approval.scanned = true → approval.relays.length ≤ host.options.maxRelaysPerClient
  named : approval.scanned = true → approval.secret ≠ ""

inductive Cause (host : Host) (origin : Server) (move : Move) (server : Server) (client : String) :
    ResponsePayload → List String → Option String → Prop
  | answered {payload : ResponsePayload} {relays : List String} (source : String)
      (home : relays = ((server.clients.get client).map ClientState.relays).getD [source]) :
      Cause host origin move server client payload relays (some source)
  /-- `#onEvent` refuses a malformed request. -/
  | malformed {event : NostrEvent} {message : Value} {id source : String} {now : Rat}
      (moved : move = .event event source now) (sender : client = event.pubkey)
      (accepted : Server.admissible host event now = true)
      (fresh : (origin.seen host event.pubkey ("e:" ++ event.id)).1 = false)
      (read : (origin.conversationKey host event.pubkey).bind (host.decryptPayload event.content) =
        some message)
      (unread : Server.parseRequest host event.pubkey message = none)
      (named : Server.extractId message = some id)
      (same : ∀ other, (server.clients.get other).map ClientState.relays =
        (origin.clients.get other).map ClientState.relays)
      (network : server.network = origin.network) :
      Cause host origin move server client
        { id, result := none, error := some "invalid request" } [source] (some source)
  /-- `acceptNostrConnect` acknowledges. -/
  | acknowledged {index : Nat} {text : String} {now : Rat} {parsed : NostrConnectUri}
      {requestId : String} (moved : move = .resume index (.ok text) now)
      (found : origin.frames[index]? = some (.scanAdmission parsed requestId))
      (sender : client = parsed.clientPubkey)
      (same : server.clients = origin.clients) (network : server.network = origin.network) :
      Cause host origin move server client
        { id := requestId, result := some parsed.secret, error := none } parsed.relays none

/-- The ids of a request have just been recorded, the event's first; only a pool
without room opens a window in between. -/
def Announced (host : Host) (history : List Note) (client eventId requestId : String) : Prop :=
  ∃ earlier between, (∀ note ∈ between, note = .opened client) ∧
    (between = [] ∨ host.options.strangerCapacity = 0) ∧
    history = earlier ++ .recorded client ("e:" ++ eventId) ::
      (between ++ [.recorded client ("r:" ++ requestId)])

/-- One edit of a move that is made in `origin`. -/
inductive Edit (host : Host) (origin : Server) (move : Move) : Server → Server → Prop
  | rewired {server : Server} (network : Network)
      (stopped : network.stopped = server.network.stopped)
      (owns : ∀ owner url, owner ≠ SERVER_OWNER →
        (network.Owns owner url ↔ server.network.Owns owner url))
      (attended : server.network.Attended → network.Attended)
      (hosted : server.network.relays ≠ [] → network.relays ≠ []) :
      Edit host origin move server { server with network }
  | stopped {server : Server} :
      Edit host origin move server { server with network := server.network.stop }
  | swept {server : Server} (now : Rat) :
      Edit host origin move server { server with secrets := server.secrets.sweep now }
  | dropped {server : Server} {secret : String} {record : SecretState} {now : Rat}
      (found : server.secrets.get secret = some record) (lapsed : Secrets.lapsed record now) :
      Edit host origin move server { server with secrets := server.secrets.remove secret }
  | minted {server : Server} {named : Option (List String)} {given : Option String}
      {ttlMs : Option Number} {randomHex : String} {now : Rat} {relays : List String}
      (moved : move = .createBunkerUri named given ttlMs randomHex now)
      (random : Server.isRandomHex randomHex)
      (normalized : normalizeRelays host
        ((named.filter fun urls => urls ≠ []).getD origin.network.relays) = .ok relays)
      (room : (server.secrets.secrets.get (given.getD randomHex)).isSome ∨
        server.secrets.secrets.size < host.options.maxSecrets)
      (before : server.secrets = origin.secrets.sweep now) :
      Edit host origin move server { server with
        secrets := Server.minted server.secrets (given.getD randomHex) relays
          (ttlMs.getD host.options.secretTtlMs) now }
  | pushed {server : Server} {frame : Frame} (idle : frame.approval? = none)
      (keyed : frame.Keyed) : Edit host origin move server (server.push frame)
  | resumed {index : Nat} {frame : Frame} (found : origin.frames[index]? = some frame)
      (idle : frame.approval? = none) :
      Edit host origin move origin { origin with frames := origin.frames.eraseIdx index }
  | seen {server : Server} {pubkey : String} (key : String) (author : isPubkey pubkey)
      (curve : (host.conversationKey pubkey).isSome) :
      Edit host origin move server (server.seen host pubkey key).2
  | handed {server : Server} {client eventId requestId : String}
      (recorded : Announced host server.history client eventId requestId) :
      Edit host origin move server (server.note (.handed client eventId requestId))
  | published {server : Server} {client : String} {payload : ResponsePayload}
      {relays : List String} {arrivedOn : Option String}
      (running : server.network.stopped = false) (encrypted : host.encrypts payload = true)
      (cause : Cause host origin move server client payload relays arrivedOn) :
      Edit host origin move server
        (server.note (.published client payload relays arrivedOn (server.ownedBy client)))
  | began {server : Server} {frame : Frame} {approval : Approval} {secrets : Secrets}
      {admissions : OrderedMap String Int} (under : frame.approval? = some approval)
      (keyed : isPubkey approval.client)
      (bound : ∀ ref, approval.record = some ref →
        Bound host server.secrets approval.secret approval.client approval.brought ref secrets)
      (unbound : approval.record = none → secrets = server.secrets ∧
        host.options.requireSecret = false)
      (fit : approval.Fit host secrets) :
      Edit host origin move server { server with
        secrets, pendingApprovals := server.pendingApprovals + 1, pendingAdmissions := admissions
        frames := server.frames ++ [frame] }
  /-- An approval that ends without a confirmation. -/
  | unbound {index : Nat} {frame : Frame} {approval : Approval}
      (found : origin.frames[index]? = some frame) (under : frame.approval? = some approval) :
      Edit host origin move origin ((origin.ended index approval).withHeld approval
        fun secrets ref => secrets.unbind ref approval.secret)
  /-- An approval whose secret was revoked meanwhile. -/
  | discarded {index : Nat} {frame : Frame} {approval : Approval} {ref : Ref}
      (found : origin.frames[index]? = some frame) (under : frame.approval? = some approval)
      (holds : approval.record = some ref)
      (gone : origin.secrets.secrets.get approval.secret ≠ some ref) :
      Edit host origin move origin ((origin.ended index approval).withHeld approval
        fun secrets ref => secrets.update ref .settled)
  | approved {index : Nat} {frame : Frame} {approval : Approval} {text : String} {now : Rat}
      {relays : List String} {key : String}
      (moved : move = .resume index (.ok text) now)
      (found : origin.frames[index]? = some frame) (under : frame.approval? = some approval)
      (live : ∀ ref, approval.record = some ref →
        origin.secrets.secrets.get approval.secret = some ref)
      (room : origin.roomFor host approval.client)
      (normalized : normalizeRelays host approval.relays = .ok relays)
      (held : origin.admissionKey host approval.client none = some key) :
      Edit host origin move origin
        (((origin.ended index approval).withApproved approval).connectedAs host approval.client
          { connectedAt := .finite now, secret := approval.kept, relays, convKey := key
            seen := origin.windowOf host approval.client } (.approved approval.record))
  /-- An approval of a client that cannot be admitted. -/
  | unadmitted {index : Nat} {frame : Frame} {approval : Approval} {text : String} {now : Rat}
      {strangers : OrderedMap String BoundedSet}
      (moved : move = .resume index (.ok text) now)
      (found : origin.frames[index]? = some frame) (under : frame.approval? = some approval)
      (live : ∀ ref, approval.record = some ref →
        origin.secrets.secrets.get approval.secret = some ref)
      (unfit : (strangers = origin.strangers ∧
          ∀ relays, normalizeRelays host approval.relays ≠ .ok relays) ∨
        (strangers = origin.strangers.delete approval.client ∧
          origin.admissionKey host approval.client none = none)) :
      Edit host origin move origin
        { (origin.ended index approval).withApproved approval with strangers }
  | departed {server : Server} {client : String} {state : ClientState}
      (found : server.clients.get client = some state) :
      Edit host origin move server (server.departed client state)
  /-- A secret revoked that no connected client came by. -/
  | revoked {server : Server} {secret : String} {record : SecretState} {now : Rat}
      (moved : move = .revokeSecret secret now) (current : server.generation = origin.generation)
      (found : server.secrets.get secret = some record)
      (unused : ∀ client state, record.clientPubkey = some client →
        server.clients.get client = some state → state.secret ≠ some secret) :
      Edit host origin move server { server with
        secrets := server.secrets.remove secret
        generation := nearestDouble (server.generation + 1) }
  /-- A secret revoked together with the client that came by it. -/
  | evicted {server : Server} {secret client : String} {record : SecretState} {state : ClientState}
      {now : Rat} (moved : move = .revokeSecret secret now)
      (current : server.generation = origin.generation)
      (found : server.secrets.get secret = some record) (bound : record.clientPubkey = some client)
      (connected : server.clients.get client = some state) (through : state.secret = some secret) :
      Edit host origin move server ({ server with
        secrets := server.secrets.remove secret
        generation := nearestDouble (server.generation + 1) }.departed client state)
  | installed {server : Server} {state : Value} {allowUnsigned : Bool} {now : Rat}
      {entry : String × SecretState} (moved : move = .restore state allowUnsigned now)
      (room : (server.secrets.secrets.get entry.1).isSome ∨
        server.secrets.secrets.size < host.options.maxSecrets)
      (settled : entry.2.pending = 0)
      (bound : entry.2.confirmed = true → entry.2.clientPubkey.isSome) :
      Edit host origin move server { server with
        secrets := Server.installSecret server.secrets entry }
  | readmitted {server : Server} {state : Value} {allowUnsigned : Bool} {now : Rat}
      {client : String} {restored : ClientState} (moved : move = .restore state allowUnsigned now)
      (keyed : isPubkey client) (room : server.clients.size < host.options.maxClients)
      (window : restored.seen = server.windowOf host client) :
      Edit host origin move server (server.connectedAs host client restored .restored)
  | adopted {server : Server} {state : Value} {allowUnsigned : Bool} {now : Rat} (generation : Nat)
      (moved : move = .restore state allowUnsigned now) (ahead : server.generation ≤ generation) :
      Edit host origin move server { server with generation }

abbrev Edits (host : Host) (origin : Server) (move : Move) : Server → Server → Prop :=
  Relation.ReflTransGen (Edit host origin move)

theorem Edits.keep {host : Host} {origin server after : Server} {move : Move}
    {holds : Server → Prop} (edits : Edits host origin move server after) (before : holds server)
    (kept : ∀ server after, Edit host origin move server after → holds server → holds after) :
    holds after := by
  induction edits with
  | refl => exact before
  | tail _ edit ih => exact kept _ _ edit ih

section Parts

variable {host : Host} {origin server : Server} {move : Move}

open Relation (ReflTransGen)

theorem edits_rewired (network : Network) (same : server.network.SameOwners network) :
    Edits host origin move server { server with network } :=
  .single (.rewired network same.stopped (fun owner url _ => same.owns owner url) same.attended
    fun some => same.relays ▸ some)

theorem edits_emit (now : Rat) : Edits host origin move server (server.emit host now) := by
  unfold Server.emit
  split
  · exact .single (.swept now)
  · exact .refl

theorem emit_records (now : Rat) :
    (server.emit host now).secrets.records = server.secrets.records := by
  unfold Server.emit
  dsimp only
  split
  · exact Secrets.sweep_records _ now
  · rfl

theorem edits_closeSockets (urls : List String) :
    Edits host origin move server (server.closeSockets urls) :=
  edits_rewired _ (Network.closeAll_same _ urls)

theorem edits_disconnectClient (client : String) (now : Rat) :
    Edits host origin move server (server.disconnectClient host client now) := by
  unfold Server.disconnectClient
  split
  · exact .refl
  · next state found => exact .head (.departed found) (edits_emit now)

theorem edits_liveSecret (secret : String) (now : Rat) :
    Edits host origin move server (server.liveSecret host secret now).2 := by
  unfold Server.liveSecret
  split
  · exact .refl
  · next record found =>
    split
    · next lapsed => exact .head (.dropped found lapsed) (edits_emit now)
    · exact .refl

theorem edits_send {client : String} {payload : ResponsePayload} {relays : List String}
    {arrivedOn : Option String}
    (cause : Cause host origin move server client payload relays arrivedOn) :
    Edits host origin move server (server.send host client payload relays arrivedOn).2 := by
  unfold Server.send
  split
  · exact .refl
  · next running =>
    split
    · exact .refl
    · next sendable =>
      have encrypted : host.encrypts payload = true := by simp_all
      have noted : Edit host origin move server
          (server.note (.published client payload relays arrivedOn (server.ownedBy client))) :=
        .published (by simpa using running) encrypted cause
      exact .head noted (edits_rewired _ ⟨fun _ => rfl, rfl, rfl⟩)

variable {dispatch : Dispatch}

theorem edits_answer (outcome : Except Fault String)
    (keyed : isPubkey dispatch.request.clientPubkey) :
    Edits host origin move server (server.answer host dispatch outcome) := by
  unfold Server.answer
  split
  · exact .refl
  · have home : server.responseRelays dispatch =
        ((server.clients.get dispatch.request.clientPubkey).map ClientState.relays).getD
          [dispatch.sourceRelay] := by
      unfold Server.responseRelays
      cases server.clients.get dispatch.request.clientPubkey <;> rfl
    have cause : Cause host origin move server dispatch.request.clientPubkey
        (Server.payloadOf host dispatch.request outcome)
        (server.responseRelays dispatch) (some dispatch.sourceRelay) := .answered _ home
    have sent : Edits host origin move server _ := edits_send cause
    simp only
    split
    · refine sent.tail (.pushed rfl ?_)
      intro client same
      cases same
      exact keyed
    · exact sent

/-! ## Restoring -/

theorem installSecret_secrets (secrets : Secrets) (entry : String × SecretState) :
    (Server.installSecret secrets entry).secrets = secrets.secrets.set entry.1 secrets.next := by
  unfold Server.installSecret
  dsimp only
  split
  · split
    · exact Secrets.scheduleSweep_secrets _ _
    · rfl
  · rfl

def freshIn (secrets : Secrets) (entries : List (String × SecretState)) :
    List (String × SecretState) :=
  entries.filter fun entry => (secrets.secrets.get entry.1).isNone

variable {entries : List (String × SecretState)}

theorem freshIn_install {secrets : Secrets} {entry : String × SecretState}
    (distinct : entry.1 ∉ entries.map Prod.fst) :
    freshIn (Server.installSecret secrets entry) entries = freshIn secrets entries := by
  unfold freshIn
  apply List.filter_congr
  intro other member
  have differs : other.1 ≠ entry.1 := fun same =>
    distinct (same ▸ List.mem_map.mpr ⟨other, member, rfl⟩)
  rw [installSecret_secrets, OrderedMap.get_set, if_neg differs]

variable {state : Value} {allowUnsigned : Bool} {now : Rat}

theorem edits_install (moved : move = .restore state allowUnsigned now)
    (settled : ∀ entry ∈ entries, Settled entry.2) (distinct : (entries.map Prod.fst).Nodup)
    (room : server.secrets.secrets.size + (freshIn server.secrets entries).length ≤
      host.options.maxSecrets) :
    Edits host origin move server
      { server with secrets := entries.foldl Server.installSecret server.secrets } := by
  induction entries generalizing server with
  | nil => exact .refl
  | cons entry rest ih =>
    have clean := settled entry (List.mem_cons_self ..)
    have distinct := List.nodup_cons.mp distinct
    have size : (Server.installSecret server.secrets entry).secrets.size +
        (freshIn server.secrets rest).length ≤
        server.secrets.secrets.size + (freshIn server.secrets (entry :: rest)).length := by
      rw [installSecret_secrets, OrderedMap.size_set]
      unfold freshIn OrderedMap.has
      rw [List.filter_cons]
      cases (server.secrets.secrets.get entry.1) <;> simp
      omega
    have first : Edit host origin move server
        { server with secrets := Server.installSecret server.secrets entry } := by
      refine .installed moved ?_ clean.idle clean.bound
      cases held : server.secrets.secrets.get entry.1 with
      | some ref => exact .inl rfl
      | none =>
        right
        unfold freshIn at room
        rw [List.filter_cons, held] at room
        simp at room
        omega
    refine .head first (ih (fun other member => settled other (List.mem_cons_of_mem _ member))
      distinct.2 ?_)
    rw [freshIn_install distinct.1]
    exact Nat.le_trans size room

theorem connectedAs_size (client : String) (restored : ClientState) (admission : Admission) :
    (server.connectedAs host client restored admission).clients.size ≤ server.clients.size + 1 := by
  change (server.clients.set client restored).size ≤ _
  rw [OrderedMap.size_set]
  split <;> omega

theorem edits_admitRestored (moved : move = .restore state allowUnsigned now)
    {client : RestoredClient} (keyed : isPubkey client.clientPubkey = true)
    (room : server.clients.size < host.options.maxClients) :
    Edits host origin move server (server.admitRestored host now client) ∧
      (server.admitRestored host now client).clients.size ≤ server.clients.size + 1 := by
  unfold Server.admitRestored Server.admitClient
  split
  · exact ⟨.refl, Nat.le_succ _⟩
  · next relays normalized =>
    have held : ∃ key, server.admissionKey host client.clientPubkey (some client.convKey) =
        some key := by
      unfold Server.admissionKey
      split
      · exact ⟨_, rfl⟩
      · exact ⟨_, rfl⟩
    obtain ⟨key, held⟩ := held
    rw [held]
    exact ⟨.single (.readmitted moved keyed room rfl), connectedAs_size _ _ _⟩

theorem edits_readmit (moved : move = .restore state allowUnsigned now)
    {clients : List RestoredClient} (keyed : ∀ client ∈ clients, isPubkey client.clientPubkey = true)
    (room : server.clients.size + clients.length ≤ host.options.maxClients) :
    Edits host origin move server (clients.foldl (Server.admitRestored host now) server) := by
  induction clients generalizing server with
  | nil => exact .refl
  | cons client rest ih =>
    rw [List.length_cons] at room
    have others := fun other member => keyed other (List.mem_cons_of_mem client member)
    have first : Edits host origin move server _ ∧ _ :=
      edits_admitRestored moved (keyed client (List.mem_cons_self ..)) (by omega)
    rw [List.foldl_cons]
    exact first.1.trans (ih others (by omega))

theorem acceptSecret_ok {start next : List (String × SecretState)} {entry : String × SecretState}
    (accepted : server.acceptSecret start entry = .ok next) :
    next = start ∨ next = start ++ [entry] := by
  unfold Server.acceptSecret at accepted
  split at accepted
  · split at accepted
    · contradiction
    · exact .inl (Except.ok.inj accepted).symm
  · exact .inr (Except.ok.inj accepted).symm

theorem acceptedSecrets_sublist {plan chosen : List (String × SecretState)}
    (accepted : server.acceptedSecrets plan = .ok chosen) : chosen.Sublist plan := by
  have folds : ∀ (rest start chosen : List (String × SecretState)),
      rest.foldlM server.acceptSecret start = .ok chosen →
      ∃ more, chosen = start ++ more ∧ more.Sublist rest := by
    intro rest
    induction rest with
    | nil =>
      intro start chosen folded
      cases folded
      exact ⟨[], by simp, .slnil⟩
    | cons entry rest ih =>
      intro start chosen folded
      rw [List.foldlM_cons] at folded
      obtain ⟨next, stepped, others⟩ := bind_ok folded
      obtain ⟨more, rfl, sub⟩ := ih next chosen others
      rcases acceptSecret_ok stepped with rfl | rfl
      · exact ⟨more, rfl, sub.cons _⟩
      · exact ⟨entry :: more, by simp, sub.cons_cons _⟩
  obtain ⟨more, rfl, sub⟩ := folds plan [] chosen accepted
  exact sub

/-- What `restore` has decided when it begins to apply. -/
structure Planned (host : Host) (server : Server) (plan : Server.RestorePlan) : Prop where
  settled : ∀ entry ∈ plan.setSecrets, Settled entry.2
  distinct : (plan.setSecrets.map Prod.fst).Nodup
  secrets : server.secrets.secrets.size + (freshIn server.secrets plan.setSecrets).length ≤
    host.options.maxSecrets
  keyed : ∀ client ∈ plan.admitted, isPubkey client.clientPubkey = true
  clients : server.clients.size + server.pendingAdmissions.size + plan.admitted.length ≤
    host.options.maxClients
  idle : server.pendingApprovals ≤ 0
  current : (server.generation : Rat) ≤ plan.generation

theorem planRestore_planned {plan : Server.RestorePlan}
    (decided : server.planRestore host state allowUnsigned now = .ok plan) :
    Planned host server plan := by
  unfold Server.planRestore at decided
  obtain ⟨generation, -, decided⟩ := bind_ok decided
  obtain ⟨-, -, decided⟩ := bind_ok decided
  obtain ⟨⟨⟩, current, decided⟩ := bind_ok decided
  obtain ⟨⟨⟩, idle, decided⟩ := bind_ok decided
  obtain ⟨valid, checked, decided⟩ := bind_ok decided
  obtain ⟨setSecrets, accepted, decided⟩ := bind_ok decided
  obtain ⟨⟨⟩, secrets, decided⟩ := bind_ok decided
  obtain ⟨⟨⟩, clients, decided⟩ := bind_ok decided
  cases decided
  have sub := acceptedSecrets_sublist accepted
  obtain ⟨settled, keyed⟩ := validateState_ok checked
  have current := refuseIf_ok current
  have idle := refuseIf_ok idle
  have secrets := refuseIf_ok secrets
  have clients := refuseIf_ok clients
  simp only [decide_eq_false_iff_not] at current
  simp only [decide_eq_false_iff_not, not_lt, gt_iff_lt] at idle secrets clients
  refine ⟨fun entry member => settled entry (sub.subset member),
    valid.1.nodup.sublist (sub.map Prod.fst), secrets, ?_, clients, idle, Rat.not_lt.mp current⟩
  exact fun client member => keyed client (List.mem_filter.mp member).1

theorem edits_applied (moved : move = .restore state allowUnsigned now)
    {plan : Server.RestorePlan} (planned : Planned host server plan) :
    Edits host origin move server (server.applied host plan now) := by
  have installed : Edits host origin move server _ :=
    edits_install moved planned.settled planned.distinct planned.secrets
  have room : ({ server with
      secrets := plan.setSecrets.foldl Server.installSecret server.secrets } : Server).clients.size +
      plan.admitted.length ≤ host.options.maxClients := by
    have clients := planned.clients
    change server.clients.size + plan.admitted.length ≤ _
    omega
  have readmitted : Edits host origin move _ _ := edits_readmit moved planned.keyed room
  unfold Server.applied
  dsimp only
  exact ((installed.trans readmitted).tail (.adopted _ moved (Nat.le_max_left _ _))).trans
    (edits_emit now)

theorem edits_restore (moved : move = .restore state allowUnsigned now) :
    Edits host origin move server (server.restoreCall host state allowUnsigned now) := by
  unfold Server.restoreCall
  cases decided : server.planRestore host state allowUnsigned now with
  | error fault =>
    rw [Server.restore_refused decided]
  | ok plan =>
    rw [Server.restore_applied decided]
    refine (edits_applied moved (planRestore_planned decided)).tail (.pushed rfl ?_)
    intro client same
    contradiction

/-! ## Minting -/

theorem addHosted_owns (network : Network) (url owner other : String) (client : owner ≠ SERVER_OWNER) :
    (network.addHosted host url).Owns owner other ↔ network.Owns owner other := by
  unfold Network.addHosted
  rw [(Network.listen_claims host _ _ _).owns, Network.claim_owns]
  simp only [client, false_and, or_false]
  exact Iff.rfl

theorem addHosted_attended {network : Network} (attended : network.Attended) (url : String) :
    (network.addHosted host url).Attended := by
  have hosted : ({ network with relays := pushNew network.relays url } : Network).Attended :=
    attended
  exact (Network.listen_claims host _ _ _).attended (Network.claim_attended hosted _ _)

variable (url : String)

theorem edits_addHosted :
    Edits host origin move server { server with network := server.network.addHosted host url } := by
  refine .single (.rewired _ ?_ (addHosted_owns _ url · · ·) (addHosted_attended · url) fun _ => ?_)
  · exact Network.listen_stopped host _ _ _
  · unfold Network.addHosted
    rw [(Network.listen_claims host _ _ _).relays, Network.claim_relays]
    exact pushNew_ne_nil _ _

theorem edits_addRelay :
    Edits host origin move server (Server.addRelay host url server).2 := by
  unfold Server.addRelay
  split
  · exact .refl
  · exact edits_addHosted _

theorem addRelay_secrets :
    (Server.addRelay host url server).2.secrets = server.secrets := by
  unfold Server.addRelay
  split <;> rfl

theorem edits_addRelays (urls : List String) :
    Edits host origin move server (server.addRelays host urls) ∧
      (server.addRelays host urls).secrets = server.secrets := by
  unfold Server.addRelays
  induction urls generalizing server with
  | nil => exact ⟨.refl, rfl⟩
  | cons url rest ih =>
    have others : Edits host origin move (Server.addRelay host url server).2
          (Server.addRelays host rest (Server.addRelay host url server).2) ∧
        (Server.addRelays host rest (Server.addRelay host url server).2).secrets =
          (Server.addRelay host url server).2.secrets := ih
    exact ⟨(edits_addRelay url).trans others.1, others.2.trans (addRelay_secrets url)⟩

theorem edits_createBunkerUri {named : Option (List String)} {given : Option String}
    {ttlMs : Option Number} {randomHex : String}
    (moved : move = .createBunkerUri named given ttlMs randomHex now)
    (random : Server.isRandomHex randomHex = true) :
    Edits host origin move origin
      (Server.createBunkerUri host named given ttlMs randomHex now origin).2 := by
  have swept : Edits host origin move origin
      { origin with secrets := origin.secrets.sweep now } := .single (.swept now)
  unfold Server.createBunkerUri
  simp only [Act.modify_bind, Act.get_bind]
  cases normalized : normalizeRelays host
      ((named.filter fun urls => urls ≠ []).getD origin.network.relays) with
  | error fault =>
    simp only [Act.ofExcept_error_bind]
    exact swept
  | ok relays =>
    simp only [Act.ofExcept_ok_bind, Act.modify_bind, Act.demand_bind]
    have added : Edits host origin move { origin with secrets := origin.secrets.sweep now } _ ∧ _ :=
      edits_addRelays relays
    split
    · next room =>
      rw [Bool.or_eq_true, decide_eq_true_eq] at room
      have written : Edit host origin move _ _ :=
        .minted moved random normalized room added.2
      have all := ((swept.trans added.1).tail written).trans (edits_emit now)
      cases checkBunkerUri host relays <;> exact all
    · exact swept.trans added.1

/-! ## Approvals that begin -/

theorem bind_cases {secret client : String} (relays : Option (List String)) (refusal : String)
    (now : Rat)
    (room : relays.isSome → server.secrets.secrets.get secret = none →
      server.secrets.secrets.size < host.options.maxSecrets) :
    (∃ fault, Server.bind host secret client relays refusal now server = (.error fault, server)) ∨
    ∃ ref secrets, Bound host server.secrets secret client relays ref secrets ∧
      Server.bind host secret client relays refusal now server =
        (.ok ref, Server.emit host { server with secrets } now) := by
  unfold Server.bind
  dsimp only
  split
  · next ref found =>
    split
    · exact .inl ⟨_, rfl⟩
    · next free =>
      refine .inr ⟨ref, _, .existing found fun other bound => ?_, rfl⟩
      by_contra differs
      exact free (by rw [bound]; simpa using differs)
  · next absent =>
    split
    · exact .inl ⟨_, rfl⟩
    · exact .inr ⟨_, _, .fresh absent (room rfl absent), rfl⟩

variable {frame : Frame}

theorem edits_began (server : Server) {approval : Approval} {secrets : Secrets}
    (under : frame.approval? = some approval) (keyed : isPubkey approval.client = true)
    (bound : ∀ ref, approval.record = some ref →
      Bound host server.secrets approval.secret approval.client approval.brought ref secrets)
    (unbound : approval.record = none → secrets = server.secrets ∧
      host.options.requireSecret = false) (fit : approval.Fit host secrets) :
    Edits host origin move server
      ((({ server with secrets } : Server).beginApproval approval.client).2.push frame) :=
  .single (.began under keyed bound unbound fit)

theorem edits_acceptNostrConnect (uri requestId : String) (now : Rat) :
    Edits host origin move server
      (Server.acceptNostrConnect host uri requestId now server).2 := by
  unfold Server.acceptNostrConnect
  cases accepted : parseNostrConnectUri host uri with
  | error fault => exact .refl
  | ok parsed =>
    have scanned := parseNostrConnectUri_scanned accepted
    have looked : Edits host origin move server (server.liveSecret host parsed.secret now).2 :=
      edits_liveSecret _ _
    simp only [Act.ofExcept_ok_bind, Act.lift_bind, Act.demand_bind]
    generalize (server.liveSecret host parsed.secret now).2 = swept at looked ⊢
    split
    · split
      · next room =>
        rw [Bool.or_eq_true, decide_eq_true_eq] at room
        have free : (some parsed.relays).isSome = true →
            swept.secrets.secrets.get parsed.secret = none →
            swept.secrets.secrets.size < host.options.maxSecrets := fun _ absent =>
          room.resolve_left (by rw [absent]; simp)
        rcases bind_cases (some parsed.relays) "secret already in use" now free with
          ⟨fault, refused⟩ | ⟨ref, secrets, bound, taken⟩
        · rw [Act.bind_error refused]
          exact looked
        · rw [Act.bind_ok taken]
          simp only [Act.lift_bind, Act.modify_apply]
          generalize slot : (Server.beginApproval _ parsed.clientPubkey).1 = tookSlot
          have under : (Frame.scanApproval parsed requestId ref tookSlot).approval? = some {
              client := parsed.clientPubkey, secret := parsed.secret, record := some ref
              relays := parsed.relays, scanned := true, slot := tookSlot } := rfl
          refine looked.trans ((edits_began swept under scanned.pubkey ?_ ?_ ?_).trans
            (edits_emit now))
          · intro other same
            cases same
            exact bound
          · intro none
            contradiction
          · exact {
              held := by intro plain; contradiction
              free := by intro none; contradiction
              normal := fun _ => scanned.normal
              listens := fun _ => scanned.listens
              few := fun _ => scanned.few
              named := fun _ => scanned.secret }
      · exact looked
    · exact looked

theorem liveSecret_history (secret : String) (now : Rat) :
    (server.liveSecret host secret now).2.history = server.history := by
  unfold Server.liveSecret
  split
  · rfl
  · split
    · rfl
    · rfl

theorem edits_asked {eventId : String} {record : Option Ref} {relays : List String} {slot : Bool}
    {secrets : Secrets} (keyed : isPubkey dispatch.request.clientPubkey = true)
    (recorded : Announced host server.history dispatch.request.clientPubkey eventId dispatch.request.id)
    (bound : ∀ ref, record = some ref → Bound host server.secrets
      (Server.presented dispatch.request) dispatch.request.clientPubkey none ref secrets)
    (unbound : record = none → secrets = server.secrets ∧ host.options.requireSecret = false)
    (held : ∀ ref, record = some ref → relays = (secrets.records ref).relays)
    (free : record = none → ∃ source, relays = [source] ∧ host.normalizeURL source = some source) :
    Edits host origin move server
      (((({ server with secrets } : Server).beginApproval dispatch.request.clientPubkey).2.note
          (.handed dispatch.request.clientPubkey eventId dispatch.request.id)).push
        (.approval dispatch record relays slot)) := by
  have under : (Frame.approval dispatch record relays slot).approval? = some {
      client := dispatch.request.clientPubkey, secret := Server.presented dispatch.request, record
      relays, scanned := false, slot } := rfl
  have noted : Edit host origin move server _ := .handed recorded
  exact .head noted (edits_began _ under keyed bound unbound {
    held := fun _ => held
    free := fun none => ⟨rfl, free none⟩
    normal := by intro scanned; contradiction
    listens := by intro scanned; contradiction
    few := by intro scanned; contradiction
    named := by intro scanned; contradiction })

theorem edits_beginConnect (dispatch : Dispatch) {eventId : String} (now : Rat)
    (keyed : isPubkey dispatch.request.clientPubkey = true)
    (recorded : Announced host server.history dispatch.request.clientPubkey eventId dispatch.request.id)
    (source : host.normalizeURL dispatch.sourceRelay = some dispatch.sourceRelay) :
    Edits host origin move server (Server.beginConnect host dispatch eventId now server).2 := by
  unfold Server.beginConnect
  simp only [Act.lift_bind, Act.demand_bind]
  generalize looking : (if Server.presented dispatch.request = "" then (none, server)
    else server.liveSecret host (Server.presented dispatch.request) now) = looked
  have reached : Edits host origin move server looked.2 := by
    rw [← looking]
    split
    · exact .refl
    · exact edits_liveSecret _ now
  have history : looked.2.history = server.history := by
    rw [← looking]
    split
    · rfl
    · exact liveSecret_history _ now
  rw [← history] at recorded
  split
  · next secret =>
    split
    · split
      · rcases bind_cases none "secret already used by another client" now (by simp) with
          ⟨fault, refused⟩ | ⟨ref, secrets, bound, taken⟩
        · rw [Act.bind_error (Act.map_error refused)]
          exact reached
        · rw [Act.bind_ok (Act.map_ok taken)]
          simp only [Act.get_bind, Act.lift_bind, Act.modify_apply]
          have holds : ∀ other, some ref = some other → Bound host looked.2.secrets
              (Server.presented dispatch.request) dispatch.request.clientPubkey none other
              secrets := by
            intro other same
            cases same
            exact bound
          refine reached.trans ((edits_asked keyed recorded holds (by simp) ?_ (by simp)).trans
            (edits_emit now))
          intro other same
          cases same
          exact congrArg SecretState.relays (congrFun (emit_records now) ref)
      · next dead =>
        have free : host.options.requireSecret = false := by simpa [dead] using secret
        simp only [Act.pure_bind, Act.get_bind, Act.lift_bind, Act.modify_apply]
        refine reached.trans (edits_asked keyed recorded ?_ (fun _ => ⟨rfl, free⟩) ?_
          fun _ => ⟨_, rfl, source⟩)
        · intro other same
          contradiction
        · intro other same
          contradiction
    · exact reached
  · exact reached

/-! ## Events -/

theorem edits_dispatchRequest {request : BunkerRequest} {eventId source : String}
    (now : Rat) (keyed : isPubkey request.clientPubkey = true)
    (recorded : Announced host server.history request.clientPubkey eventId request.id)
    (normalized : host.normalizeURL source = some source) :
    Edits host origin move server (server.dispatchRequest host request eventId source now) := by
  have mine : ∀ frame : Frame, frame.client = some request.clientPubkey → frame.Keyed := by
    intro frame about client same
    rw [about] at same
    cases same
    exact keyed
  unfold Server.dispatchRequest
  dsimp only
  split
  · exact edits_answer _ keyed
  · split
    · have begun : Edits host origin move server _ := edits_beginConnect {
          request, sourceRelay := source
          wasConnected := server.clients.has request.clientPubkey } now keyed recorded normalized
      split
      · next after ran =>
        rw [ran] at begun
        exact begun
      · next fault after ran =>
        rw [ran] at begun
        exact begun.tail (.pushed rfl (mine _ rfl))
    · split
      · exact edits_answer _ keyed
      · split
        · exact edits_answer _ keyed
        · exact .head (.handed recorded) (.single (.pushed rfl (mine _ rfl)))

/-- Whose window is there after `seen`. -/
def Server.Windowed (host : Host) (server : Server) (pubkey : String) : Prop :=
  server.clients.has pubkey = true ∨ server.strangers.has pubkey = true ∨
    host.options.strangerCapacity = 0

theorem opened_windowed (host : Host) (server : Server) (pubkey : String) :
    (server.opened host pubkey).strangers.has pubkey = true ∨ host.options.strangerCapacity = 0 := by
  unfold Server.opened
  cases found : server.strangers.get pubkey with
  | some window =>
    left
    unfold OrderedMap.has
    dsimp only
    rw [found]
    rfl
  | none =>
    dsimp only
    split
    · next full =>
      have entries := OrderedMap.entries_set_of_none found
        (BoundedSet.new host.options.seenCapacity)
      cases held : server.strangers.entries with
      | nil =>
        right
        unfold OrderedMap.size at full
        rw [entries, held] at full
        exact Nat.lt_one_iff.mp full
      | cons oldest rest =>
        left
        rw [held] at entries
        refine OrderedMap.has_iff_mem.mpr ⟨.new host.options.seenCapacity, ?_⟩
        change _ ∈ (server.strangers.set pubkey _).entries.tail
        rw [entries]
        simp
    · left
      change ((server.strangers.set pubkey _).get pubkey).isSome = true
      rw [OrderedMap.get_set_self]
      rfl

theorem seen_windowed (host : Host) (server : Server) (pubkey key : String) :
    (server.seen host pubkey key).2.Windowed host pubkey := by
  unfold Server.seen
  split
  · next client found =>
    left
    have connected : (server.clients.set pubkey { client with
        seen := (client.seen.addIfNew key).2 }).has pubkey = true := by
      unfold OrderedMap.has
      rw [OrderedMap.get_set_self]
      rfl
    unfold Server.noteNew
    dsimp only
    split <;> exact connected
  · right
    unfold Server.noteNew
    rcases opened_windowed host server pubkey with pooled | roomless
    · left
      have written : ((server.opened host pubkey).strangers.set pubkey
          (((server.strangers.get pubkey).getD (.new host.options.seenCapacity)).addIfNew key).2).has
            pubkey = true := by
        unfold OrderedMap.has
        rw [OrderedMap.get_set_self]
        rfl
      dsimp only
      rw [if_pos pooled]
      split <;> exact written
    · exact .inr roomless

theorem seen_history {pubkey key : String} (fresh : (server.seen host pubkey key).1 = false)
    (windowed : server.Windowed host pubkey) :
    ∃ between, (∀ note ∈ between, note = .opened pubkey) ∧
      (between = [] ∨ host.options.strangerCapacity = 0) ∧
      (server.seen host pubkey key).2.history =
        server.history ++ (between ++ [.recorded pubkey key]) := by
  unfold Server.seen at fresh ⊢
  split
  · next client found =>
    rw [found] at fresh
    refine ⟨[], by simp, .inl rfl, ?_⟩
    dsimp only at fresh ⊢
    rw [fresh]
    rfl
  · next absent =>
    rw [absent] at fresh
    dsimp only at fresh ⊢
    rw [fresh]
    unfold Server.opened
    split
    · exact ⟨[], by simp, .inl rfl, rfl⟩
    · next none =>
      have roomless : host.options.strangerCapacity = 0 := by
        unfold Server.Windowed OrderedMap.has at windowed
        rw [absent, none] at windowed
        simpa using windowed
      refine ⟨[.opened pubkey], by simp, .inr roomless, ?_⟩
      change (server.history ++ [Note.opened pubkey]) ++ [Note.recorded pubkey key] = _
      rw [List.append_assoc]

theorem seen_recorded {pubkey key : String} (fresh : (server.seen host pubkey key).1 = false) :
    ∃ opening, (server.seen host pubkey key).2.history =
      server.history ++ (opening ++ [.recorded pubkey key]) := by
  unfold Server.seen at fresh ⊢
  split
  · next client found =>
    rw [found] at fresh
    refine ⟨[], ?_⟩
    dsimp only at fresh ⊢
    rw [fresh]
    rfl
  · next absent =>
    rw [absent] at fresh
    dsimp only at fresh ⊢
    rw [fresh]
    unfold Server.opened
    split
    · exact ⟨[], rfl⟩
    · refine ⟨[.opened pubkey], ?_⟩
      change (server.history ++ [Note.opened pubkey]) ++ [Note.recorded pubkey key] = _
      rw [List.append_assoc]

theorem opened_history (host : Host) (server : Server) (pubkey : String) :
    ∃ notes, (∀ note ∈ notes, note = .opened pubkey) ∧
      (server.opened host pubkey).history = server.history ++ notes := by
  unfold Server.opened
  split
  · exact ⟨[], by simp, (List.append_nil _).symm⟩
  · exact ⟨[.opened pubkey], by simp, rfl⟩

theorem noteNew_history (server : Server) (pubkey key : String) (known : Bool) :
    ∃ notes, (∀ note ∈ notes, note = .recorded pubkey key) ∧
      (server.noteNew pubkey key known).history = server.history ++ notes := by
  unfold Server.noteNew
  split
  · exact ⟨[], by simp, (List.append_nil _).symm⟩
  · exact ⟨[.recorded pubkey key], by simp, rfl⟩

theorem seen_notes (host : Host) (server : Server) (pubkey key : String) :
    ∃ notes, (∀ note ∈ notes, note = .opened pubkey ∨ note = .recorded pubkey key) ∧
      (server.seen host pubkey key).2.history = server.history ++ notes := by
  unfold Server.seen
  split
  · obtain ⟨notes, kind, history⟩ := noteNew_history _ pubkey key _
    exact ⟨notes, fun note member => .inr (kind note member), history⟩
  · obtain ⟨opening, opens, pooled⟩ := opened_history host server pubkey
    obtain ⟨notes, kind, history⟩ := noteNew_history _ pubkey key _
    refine ⟨opening ++ notes, fun note member => ?_, ?_⟩
    · rcases List.mem_append.mp member with old | new
      · exact .inl (opens note old)
      · exact .inr (kind note new)
    · rw [← List.append_assoc, ← pooled]
      exact history

/-- What `seen` leaves of the clients is everything but one window. -/
theorem seen_relays (pubkey key other : String) :
    ((server.seen host pubkey key).2.clients.get other).map ClientState.relays =
      (server.clients.get other).map ClientState.relays := by
  unfold Server.seen Server.noteNew
  split
  · next client found =>
    dsimp only
    have swapped : ((server.clients.set pubkey { client with
        seen := (client.seen.addIfNew key).2 }).get other).map ClientState.relays =
        (server.clients.get other).map ClientState.relays := by
      rw [OrderedMap.get_set]
      split
      · next same => subst same; rw [found]; rfl
      · rfl
    split <;> exact swapped
  · unfold Server.opened
    dsimp only
    split <;> split <;> rfl

theorem seen_frames (host : Host) (server : Server) (pubkey key : String) :
    (server.seen host pubkey key).2.frames = server.frames ∧
      (server.seen host pubkey key).2.network = server.network ∧
      (server.seen host pubkey key).2.secrets = server.secrets ∧
      (server.seen host pubkey key).2.generation = server.generation ∧
      (server.seen host pubkey key).2.pendingApprovals = server.pendingApprovals := by
  unfold Server.seen Server.noteNew Server.opened
  split
  · dsimp only
    split <;> exact ⟨rfl, rfl, rfl, rfl, rfl⟩
  · dsimp only
    split <;> split <;> exact ⟨rfl, rfl, rfl, rfl, rfl⟩

theorem edits_refuseMalformed {event : NostrEvent} {message : Value} {source : String}
    {now : Rat} (moved : move = .event event source now)
    (accepted : Server.admissible host event now = true)
    (fresh : (origin.seen host event.pubkey ("e:" ++ event.id)).1 = false)
    (read : (origin.conversationKey host event.pubkey).bind (host.decryptPayload event.content) =
      some message)
    (unread : Server.parseRequest host event.pubkey message = none)
    (same : ∀ other, (server.clients.get other).map ClientState.relays =
      (origin.clients.get other).map ClientState.relays)
    (network : server.network = origin.network) :
    Edits host origin move server (server.refuseMalformed host message event.pubkey source) := by
  unfold Server.refuseMalformed
  split
  · next id named =>
    exact edits_send (.malformed moved rfl accepted fresh read unread named same network)
  · exact .refl

theorem seen_conversationKey (pubkey key other : String) :
    (server.seen host pubkey key).2.conversationKey host other =
      server.conversationKey host other := by
  have keys : ((server.seen host pubkey key).2.clients.get other).map ClientState.convKey =
      (server.clients.get other).map ClientState.convKey := by
    unfold Server.seen Server.noteNew
    split
    · next client found =>
      dsimp only
      have swapped : ((server.clients.set pubkey { client with
          seen := (client.seen.addIfNew key).2 }).get other).map ClientState.convKey =
          (server.clients.get other).map ClientState.convKey := by
        rw [OrderedMap.get_set]
        split
        · next same => subst same; rw [found]; rfl
        · rfl
      split <;> exact swapped
    · unfold Server.opened
      dsimp only
      split <;> split <;> rfl
  unfold Server.conversationKey
  cases before : server.clients.get other <;>
    cases after : (server.seen host pubkey key).2.clients.get other <;> simp_all

theorem parseRequest_client {pubkey : String} {message : Value} {request : BunkerRequest}
    (parsed : Server.parseRequest host pubkey message = some request) :
    request.clientPubkey = pubkey := by
  unfold Server.parseRequest at parsed
  split at parsed
  · split at parsed
    · cases parsed
      rfl
    · contradiction
  · contradiction

theorem edits_onEvent {event : NostrEvent} {source : String} {now : Rat}
    (moved : move = .event event source now) (normalized : host.normalizeURL source = some source) :
    Edits host origin move origin (origin.onEvent host event source now) := by
  unfold Server.onEvent
  split
  · exact .refl
  · next accepted =>
    simp only [Bool.or_eq_true, Bool.not_eq_true', not_or, Bool.not_eq_false] at accepted
    replace accepted := accepted.2
    have author : isPubkey event.pubkey = true := by
      simp only [Server.admissible, Bool.and_eq_true] at accepted
      exact host.verified_pubkey event accepted.1.2
    have curve : (host.conversationKey event.pubkey).isSome := by
      simp only [Server.admissible, Bool.and_eq_true] at accepted
      exact host.verified_curve event accepted.1.2
    have first : Edit host origin move origin _ := .seen ("e:" ++ event.id) author curve
    dsimp only
    split
    · exact .single first
    · next new =>
      have new : (origin.seen host event.pubkey ("e:" ++ event.id)).1 = false := by simpa using new
      split
      · exact .single first
      · next message read =>
        rw [seen_conversationKey] at read
        refine .head first ?_
        unfold Server.onMessage
        split
        · next unread =>
          refine edits_refuseMalformed moved accepted new read unread (seen_relays _ _) ?_
          exact (seen_frames host origin event.pubkey _).2.1
        · next request parsed =>
          have second : Edit host origin move
              (origin.seen host event.pubkey ("e:" ++ event.id)).2 _ :=
            .seen ("r:" ++ request.id) author curve
          dsimp only
          split
          · exact .single second
          · next fresh =>
            have fresh : ((origin.seen host event.pubkey ("e:" ++ event.id)).2.seen host
                event.pubkey ("r:" ++ request.id)).1 = false := by simpa using fresh
            refine .head second (edits_dispatchRequest now ?_ ?_ normalized)
            · rw [parseRequest_client parsed]
              exact author
            · have kept := seen_windowed host origin event.pubkey ("e:" ++ event.id)
              obtain ⟨opening, noted⟩ := seen_recorded new
              obtain ⟨between, gap, roomless, history⟩ := seen_history fresh kept
              rw [noted] at history
              rw [parseRequest_client parsed]
              refine ⟨origin.history ++ opening, between, gap, roomless, ?_⟩
              rw [history]
              simp

/-! ## Awaits that resume -/

theorem edits_unbind (server : Server) (ref : Ref) (secret : String) (now : Rat) :
    Edits host origin move { server with secrets := server.secrets.unbind ref secret }
      (server.unbind host ref secret now) := by
  unfold Server.unbind
  dsimp only
  split
  · split
    · have closed : Edits host origin move
          { server with secrets := server.secrets.unbind ref secret } _ :=
        edits_closeSockets (server.secrets.records ref).settled.relays
      exact closed.trans (edits_emit now)
    · exact edits_emit now
  · exact .refl

variable {index : Nat} {frame : Frame} {approval : Approval} {text : String}

theorem edits_unbound (found : origin.frames[index]? = some frame)
    (under : frame.approval? = some approval) (now : Rat) :
    Edits host origin move origin
      ((origin.ended index approval).unbindHeld host approval.record approval.secret now) := by
  have first : Edit host origin move origin _ := .unbound found under
  refine .head first ?_
  unfold Server.unbindHeld Server.withHeld
  cases approval.record with
  | none => exact .refl
  | some ref => exact edits_unbind _ ref approval.secret now

theorem edits_discarded (found : origin.frames[index]? = some frame)
    (under : frame.approval? = some approval)
    (revoked : (origin.ended index approval).revoked approval.record approval.secret = true) :
    Edits host origin move origin
      ((origin.ended index approval).updateHeld approval.record .settled) := by
  obtain ⟨client, secret, record, relays, scanned, slot⟩ := approval
  cases record with
  | none => contradiction
  | some ref =>
    have gone : origin.secrets.secrets.get secret ≠ some ref := by
      simp only [Server.revoked, Option.any_some, decide_not, Bool.not_eq_true',
        decide_eq_false_iff_not] at revoked
      exact revoked
    exact .single (.discarded found under rfl gone)

/-- An approval that admits its client, unless the client cannot be admitted. -/
theorem edits_approved (moved : move = .resume index (.ok text) now)
    (found : origin.frames[index]? = some frame) (under : frame.approval? = some approval)
    (live : (origin.ended index approval).revoked approval.record approval.secret = false)
    (room : (origin.ended index approval).roomFor host approval.client = true) :
    Edits host origin move origin
      (Server.admitClient host approval.client approval.kept approval.relays (.finite now) none
        (.approved approval.record) false now
        ((origin.ended index approval).updateHeld approval.record (.approved approval.brought))).2 := by
  have live : ∀ ref, approval.record = some ref →
      origin.secrets.secrets.get approval.secret = some ref := by
    intro ref held
    rw [held] at live
    simp only [Server.revoked, Option.any_some, decide_not, Bool.not_eq_false',
      decide_eq_true_eq] at live
    exact live
  have held : (origin.ended index approval).updateHeld approval.record
      (.approved approval.brought) = (origin.ended index approval).withApproved approval := by
    unfold Server.withApproved Server.withHeld Server.updateHeld
    cases approval.record <;> rfl
  have clients : ((origin.ended index approval).withApproved approval).clients = origin.clients := by
    unfold Server.withApproved Server.withHeld
    cases approval.record <;> rfl
  have strangers : ((origin.ended index approval).withApproved approval).strangers =
      origin.strangers := by
    unfold Server.withApproved Server.withHeld
    cases approval.record <;> rfl
  have window : ((origin.ended index approval).withApproved approval).windowOf host approval.client =
      origin.windowOf host approval.client := by
    unfold Server.windowOf
    rw [clients, strangers]
  have keys : ((origin.ended index approval).withApproved approval).admissionKey host
      approval.client none = origin.admissionKey host approval.client none := by
    unfold Server.admissionKey
    rw [clients]
  rw [held]
  unfold Server.admitClient
  rw [keys, window]
  split
  · next fault unfit =>
    refine .single (.unadmitted moved found under live (.inl ⟨strangers, ?_⟩))
    intro relays fit
    rw [fit] at unfit
    contradiction
  · next relays fit =>
    cases known : origin.admissionKey host approval.client none with
    | none =>
      have pool : ((origin.ended index approval).withApproved approval).strangers.delete
          approval.client = origin.strangers.delete approval.client := by
        rw [strangers]
      exact .single (.unadmitted moved found under live (.inr ⟨pool, known⟩))
    | some key =>
      have connected : Edit host origin move origin _ :=
        .approved moved found under live room fit known
      exact .head connected (edits_emit now)

theorem Frame.Keyed.of_client {other : Frame} (keyed : frame.Keyed)
    (same : other.client = frame.client) : other.Keyed := by
  intro client about
  exact keyed client (same ▸ about)

variable {outcome : Except Fault String}

theorem edits_finishConnect {record : Option Ref} {relays : List String} {slot : Bool}
    (moved : move = .resume index (.ok text) now)
    (found : origin.frames[index]? = some (.approval dispatch record relays slot)) :
    Edits host origin move origin (Server.finishConnect host dispatch record relays now
      (({ origin with frames := origin.frames.eraseIdx index } : Server).endApproval
        dispatch.request.clientPubkey slot)).2 := by
  have under : (Frame.approval dispatch record relays slot).approval? = some {
      client := dispatch.request.clientPubkey, secret := Server.presented dispatch.request, record
      relays, scanned := false, slot } := rfl
  unfold Server.finishConnect
  dsimp only
  split
  · next revoked => exact edits_discarded found under revoked
  · next live =>
    split
    · exact edits_unbound found under now
    · next room =>
      rw [Bool.not_eq_true', Bool.not_eq_false] at room
      exact edits_approved moved found under (Bool.eq_false_of_not_eq_true live) room

theorem edits_connectSettled {record : Option Ref} {relays : List String} {slot : Bool}
    (moved : move = .resume index outcome now)
    (found : origin.frames[index]? = some (.approval dispatch record relays slot))
    (keyed : (Frame.approval dispatch record relays slot).Keyed) :
    Edits host origin move origin
      (({ origin with frames := origin.frames.eraseIdx index } : Server).connectSettled host dispatch
        record relays slot outcome now) := by
  have refusal : ∀ fault, (Frame.refused dispatch fault).Keyed := fun _ => keyed.of_client rfl
  have admission : (Frame.admission dispatch).Keyed := keyed.of_client rfl
  unfold Server.connectSettled
  cases outcome with
  | error fault =>
    have undone : Edits host origin move origin _ := edits_unbound found rfl now
    exact undone.tail (.pushed rfl (refusal fault))
  | ok text =>
    have finished : Edits host origin move origin _ := edits_finishConnect moved found
    dsimp only
    split
    · next ran =>
      rw [ran] at finished
      exact finished.tail (.pushed rfl admission)
    · next ran =>
      rw [ran] at finished
      exact finished.tail (.pushed rfl (refusal _))

theorem edits_finishScan {parsed : NostrConnectUri} {requestId : String} {ref : Ref} {slot : Bool}
    (moved : move = .resume index (.ok text) now)
    (found : origin.frames[index]? = some (.scanApproval parsed requestId ref slot)) :
    Edits host origin move origin (Server.finishScan host parsed ref now
      (({ origin with frames := origin.frames.eraseIdx index } : Server).endApproval
        parsed.clientPubkey slot)).2 := by
  have under : (Frame.scanApproval parsed requestId ref slot).approval? = some {
      client := parsed.clientPubkey, secret := parsed.secret, record := some ref
      relays := parsed.relays, scanned := true, slot } := rfl
  unfold Server.finishScan
  split
  · next revoked =>
    have dropped : Edits host origin move origin _ := edits_discarded found under revoked
    exact dropped.trans (edits_closeSockets _)
  · next live =>
    split
    · have undone : Edits host origin move origin _ := edits_unbound found under now
      exact undone.trans (edits_closeSockets _)
    · next room =>
      rw [Bool.not_eq_true', Bool.not_eq_false] at room
      exact edits_approved moved found under (Bool.eq_false_of_not_eq_true live) room

theorem edits_scanSettled {parsed : NostrConnectUri} {requestId : String} {ref : Ref} {slot : Bool}
    (moved : move = .resume index outcome now)
    (found : origin.frames[index]? = some (.scanApproval parsed requestId ref slot))
    (keyed : (Frame.scanApproval parsed requestId ref slot).Keyed) :
    Edits host origin move origin
      (({ origin with frames := origin.frames.eraseIdx index } : Server).scanSettled host parsed
        requestId ref slot outcome now) := by
  unfold Server.scanSettled
  cases outcome with
  | error fault =>
    have undone : Edits host origin move origin _ := edits_unbound found rfl now
    exact undone.trans (edits_closeSockets _)
  | ok text =>
    have finished : Edits host origin move origin _ := edits_finishScan moved found
    dsimp only
    split
    · next ran =>
      rw [ran] at finished
      exact finished.tail (.pushed rfl (keyed.of_client rfl))
    · next ran =>
      rw [ran] at finished
      exact finished

theorem edits_responded (dispatch : Dispatch) (relays : List String) (answered : Bool) (now : Rat) :
    Edits host origin move server (server.responded host dispatch relays answered now) := by
  unfold Server.responded
  dsimp only
  have closed : Edits host origin move server
      (if dispatch.wasConnected && !server.clients.has dispatch.request.clientPubkey then
        server.closeSockets relays else server) := by
    split
    · exact edits_closeSockets relays
    · exact .refl
  split
  · exact closed.trans (edits_disconnectClient _ now)
  · exact closed

theorem edits_acknowledge {parsed : NostrConnectUri} {requestId : String}
    (moved : move = .resume index (.ok text) now)
    (found : origin.frames[index]? = some (.scanAdmission parsed requestId)) :
    Edits host origin move origin
      (({ origin with frames := origin.frames.eraseIdx index } : Server).acknowledge host parsed
        requestId) := by
  have first : Edit host origin move origin _ := .resumed found rfl
  exact .head first (edits_send (.acknowledged moved found rfl rfl rfl))

theorem edits_resume (moved : move = .resume index outcome now)
    (found : origin.frames[index]? = some frame) (keyed : frame.Keyed) :
    Edits host origin move origin
      (({ origin with frames := origin.frames.eraseIdx index } : Server).resume host frame outcome
        now) := by
  cases frame with
  | approval dispatch record relays slot => exact edits_connectSettled moved found keyed
  | scanApproval parsed requestId ref slot => exact edits_scanSettled moved found keyed
  | admission dispatch =>
    have first : Edit host origin move origin _ := .resumed found rfl
    exact .head first (edits_answer _ (keyed _ rfl))
  | handling dispatch =>
    have first : Edit host origin move origin _ := .resumed found rfl
    exact .head first (edits_answer _ (keyed _ rfl))
  | refused dispatch fault =>
    have first : Edit host origin move origin _ := .resumed found rfl
    exact .head first (edits_answer _ (keyed _ rfl))
  | responding dispatch relays answered =>
    have first : Edit host origin move origin _ := .resumed found rfl
    exact .head first (edits_responded dispatch relays answered now)
  | restoring => exact .single (.resumed found rfl)
  | scanAdmission parsed requestId =>
    cases outcome with
    | ok text => exact edits_acknowledge moved found
    | error fault => exact .single (.resumed found rfl)

/-! ## The host's calls -/

theorem edits_revokeSecret {secret : String} (moved : move = .revokeSecret secret now) :
    Edits host origin move origin (origin.revokeSecret host secret now).2 := by
  unfold Server.revokeSecret
  split
  · exact .refl
  · next record found =>
    dsimp only
    split
    · next free =>
      refine .head (.revoked moved rfl found ?_) (edits_emit now)
      intro client state bound
      rw [free] at bound
      contradiction
    · next client bound =>
      split
      · next through =>
        cases connected : origin.clients.get client with
        | none => rw [connected] at through; contradiction
        | some state =>
          rw [connected] at through
          have through : state.secret = some secret := by simpa using through
          have gone : Edit host origin move origin _ :=
            .evicted moved rfl found bound connected through
          unfold Server.disconnectClient
          rw [connected]
          exact .head gone (edits_emit now)
      · next apart =>
        refine .head (.revoked moved rfl found ?_) (edits_emit now)
        intro other state same connected
        rw [bound] at same
        cases same
        rw [connected] at apart
        simpa using apart

theorem edits_exportState (now : Rat) :
    Edits host origin move server (server.exportState host now).2 := .single (.swept now)

theorem edits_signal (id : Nat) (signal : Network.Signal) :
    Edits host origin move server
      { server with network := server.network.signal host url id signal } :=
  edits_rewired _ (Network.signal_same host _ url id signal)

theorem edits_start : Edits host origin move server (server.start host) := by
  unfold Server.start
  split
  · exact .refl
  · refine .single (.rewired _ (Network.start_stopped host _)
      (fun _ _ client => Network.start_owns host _ _ _ client)
      (fun attended => Network.start_attended host attended) fun some => ?_)
    rw [Network.start_relays]
    exact some

theorem edits_stop : Edits host origin move server server.stop := by
  unfold Server.stop
  split
  · exact .refl
  · exact .single .stopped

/-! ## Moves are edits -/

structure Keyed (server : Server) : Prop where
  frames : ∀ frame ∈ server.frames, frame.Keyed
  clients : ∀ client, (server.clients.get client).isSome → isPubkey client = true

theorem step_edits {next : Server} (keyed : Keyed origin)
    (stepped : origin.step host move = some next) : Edits host origin move origin next := by
  cases move with
  | createBunkerUri relays secret ttlMs randomHex now =>
    simp only [Server.step] at stepped
    split at stepped
    · next random =>
      cases stepped
      exact edits_createBunkerUri rfl random
    · contradiction
  | addRelay rawUrl =>
    cases stepped
    exact edits_addRelay rawUrl
  | acceptNostrConnect uri requestId now =>
    cases stepped
    exact edits_acceptNostrConnect uri requestId now
  | event event relay now =>
    simp only [Server.step] at stepped
    split at stepped
    · next normalized =>
      cases stepped
      exact edits_onEvent rfl normalized
    · contradiction
  | resume index outcome now =>
    obtain ⟨frame, found, resumed⟩ := Option.map_eq_some_iff.mp stepped
    cases resumed
    exact edits_resume rfl found (keyed.frames frame (List.mem_of_getElem? found))
  | disconnectClient client now =>
    cases stepped
    exact edits_disconnectClient client now
  | revokeSecret secret now =>
    cases stepped
    exact edits_revokeSecret rfl
  | exportState now =>
    cases stepped
    exact edits_exportState now
  | restore state allowUnsigned now =>
    cases stepped
    exact edits_restore rfl
  | signal url id signal =>
    cases stepped
    exact edits_signal url id signal
  | start =>
    cases stepped
    exact edits_start
  | stop =>
    cases stepped
    exact edits_stop

theorem Frame.client_of_approval {approval : Approval} (under : frame.approval? = some approval) :
    frame.client = some approval.client := by
  cases frame <;> cases under <;> rfl

theorem mem_eraseIdx {frames : List Frame} {index : Nat} (member : frame ∈ frames.eraseIdx index) :
    frame ∈ frames :=
  (List.eraseIdx_sublist frames index).subset member

theorem Keyed.edit {after : Server} (edit : Edit host origin move server after)
    (start : Keyed origin) (keyed : Keyed server) : Keyed after := by
  have connected : ∀ (server : Server) (client : String) (state : ClientState),
      (∀ other, (server.clients.get other).isSome → isPubkey other = true) →
      isPubkey client = true →
      ∀ other, ((server.clients.set client state).get other).isSome → isPubkey other = true := by
    intro server client state clients author other held
    rw [OrderedMap.get_set] at held
    split at held
    · next same => exact same ▸ author
    · exact clients other held
  have gone : ∀ (server : Server) (client : String),
      (∀ other, (server.clients.get other).isSome → isPubkey other = true) →
      ∀ other, ((server.clients.delete client).get other).isSome → isPubkey other = true := by
    intro server client clients other held
    rw [OrderedMap.get_delete] at held
    split at held
    · contradiction
    · exact clients other held
  have pushed : ∀ frame : Frame, frame.Keyed → ∀ other ∈ server.frames ++ [frame], other.Keyed := by
    intro frame about other member
    rcases List.mem_append.mp member with old | new
    · exact keyed.frames other old
    · rw [List.mem_singleton.mp new]
      exact about
  have erased : ∀ index, ∀ other ∈ origin.frames.eraseIdx index, other.Keyed :=
    fun index other member => start.frames other (mem_eraseIdx member)
  cases edit with
  | pushed idle about => exact ⟨pushed _ about, keyed.clients⟩
  | began under about =>
    refine ⟨pushed _ fun client same => ?_, keyed.clients⟩
    rw [Frame.client_of_approval under] at same
    cases same
    exact about
  | resumed found idle => exact ⟨erased _, start.clients⟩
  | unbound found under => exact ⟨erased _, start.clients⟩
  | discarded found under => exact ⟨erased _, start.clients⟩
  | unadmitted moved found under => exact ⟨erased _, start.clients⟩
  | approved moved found under =>
    have author := start.frames _ (List.mem_of_getElem? found) _ (Frame.client_of_approval under)
    exact ⟨erased _, connected _ _ _ start.clients author⟩
  | readmitted moved author => exact ⟨keyed.frames, connected _ _ _ keyed.clients author⟩
  | departed found => exact ⟨keyed.frames, gone _ _ keyed.clients⟩
  | evicted moved current found bound connected through => exact ⟨keyed.frames, gone _ _ keyed.clients⟩
  | @seen _ pubkey key author curve =>
    obtain ⟨frames, -⟩ := seen_frames host server pubkey key
    constructor
    · rw [frames]
      exact keyed.frames
    · intro other held
      have relays : ((server.seen host pubkey key).2.clients.get other).map ClientState.relays =
          (server.clients.get other).map ClientState.relays := seen_relays pubkey key other
      apply keyed.clients other
      cases before : server.clients.get other <;> simp_all
  | _ => exact ⟨keyed.frames, keyed.clients⟩

theorem Keyed.new (relays : List String) : Keyed (Server.new host relays) := by
  constructor
  · intro frame member
    cases member
  · intro client held
    cases held

theorem Keyed.edits {after : Server} (start : Keyed origin)
    (edits : Edits host origin move origin after) : Keyed after :=
  edits.keep start fun _ _ edit keyed => start.edit edit keyed

theorem run_invariant {allowed : Server → Move → Prop} {holds : Server → Prop}
    (run : Reaches (Server.step host) allowed origin server) (keyed : Keyed origin)
    (initially : holds origin)
    (kept : ∀ origin move server after, allowed origin move → Keyed origin → holds origin →
      Edit host origin move server after → Keyed server → holds server → holds after) :
    Keyed server ∧ holds server := by
  let both (server : Server) : Prop := Keyed server ∧ holds server
  have start : both origin := ⟨keyed, initially⟩
  refine run.invariant start ?_
  intro origin move next before permitted stepped
  refine (step_edits before.1 stepped).keep before ?_
  intro server after edit now
  exact ⟨before.1.edit edit now.1, kept origin move server after permitted before.1 before.2 edit
    now.1 now.2⟩

end Parts

end NostrWot.Bunker
