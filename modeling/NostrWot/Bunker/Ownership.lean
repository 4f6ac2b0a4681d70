import NostrWot.Bunker.Edits

namespace NostrWot.Bunker

open NostrWot.Data NostrWot.Sync

/-! # Who listens where, and where answers go -/

variable {host : Host} {origin server after : Server} {move : Move}

structure Owned (server : Server) : Prop where
  attended : server.network.Attended
  clients : ∀ owner url, owner ≠ SERVER_OWNER →
    (server.network.Owns owner url ↔ url ∈ server.relaysFor owner)

/-- A response goes to relays its client owns, or back to where the request of a
sender that is not connected came from. -/
structure Addressed (relays : List String) (arrivedOn : Option String)
    (owned : Option (List String)) : Prop where
  own : ∀ urls, owned = some urls → ∀ url ∈ relays, url ∈ urls
  back : owned = none → ∃ source, arrivedOn = some source ∧ relays = [source]

/-- Every response so far was addressed well. -/
def Discreet (server : Server) : Prop :=
  ∀ client payload relays arrivedOn owned,
    .published client payload relays arrivedOn owned ∈ server.history →
      Addressed relays arrivedOn owned

/-- The moves after which an answer goes out on relays that were not looked up
when it does: a malformed request is answered where it arrived, a scan on the
relays it named. -/
def Answerable (host : Host) (server : Server) : Move → Prop
  | .event event source now => ∀ message id,
      server.network.stopped = false → Server.admissible host event now = true →
      (server.seen host event.pubkey ("e:" ++ event.id)).1 = false →
      (server.conversationKey host event.pubkey).bind (host.decryptPayload event.content) =
        some message →
      Server.parseRequest host event.pubkey message = none → Server.extractId message = some id →
      host.encrypts { id, result := none, error := some "invalid request" } = true →
      server.clients.has event.pubkey = true → source ∈ server.relaysFor event.pubkey
  | .resume index (.ok _) _ => ∀ parsed requestId,
      server.network.stopped = false →
      server.frames[index]? = some (.scanAdmission parsed requestId) →
      host.encrypts { id := requestId, result := some parsed.secret, error := none } = true →
      server.clients.has parsed.clientPubkey = true ∧
        ∀ url ∈ parsed.relays, url ∈ server.relaysFor parsed.clientPubkey
  | _ => True

variable {client : String}

theorem SERVER_OWNER_ne (keyed : isPubkey client = true) :
    client ≠ SERVER_OWNER := by
  intro same
  subst same
  contradiction

variable {state : ClientState}

theorem relaysFor_of_get (found : server.clients.get client = some state) :
    server.relaysFor client = state.relays := by
  unfold Server.relaysFor
  rw [found]
  rfl

/-! ## Ownership -/

theorem relocate_owns (owned : Owned server) (keyed : client ≠ SERVER_OWNER) (relays : List String)
    (owner url : String) :
    (server.relocate host client relays).Owns owner url ↔
      if owner = client then url ∈ relays else server.network.Owns owner url := by
  have before := owned.clients client url keyed
  unfold Server.relocate
  split
  · next previous found =>
    rw [relaysFor_of_get found] at before
    rw [Network.listenAll_owns, Network.releaseAll_owns, List.mem_filter]
    by_cases same : owner = client
    · subst same
      rw [if_pos rfl, before]
      simp only [decide_not, Bool.not_eq_true', decide_eq_false_iff_not, true_and]
      tauto
    · simp [same]
  · next absent =>
    unfold Server.relaysFor at before
    rw [absent] at before
    rw [Network.listenAll_owns]
    by_cases same : owner = client
    · subst same
      rw [if_pos rfl, before]
      simp
    · simp [same]

theorem relocate_attended (attended : server.network.Attended) (relays : List String) :
    (server.relocate host client relays).Attended := by
  unfold Server.relocate
  split
  · exact Network.listenAll_attended host (Network.releaseAll_attended attended _ _)
  · exact Network.listenAll_attended host attended

theorem Owned.same (owned : Owned server) (network : after.network = server.network)
    (clients : after.clients = server.clients) : Owned after := by
  refine ⟨network ▸ owned.attended, fun owner url apart => ?_⟩
  unfold Server.relaysFor
  rw [network, clients]
  exact owned.clients owner url apart

theorem connectedAs_relaysFor (server : Server) (client other : String) (state : ClientState)
    (admission : Admission) :
    (server.connectedAs host client state admission).relaysFor other =
      if other = client then state.relays else server.relaysFor other := by
  change (((server.clients.set client state).get other).map ClientState.relays).getD [] = _
  rw [OrderedMap.get_set]
  split <;> rfl

theorem departed_relaysFor (server : Server) (client other : String) (state : ClientState) :
    (server.departed client state).relaysFor other =
      if other = client then [] else server.relaysFor other := by
  change (((server.clients.delete client).get other).map ClientState.relays).getD [] = _
  rw [OrderedMap.get_delete]
  split <;> rfl

theorem Owned.connected {admission : Admission} (owned : Owned server)
    (keyed : isPubkey client = true) :
    Owned (server.connectedAs host client state admission) := by
  have apart := SERVER_OWNER_ne keyed
  refine ⟨relocate_attended owned.attended state.relays, fun owner url other => ?_⟩
  have owns : (server.relocate host client state.relays).Owns owner url ↔ _ :=
    relocate_owns owned apart state.relays owner url
  rw [connectedAs_relaysFor]
  change (server.relocate host client state.relays).Owns owner url ↔ _
  rw [owns]
  split
  · rfl
  · exact owned.clients owner url other

theorem Owned.departed (owned : Owned server) (keyed : isPubkey client = true)
    (found : server.clients.get client = some state) :
    Owned (server.departed client state) := by
  refine ⟨Network.releaseAll_attended owned.attended _ _, fun owner url other => ?_⟩
  rw [departed_relaysFor]
  change (server.network.releaseAll state.relays client).Owns owner url ↔ _
  rw [Network.releaseAll_owns, owned.clients owner url other]
  split
  · next same =>
    subst same
    rw [relaysFor_of_get found]
    simp
  · next differs => simp [differs]

theorem relocate_stopped (server : Server) (client : String) (relays : List String) :
    (server.relocate host client relays).stopped = server.network.stopped := by
  unfold Server.relocate
  split
  · rw [Network.listenAll_stopped, Network.releaseAll_stopped]
  · exact Network.listenAll_stopped host _ _ _

theorem running_before (edit : Edit host origin move server after)
    (running : after.network.stopped = false) : server.network.stopped = false := by
  cases edit with
  | rewired network stopped => exact stopped ▸ running
  | stopped => contradiction
  | @seen _ pubkey key author curve =>
    rw [(seen_frames host server pubkey key).2.1] at running
    exact running
  | approved =>
    change (Server.relocate host _ _ _).stopped = false at running
    rw [relocate_stopped] at running
    exact running
  | readmitted =>
    change (Server.relocate host _ _ _).stopped = false at running
    rw [relocate_stopped] at running
    exact running
  | departed found =>
    change (Network.releaseAll _ _ _).stopped = false at running
    rw [Network.releaseAll_stopped] at running
    exact running
  | evicted moved current found bound connected through =>
    change (Network.releaseAll _ _ _).stopped = false at running
    rw [Network.releaseAll_stopped] at running
    exact running
  | _ => exact running

theorem Owned.edit (edit : Edit host origin move server after) (start : Keyed origin)
    (keyed : Keyed server) (owned : Owned server) (running : after.network.stopped = false) :
    Owned after := by
  cases edit with
  | rewired network stopped owns attended =>
    exact ⟨attended owned.attended, fun owner url apart =>
      (owns owner url apart).trans (owned.clients owner url apart)⟩
  | stopped => contradiction
  | @seen _ pubkey key author curve =>
    have network := (seen_frames host server pubkey key).2.1
    refine ⟨network ▸ owned.attended, fun owner url apart => ?_⟩
    rw [network, owned.clients owner url apart]
    unfold Server.relaysFor
    rw [seen_relays]
  | approved moved found under =>
    have author := start.frames _ (List.mem_of_getElem? found) _ (Frame.client_of_approval under)
    exact Owned.connected (owned.same rfl rfl) author
  | readmitted moved author => exact owned.connected author
  | departed found => exact owned.departed (keyed.clients _ (by rw [found]; rfl)) found
  | evicted moved current found bound connected through =>
    exact Owned.departed (owned.same rfl rfl) (keyed.clients _ (by rw [connected]; rfl)) connected
  | _ => exact owned.same rfl rfl

/-! ## Answers -/

theorem published_new {payload : ResponsePayload} {relays : List String} {arrivedOn : Option String}
    {owned : Option (List String)} (edit : Edit host origin move server after)
    (published : .published client payload relays arrivedOn owned ∈ after.history) :
    .published client payload relays arrivedOn owned ∈ server.history ∨
      (server.network.stopped = false ∧ host.encrypts payload = true ∧
        Cause host origin move server client payload relays arrivedOn ∧
        owned = server.ownedBy client) := by
  have noted : ∀ note, (∀ c p r a o, note ≠ .published c p r a o) →
      Note.published client payload relays arrivedOn owned ∈ server.history ++ [note] →
      .published client payload relays arrivedOn owned ∈ server.history := by
    intro note other member
    rcases List.mem_append.mp member with old | new
    · exact old
    · exact absurd (List.mem_singleton.mp new).symm (other _ _ _ _ _)
  cases edit with
  | published running encrypted cause =>
    rcases List.mem_append.mp published with old | new
    · exact .inl old
    · cases List.mem_singleton.mp new
      exact .inr ⟨running, encrypted, cause, rfl⟩
  | @seen _ pubkey key author curve =>
    obtain ⟨notes, kind, history⟩ := seen_notes host server pubkey key
    rw [history] at published
    rcases List.mem_append.mp published with old | new
    · exact .inl old
    · rcases kind _ new with same | same <;> contradiction
  | handed => exact .inl (noted _ (by simp) published)
  | approved => exact .inl (noted _ (by simp) published)
  | readmitted => exact .inl (noted _ (by simp) published)
  | departed => exact .inl (noted _ (by simp) published)
  | evicted => exact .inl (noted _ (by simp) published)
  | _ => exact .inl published

/-- Relays that are a connected client's own, or the only way back. -/
theorem Owned.addressed {source : String} (owned : Owned server)
    (keyed : ∀ client, (server.clients.get client).isSome → isPubkey client = true) :
    Addressed (((server.clients.get client).map ClientState.relays).getD [source]) (some source)
      (server.ownedBy client) := by
  unfold Server.ownedBy
  cases found : server.clients.get client with
  | none =>
    constructor
    · intro urls absurd_
      contradiction
    · intro absent
      exact ⟨source, rfl, rfl⟩
  | some state =>
    have author := SERVER_OWNER_ne (keyed client (by rw [found]; rfl))
    constructor
    · intro urls same url member
      cases same
      rw [Network.mem_ownedBy, owned.clients client url author, relaysFor_of_get found]
      exact member
    · intro absent
      contradiction

theorem Owned.addressed_own {relays : List String} {arrivedOn : Option String}
    (owned : Owned server)
    (keyed : ∀ client, (server.clients.get client).isSome → isPubkey client = true)
    (connected : server.clients.has client = true)
    (own : ∀ url ∈ relays, url ∈ server.relaysFor client) :
    Addressed relays arrivedOn (server.ownedBy client) := by
  have author := SERVER_OWNER_ne (keyed client connected)
  obtain ⟨state, found⟩ := Option.isSome_iff_exists.mp connected
  unfold Server.ownedBy
  rw [found]
  constructor
  · intro urls same url member
    cases same
    rw [Network.mem_ownedBy, owned.clients client url author]
    exact own url member
  · intro absent
    contradiction

theorem Discreet.edit (edit : Edit host origin move server after)
    (answerable : Answerable host origin move) (keyed : Keyed server)
    (owned : server.network.stopped = false → Owned server) (discreet : Discreet server) :
    Discreet after := by
  intro client payload relays arrivedOn own published
  rcases published_new edit published with old | ⟨running, encrypted, cause, rfl⟩
  · exact discreet client payload relays arrivedOn own old
  · have owned := owned running
    cases cause with
    | answered source home =>
      rw [home]
      exact owned.addressed keyed.clients
    | @malformed event message id source now moved sender accepted fresh read unread named same
        network =>
        subst moved
        subst sender
        rw [network] at running
        have home := answerable message id running accepted fresh read unread named encrypted
        have relays : server.relaysFor event.pubkey = origin.relaysFor event.pubkey := by
          unfold Server.relaysFor
          rw [same]
        have both : server.clients.has event.pubkey = origin.clients.has event.pubkey := by
          have same := congrArg Option.isSome (same event.pubkey)
          rw [Option.isSome_map, Option.isSome_map] at same
          exact same
        cases connected : server.clients.has event.pubkey with
        | true =>
          refine owned.addressed_own keyed.clients connected fun url member => ?_
          rw [List.mem_singleton.mp member, relays]
          exact home (both ▸ connected)
        | false =>
          have absent : server.clients.get event.pubkey = none := by
            unfold OrderedMap.has at connected
            rwa [Option.isSome_eq_false_iff, Option.isNone_iff_eq_none] at connected
          have addressed : Addressed _ (some source) (server.ownedBy event.pubkey) :=
            owned.addressed keyed.clients
          rw [absent] at addressed
          exact addressed
    | @acknowledged index text now parsed requestId moved found sender clients network =>
      subst moved
      subst sender
      rw [network] at running
      obtain ⟨connected, home⟩ := answerable parsed requestId running found encrypted
      have relays : server.relaysFor parsed.clientPubkey = origin.relaysFor parsed.clientPubkey := by
        unfold Server.relaysFor
        rw [clients]
      rw [← clients] at connected
      rw [← relays] at home
      exact owned.addressed_own keyed.clients connected home

theorem owned_new (relays : List String) : Owned (Server.new host relays) := by
  constructor
  · intro url sub found
    contradiction
  · intro owner url apart
    constructor
    · intro ⟨sub, found, _⟩
      contradiction
    · intro member
      contradiction

/-- While a server runs, a relay is subscribed exactly for its owners, and
clients own exactly the relays they have; an answer goes to relays its client
owns, or back to where the request of a sender that is not connected arrived. -/
theorem relays_are_owned {relays : List String}
    (run : Reaches (Server.step host) (Answerable host) (Server.new host relays) server) :
    (server.network.stopped = false →
      (∀ url, (server.network.subs.get url).isSome ↔ ∃ owner, server.network.Owns owner url) ∧
      (∀ client state url, server.clients.get client = some state →
        (server.network.Owns client url ↔ url ∈ state.relays)) ∧
      ∀ owner url, owner ≠ SERVER_OWNER → server.clients.get owner = none →
        ¬ server.network.Owns owner url) ∧
    ∀ client payload published arrivedOn owned,
      .published client payload published arrivedOn owned ∈ server.history →
      (∀ urls, owned = some urls → ∀ url ∈ published, url ∈ urls) ∧
      (owned = none → ∃ source, arrivedOn = some source ∧ published = [source]) := by
  let holds (server : Server) : Prop :=
    (server.network.stopped = false → Owned server) ∧ Discreet server
  have initially : holds (Server.new host relays) := by
    refine ⟨fun _ => owned_new relays, ?_⟩
    intro client payload published arrivedOn owned member
    contradiction
  have reached : Keyed server ∧ holds server := by
    refine run_invariant run (.new relays) initially ?_
    intro origin move server after answerable start _ edit keyed before
    constructor
    · intro running
      exact (before.1 (running_before edit running)).edit edit start keyed running
    · exact before.2.edit edit answerable keyed before.1
  obtain ⟨keyed, owned, discreet⟩ := reached
  constructor
  · intro running
    have owned := owned running
    refine ⟨fun url => ⟨fun subscribed => ?_, fun ⟨owner, sub, found, _⟩ => ?_⟩, ?_, ?_⟩
    · obtain ⟨sub, found⟩ := Option.isSome_iff_exists.mp subscribed
      obtain ⟨owner, member⟩ := List.exists_mem_of_ne_nil _ (owned.attended url sub found)
      exact ⟨owner, sub, found, member⟩
    · rw [found]
      rfl
    · intro client state url found
      have apart := SERVER_OWNER_ne (keyed.clients client (by rw [found]; rfl))
      rw [owned.clients client url apart, relaysFor_of_get found]
    · intro owner url apart absent owns
      rw [owned.clients owner url apart] at owns
      unfold Server.relaysFor at owns
      rw [absent] at owns
      contradiction
  · intro client payload published arrivedOn owned member
    have addressed := discreet client payload published arrivedOn owned member
    exact ⟨addressed.own, addressed.back⟩

/-- A stranger that pings is answered where it asked. -/
theorem relays_are_owned_ping :
    let host := Host.plain (DEFAULTS ["wss://a.example/"]) fun _ =>
      some (.object [("id", .text "request"), ("method", .text "ping")])
    let client := String.ofList (List.replicate 64 'a')
    let moves : List Move := [.addRelay "wss://a.example/",
      .event (plainEvent client "1" "ping") "wss://a.example/" 0]
    ∃ server, exec (Server.step host) (Server.new host ["wss://a.example/"]) moves = some server ∧
      .published client { id := "request", result := some "pong", error := none }
        ["wss://a.example/"] (some "wss://a.example/") none ∈ server.history ∧
      (∀ url, (server.network.subs.get url).isSome ↔ ∃ owner, server.network.Owns owner url) := by
  intro host client moves
  have answered : ((exec (Server.step host) (Server.new host ["wss://a.example/"]) moves).map
      fun server => (server.network.stopped, server.history.getLast?)) =
      some (false, some (.published client
        { id := "request", result := some "pong", error := none } ["wss://a.example/"]
        (some "wss://a.example/") none)) := by decide +kernel
  obtain ⟨server, executed, last⟩ := Option.map_eq_some_iff.mp answered
  obtain ⟨running, last⟩ := Prod.mk.inj last
  have run : Reaches (Server.step host) (Answerable host) (Server.new host ["wss://a.example/"])
      server := by
    refine Reaches.step (.event (plainEvent client "1" "ping") "wss://a.example/" 0)
      (Reaches.step (.addRelay "wss://a.example/") .refl trivial rfl) ?_ executed
    intro message id _ _ _ _ _ _ _ connected
    contradiction
  have owned := relays_are_owned run
  exact ⟨server, executed, List.mem_of_getLast? last, (owned.1 running).1⟩

/-! ### A client answered where it never listened -/

def strayAnswer : List Move :=
  let client := String.ofList (List.replicate 64 'a')
  [.createBunkerUri none (some "pairing") none (String.ofList (List.replicate 32 '0')) 0,
    .event (plainEvent client "1" "connect") "wss://a.example/" 0,
    .resume 0 (.ok "") 0,
    .resume 0 (.ok "") 0,
    .event (plainEvent client "2" "malformed") "wss://b.example/" 0]

def strayMessages (content : String) : Option Value :=
  if content = "connect" then some (connectMessage "request" "pairing")
  else some (.object [("id", .text "broken")])

theorem answers_may_stray :
    let host := Host.plain (DEFAULTS ["wss://a.example/"]) strayMessages
    ∃ server, exec (Server.step host) (Server.new host ["wss://a.example/"]) strayAnswer = some server ∧
      server.network.stopped = false ∧
      ∃ client payload published arrivedOn urls,
        .published client payload published arrivedOn (some urls) ∈ server.history ∧
        ∃ url ∈ published, url ∉ urls := by
  intro host
  have answered : ((exec (Server.step host) (Server.new host ["wss://a.example/"]) strayAnswer).map
      fun server => (server.network.stopped, server.history.getLast?)) =
      some (false, some (.published (String.ofList (List.replicate 64 'a'))
        { id := "broken", result := none, error := some "invalid request" } ["wss://b.example/"]
        (some "wss://b.example/") (some ["wss://a.example/"]))) := by decide +kernel
  obtain ⟨server, executed, last⟩ := Option.map_eq_some_iff.mp answered
  obtain ⟨running, last⟩ := Prod.mk.inj last
  exact ⟨server, executed, running, _, _, _, _, _, List.mem_of_getLast? last,
    "wss://b.example/", by simp, by decide⟩

end NostrWot.Bunker
