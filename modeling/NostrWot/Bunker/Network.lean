import Mathlib.Tactic.Tauto
import NostrWot.Bunker.Uri

namespace NostrWot.Bunker

open NostrWot.Data

/-! # Relay subscriptions

A relay is listened on while somebody owns it: the host, or a client whose
answers go there.
-/

structure Network where
  relays : List String
  subs : OrderedMap String RelaySubscription
  opened : List String
  started : Bool
  stopped : Bool
  /-- Names the next subscription record, and the next handle. -/
  serial : Nat

namespace Network

def claim (network : Network) (url owner : String) : Network :=
  match network.subs.get url with
  | some sub => { network with
      subs := network.subs.set url { sub with owners := pushNew sub.owners owner } }
  | none => { network with
      subs := network.subs.set url
        { id := network.serial, closer := none, connecting := false, timer := false, failures := 0
          owners := [owner] }
      serial := network.serial + 1 }

/-- `#closeSocket`: nothing subscribes on this relay any more. -/
def closeSocket (network : Network) (url : String) : Network :=
  if network.subs.has url then network
  else { network with opened := network.opened.filter fun other => other ≠ url }

def release (network : Network) (url owner : String) : Network :=
  match network.subs.get url with
  | none => network
  | some sub =>
    let owners := sub.owners.filter fun other => other ≠ owner
    if owners ≠ [] then
      { network with subs := network.subs.set url { sub with owners } }
    else { network with subs := network.subs.delete url }.closeSocket url

def releaseAll (network : Network) (urls : List String) (owner : String) : Network :=
  urls.foldl (fun network url => network.release url owner) network

def closeAll (network : Network) (urls : List String) : Network := urls.foldl closeSocket network

/-- The record of `url` rewritten, if it still is the one named `id`. -/
def update (network : Network) (url : String) (id : Nat)
    (change : RelaySubscription → RelaySubscription) : Network :=
  match network.subs.get url with
  | some sub =>
    if sub.id = id then { network with subs := network.subs.set url (change sub) } else network
  | none => network

variable (host : Host)

/-- What `#subscribe` opens on a record nobody is opening yet. -/
def openSub (network : Network) (url : String) : Network :=
  match network.subs.get url with
  | none => network
  | some sub =>
    if sub.closer.isSome || sub.connecting then network
    else
      let noted := { network with opened := pushNew network.opened url }
      if host.hasEnsureRelay then noted.update url sub.id fun sub => { sub with connecting := true }
      else if host.subscribeThrows url then noted
      else { noted.update url sub.id fun sub => { sub with closer := some network.serial } with
        serial := network.serial + 1 }

def subscribe (network : Network) (url : String) : Network :=
  if network.stopped then network else network.openSub host url

def subscribeFor (network : Network) (owner url : String) : Network :=
  if network.stopped then network else (network.claim url owner).openSub host url

/-- What a pairing or `addRelay` does for one owner and relay: subscribe on a
server that is listening, else only record the interest. -/
def listen (network : Network) (owner url : String) : Network :=
  if network.started && !network.stopped then network.subscribeFor host owner url
  else network.claim url owner

def addHosted (network : Network) (url : String) : Network :=
  { network with relays := pushNew network.relays url }.listen host SERVER_OWNER url

def claimAll (network : Network) (urls : List String) (owner : String) : Network :=
  urls.foldl (fun network url => network.claim url owner) network

def subscribeAll (network : Network) (urls : List String) : Network :=
  urls.foldl (fun network url => network.subscribe host url) network

def listenAll (network : Network) (owner : String) (urls : List String) : Network :=
  urls.foldl (fun network url => network.listen host owner url) network

def scheduleResubscribe (network : Network) (url : String) (id : Nat) : Network :=
  if network.stopped then network
  else network.update url id fun sub =>
    if sub.timer then sub else { sub with timer := true, failures := sub.failures + 1 }

/-- What happens to one subscription record after it was opened. -/
inductive Signal where
  /-- `ensureRelay` resolved. -/
  | connected
  /-- `ensureRelay` rejected. -/
  | refused
  | eose
  /-- `onclose` of the subscription with this handle. -/
  | closed (handle : Nat)
  /-- The reconnect timer fired. -/
  | retry

def signal (network : Network) (url : String) (id : Nat) : Signal → Network
  | .connected =>
    let ready := network.update url id fun sub => { sub with connecting := false }
    if network.stopped || host.subscribeThrows url then ready
    else { ready.update url id fun sub => { sub with closer := some network.serial } with
      serial := network.serial + 1 }
  | .refused =>
    (network.update url id fun sub => { sub with connecting := false }).scheduleResubscribe url id
  | .eose => network.update url id fun sub => { sub with failures := 0 }
  | .closed handle =>
    (network.update url id fun sub =>
      if sub.closer = some handle then { sub with closer := none } else sub).scheduleResubscribe
        url id
  | .retry =>
    let fired := network.update url id fun sub => { sub with timer := false }
    match fired.subs.get url with
    | some sub => if sub.id = id then fired.subscribe host url else fired
    | none => fired

def start (network : Network) : Network :=
  let claimed := { network with started := true }.claimAll network.relays SERVER_OWNER
  claimed.subscribeAll host claimed.subs.keys

def stop (network : Network) : Network :=
  { network with stopped := true, subs := ∅, opened := [] }

def ownedBy (network : Network) (owner : String) : List String :=
  (network.subs.entries.filter fun entry => owner ∈ entry.2.owners).map Prod.fst

/-! ## Who owns a relay -/

def Owns (network : Network) (owner url : String) : Prop :=
  ∃ sub, network.subs.get url = some sub ∧ owner ∈ sub.owners

/-- Every subscription record has an owner. -/
def Attended (network : Network) : Prop :=
  ∀ url sub, network.subs.get url = some sub → sub.owners ≠ []

theorem mem_ownedBy {network : Network} {owner url : String} :
    url ∈ network.ownedBy owner ↔ network.Owns owner url := by
  simp only [ownedBy, Owns, List.mem_map, List.mem_filter, decide_eq_true_eq,
    OrderedMap.get_eq_some]
  constructor
  · rintro ⟨entry, ⟨member, owned⟩, same⟩
    subst same
    exact ⟨entry.2, member, owned⟩
  · rintro ⟨sub, member, owned⟩
    exact ⟨(url, sub), ⟨member, owned⟩, rfl⟩

/-- Two networks nobody can tell apart by who owns what. -/
structure SameOwners (before after : Network) : Prop where
  owners : ∀ url, (after.subs.get url).map RelaySubscription.owners =
    (before.subs.get url).map RelaySubscription.owners
  stopped : after.stopped = before.stopped
  relays : after.relays = before.relays

namespace SameOwners

variable {first second third : Network}

theorem refl (network : Network) : SameOwners network network := ⟨fun _ => rfl, rfl, rfl⟩

theorem trans (left : SameOwners first second) (right : SameOwners second third) :
    SameOwners first third :=
  ⟨fun url => (right.owners url).trans (left.owners url), right.stopped.trans left.stopped,
    right.relays.trans left.relays⟩

theorem owns (same : SameOwners first second) (owner url : String) :
    second.Owns owner url ↔ first.Owns owner url := by
  have owners := same.owners url
  unfold Owns
  cases before : first.subs.get url <;> cases after : second.subs.get url <;>
    simp_all

theorem attended (same : SameOwners first second) (attended : first.Attended) :
    second.Attended := by
  intro url sub found
  have owners := same.owners url
  rw [found] at owners
  cases before : first.subs.get url with
  | none => rw [before] at owners; contradiction
  | some held =>
    rw [before] at owners
    have same : sub.owners = held.owners := Option.some.inj owners
    rw [same]
    exact attended url held before

end SameOwners

variable (network : Network)

variable (url : String)

theorem update_same (id : Nat) (change : RelaySubscription → RelaySubscription)
    (keeps : ∀ sub, (change sub).owners = sub.owners) :
    SameOwners network (network.update url id change) := by
  unfold update
  split
  · next sub found =>
    split
    · refine ⟨fun other => ?_, rfl, rfl⟩
      rw [OrderedMap.get_set]
      split
      · next same => subst same; simp [found, keeps]
      · rfl
    · exact .refl _
  · exact .refl _

theorem openSub_same :
    SameOwners network (network.openSub host url) := by
  unfold openSub
  split
  · exact .refl _
  · next sub found =>
    split
    · exact .refl _
    · have noted : SameOwners network { network with opened := pushNew network.opened url } :=
        ⟨fun _ => rfl, rfl, rfl⟩
      simp only
      split
      · apply noted.trans
        apply update_same
        exact fun _ => rfl
      · split
        · exact noted
        · have same := noted.trans (update_same _ url sub.id
            (fun sub => { sub with closer := some network.serial }) fun _ => rfl)
          exact ⟨same.owners, same.stopped, same.relays⟩

theorem subscribe_same :
    SameOwners network (network.subscribe host url) := by
  unfold subscribe
  split
  · exact .refl _
  · exact openSub_same host network url

variable (urls : List String)

theorem subscribeAll_same :
    SameOwners network (network.subscribeAll host urls) := by
  unfold subscribeAll
  induction urls generalizing network with
  | nil => exact .refl _
  | cons url rest ih => exact (subscribe_same host network url).trans (ih _)

theorem scheduleResubscribe_same (id : Nat) :
    SameOwners network (network.scheduleResubscribe url id) := by
  unfold scheduleResubscribe
  split
  · exact .refl _
  · apply update_same
    intro sub
    split <;> rfl

theorem signal_same (id : Nat) (signal : Signal) :
    SameOwners network (network.signal host url id signal) := by
  cases signal with
  | connected =>
    simp only [Network.signal]
    have ready : SameOwners network
        (network.update url id fun sub => { sub with connecting := false }) := by
      apply update_same
      exact fun _ => rfl
    split
    · exact ready
    · have opened := ready.trans (update_same _ url id
        (fun sub => { sub with closer := some network.serial }) fun _ => rfl)
      exact ⟨opened.owners, opened.stopped, opened.relays⟩
  | refused =>
    refine .trans ?_ (scheduleResubscribe_same _ url id)
    apply update_same
    exact fun _ => rfl
  | eose =>
    apply update_same
    exact fun _ => rfl
  | closed handle =>
    refine .trans ?_ (scheduleResubscribe_same _ url id)
    apply update_same
    intro sub
    split <;> rfl
  | retry =>
    simp only [Network.signal]
    have fired : SameOwners network
        (network.update url id fun sub => { sub with timer := false }) := by
      apply update_same
      exact fun _ => rfl
    split
    · split
      · exact fired.trans (subscribe_same host _ url)
      · exact fired
    · exact fired

theorem closeSocket_same :
    SameOwners network (network.closeSocket url) := by
  unfold closeSocket
  split
  · exact .refl _
  · exact ⟨fun _ => rfl, rfl, rfl⟩

/-! ## Claiming and releasing -/

theorem pushNew_mem {owners : List String} {owner other : String} :
    other ∈ pushNew owners owner ↔ other ∈ owners ∨ other = owner := by
  unfold pushNew
  split
  · next member =>
    constructor
    · exact .inl
    · intro either
      rcases either with held | same
      · exact held
      · exact same ▸ member
  · simp

theorem claim_owns (url owner other where_ : String) :
    (network.claim url owner).Owns other where_ ↔
      network.Owns other where_ ∨ other = owner ∧ where_ = url := by
  unfold claim Owns
  split
  · next sub found =>
    simp only [OrderedMap.get_set]
    by_cases same : where_ = url
    · subst same
      simp [found, pushNew_mem]
    · simp [same]
  · next found =>
    simp only [OrderedMap.get_set]
    by_cases same : where_ = url
    · subst same
      simp [found]
    · simp [same]

theorem claim_attended {network : Network} (attended : network.Attended) (url owner : String) :
    (network.claim url owner).Attended := by
  intro other sub found
  unfold claim at found
  split at found
  · simp only [OrderedMap.get_set] at found
    split at found
    · cases found
      exact pushNew_ne_nil _ _
    · exact attended other sub found
  · simp only [OrderedMap.get_set] at found
    split at found
    · cases found
      simp
    · exact attended other sub found

@[simp] theorem claim_relays (network : Network) (url owner : String) :
    (network.claim url owner).relays = network.relays := by
  unfold claim
  split <;> rfl

@[simp] theorem claim_stopped (network : Network) (url owner : String) :
    (network.claim url owner).stopped = network.stopped := by
  unfold claim
  split <;> rfl

theorem listen_claims (owner url : String) :
    SameOwners (network.claim url owner) (network.listen host owner url) := by
  unfold listen subscribeFor
  split
  · next listening =>
    have running : network.stopped = false := by simp_all
    rw [running]
    exact openSub_same host _ url
  · exact .refl _

theorem release_owns (url owner other where_ : String) :
    (network.release url owner).Owns other where_ ↔
      network.Owns other where_ ∧ ¬(other = owner ∧ where_ = url) := by
  unfold release
  split
  · next absent =>
    constructor
    · rintro ⟨sub, found, owned⟩
      have elsewhere : where_ ≠ url := by
        intro same
        rw [same, absent] at found
        contradiction
      exact ⟨⟨sub, found, owned⟩, fun both => elsewhere both.2⟩
    · exact And.left
  · next sub found =>
    simp only
    split
    · simp only [Owns, OrderedMap.get_set]
      by_cases same : where_ = url
      · subst same
        simp [found]
      · simp [same]
    · next empty =>
      have alone : ∀ held ∈ sub.owners, held = owner := by simpa using empty
      rw [(closeSocket_same _ url).owns]
      simp only [Owns, OrderedMap.get_delete]
      by_cases same : where_ = url
      · subst same
        simp only [if_true, found, Option.some.injEq, exists_eq_left', and_true]
        constructor
        · rintro ⟨_, absurd_, _⟩
          contradiction
        · rintro ⟨member, other⟩
          exact absurd (alone _ member) other
      · simp [same]

theorem release_attended {network : Network} (attended : network.Attended) (url owner : String) :
    (network.release url owner).Attended := by
  unfold release
  split
  · exact attended
  · next sub found =>
    simp only
    split
    · next some =>
      intro other held kept
      simp only [OrderedMap.get_set] at kept
      split at kept
      · cases kept
        exact some
      · exact attended other held kept
    · refine (closeSocket_same _ url).attended fun other held kept => ?_
      simp only [OrderedMap.get_delete] at kept
      split at kept
      · contradiction
      · exact attended other held kept

@[simp] theorem release_stopped (network : Network) (url owner : String) :
    (network.release url owner).stopped = network.stopped := by
  unfold release
  split
  · rfl
  · simp only
    split
    · rfl
    · exact (closeSocket_same _ url).stopped

theorem closeAll_same :
    SameOwners network (network.closeAll urls) := by
  unfold closeAll
  induction urls generalizing network with
  | nil => exact .refl _
  | cons url rest ih => exact (closeSocket_same network url).trans (ih _)

theorem releaseAll_owns (owner other url : String) :
    (network.releaseAll urls owner).Owns other url ↔
      network.Owns other url ∧ ¬(other = owner ∧ url ∈ urls) := by
  unfold releaseAll
  induction urls generalizing network with
  | nil => simp
  | cons first rest ih =>
    rw [List.foldl_cons, ih, release_owns, List.mem_cons]
    tauto

theorem releaseAll_attended {network : Network} (attended : network.Attended) (urls : List String)
    (owner : String) : (network.releaseAll urls owner).Attended := by
  unfold releaseAll
  induction urls generalizing network with
  | nil => exact attended
  | cons first rest ih => exact ih (release_attended attended first owner)

@[simp] theorem releaseAll_stopped (network : Network) (urls : List String) (owner : String) :
    (network.releaseAll urls owner).stopped = network.stopped := by
  unfold releaseAll
  induction urls generalizing network with
  | nil => rfl
  | cons first rest ih => rw [List.foldl_cons, ih, release_stopped]

section Listening

variable {network : Network} {owner : String} {urls : List String}

@[simp] theorem listen_stopped (network : Network) (owner url : String) :
    (network.listen host owner url).stopped = network.stopped := by
  unfold listen subscribeFor
  split
  · split
    · rfl
    · rw [(openSub_same host _ url).stopped, claim_stopped]
  · exact claim_stopped network url owner

@[simp] theorem listenAll_stopped (network : Network) (owner : String) (urls : List String) :
    (network.listenAll host owner urls).stopped = network.stopped := by
  unfold listenAll
  induction urls generalizing network with
  | nil => rfl
  | cons first rest ih => rw [List.foldl_cons, ih, listen_stopped]

theorem listenAll_owns (other url : String) :
    (network.listenAll host owner urls).Owns other url ↔
      network.Owns other url ∨ other = owner ∧ url ∈ urls := by
  unfold listenAll
  induction urls generalizing network with
  | nil => simp
  | cons first rest ih =>
    rw [List.foldl_cons, ih, (listen_claims host network owner first).owns, claim_owns,
      List.mem_cons]
    tauto

theorem listenAll_attended (attended : network.Attended) :
    (network.listenAll host owner urls).Attended := by
  unfold listenAll
  induction urls generalizing network with
  | nil => exact attended
  | cons first rest ih =>
    apply ih
    exact (listen_claims host network owner first).attended (claim_attended attended first owner)

end Listening

theorem claimAll_owns (owner other url : String) :
    (network.claimAll urls owner).Owns other url ↔
      network.Owns other url ∨ other = owner ∧ url ∈ urls := by
  unfold claimAll
  induction urls generalizing network with
  | nil => simp
  | cons first rest ih =>
    rw [List.foldl_cons, ih, claim_owns, List.mem_cons]
    tauto

theorem claimAll_attended {network : Network} (attended : network.Attended) (urls : List String)
    (owner : String) : (network.claimAll urls owner).Attended := by
  unfold claimAll
  induction urls generalizing network with
  | nil => exact attended
  | cons first rest ih => exact ih (claim_attended attended first owner)

@[simp] theorem claimAll_stopped (network : Network) (urls : List String) (owner : String) :
    (network.claimAll urls owner).stopped = network.stopped := by
  unfold claimAll
  induction urls generalizing network with
  | nil => rfl
  | cons first rest ih => rw [List.foldl_cons, ih, claim_stopped]

theorem start_attended {network : Network} (attended : network.Attended) :
    (network.start host).Attended := by
  have begun : ({ network with started := true } : Network).Attended := attended
  exact (subscribeAll_same host _ _).attended (claimAll_attended begun network.relays SERVER_OWNER)

@[simp] theorem claimAll_relays (network : Network) (urls : List String) (owner : String) :
    (network.claimAll urls owner).relays = network.relays := by
  unfold claimAll
  induction urls generalizing network with
  | nil => rfl
  | cons url rest ih => rw [List.foldl_cons, ih, claim_relays]

@[simp] theorem start_relays (network : Network) : (network.start host).relays = network.relays := by
  unfold start
  simp only
  rw [(subscribeAll_same host _ _).relays, claimAll_relays]

@[simp] theorem start_stopped (network : Network) :
    (network.start host).stopped = network.stopped := by
  unfold start
  simp only
  rw [(subscribeAll_same host _ _).stopped, claimAll_stopped]

theorem start_owns (other url : String) (client : other ≠ SERVER_OWNER) :
    (network.start host).Owns other url ↔ network.Owns other url := by
  unfold start
  simp only
  rw [(subscribeAll_same host _ _).owns, claimAll_owns]
  simp only [client, false_and, or_false]
  exact Iff.rfl

end Network

end NostrWot.Bunker
