import NostrWot.Data.Newest
import NostrWot.Dm.Session

namespace NostrWot.Dm

open NostrWot.Data

/-! # The inbox and the messages sent

What comes back of a message that was sent, beside the copy that is kept at once.
-/

namespace Inbox

def KIND_NIP04_DM : Nat := 4

def KIND_NIP44_DM : Nat := 14

structure EventTemplate where
  kind : Nat
  createdAt : Int
  tags : List (List String)
  content : String

structure NostrEvent extends EventTemplate where
  id : String
  pubkey : Pubkey

structure UnsignedEvent extends EventTemplate where
  pubkey : Pubkey

structure Rumor extends UnsignedEvent where
  id : String

/-- A signer, and the gift wraps made and opened with it; `ρ` are the random bytes of a call. -/
structure NostrSigner (ρ : Type) where
  getPublicKey : Pubkey
  signEvent : EventTemplate → Option NostrEvent
  nip04Encrypt : Option (ρ → Pubkey → String → Option String)
  nip04Decrypt : Option (Pubkey → String → Option String)
  sealAndGiftWrap : ρ → Pubkey → UnsignedEvent → Option NostrEvent
  unwrapGiftWrap : NostrEvent → Option (Rumor × Pubkey)

structure DMSession (ρ : Type) where
  myPubkey : Pubkey
  signer : NostrSigner ρ

structure SendDM (ρ : Type) where
  partnerPubkey : Pubkey
  content : String
  scheme : Scheme
  random : ρ
  builtAt : Int
  sentAt : Int

inductive InboxEvent where
  /-- Kind 4, to or by the session's user. -/
  | nip04 (event : NostrEvent)
  /-- Kind 1059, to the session's user. -/
  | giftWrap (event : NostrEvent)

/-- Whom a message is exchanged with; an empty name is none. -/
def partnerPk (myPubkey author : Pubkey) (tags : List (List String)) : Option Pubkey :=
  (if author = myPubkey then (tags.find? fun tag => tag[0]? = some "p").bind fun tag => tag[1]?
    else some author).filter fun partner => partner ≠ ""

section Code

variable {ρ : Type}

def encryptNip04 (signer : NostrSigner ρ) (random : ρ) (recipientPubkey : Pubkey)
    (plaintext : String) (now : Int) : Option NostrEvent := do
  let nip04Encrypt ← signer.nip04Encrypt
  let ciphertext ← nip04Encrypt random recipientPubkey plaintext
  signer.signEvent {
    kind := KIND_NIP04_DM
    createdAt := now
    tags := [["p", recipientPubkey]]
    content := ciphertext }

def decryptNip04 (signer : NostrSigner ρ) (event : NostrEvent) : Option String := do
  let nip04Decrypt ← signer.nip04Decrypt
  let counterparty ← partnerPk signer.getPublicKey event.pubkey event.tags
  nip04Decrypt counterparty event.content

def buildChatMessage (fromPubkey toPubkey : Pubkey) (content : String) (now : Int) :
    UnsignedEvent where
  pubkey := fromPubkey
  kind := KIND_NIP44_DM
  createdAt := now
  tags := [["p", toPubkey]]
  content := content

def handleNip04 (session : DMSession ρ) (event : NostrEvent) : Option DMMessage := do
  let plaintext ← decryptNip04 session.signer event
  let partner ← partnerPk session.myPubkey event.pubkey event.tags
  return {
    id := event.id
    fromPubkey := event.pubkey
    partnerPubkey := partner
    content := plaintext
    createdAt := event.createdAt
    scheme := .nip04 }

def handleGiftWrap (session : DMSession ρ) (event : NostrEvent) : Option DMMessage := do
  let (message, senderPubkey) ← session.signer.unwrapGiftWrap event
  let partner ← partnerPk session.myPubkey senderPubkey message.tags
  return {
    id := message.id
    fromPubkey := senderPubkey
    partnerPubkey := partner
    content := message.content
    createdAt := message.createdAt
    scheme := .nip17 }

/-- What an event is read as, once it is decrypted. -/
def received (session : DMSession ρ) : InboxEvent → Option DMMessage
  | .nip04 event => handleNip04 session event
  | .giftWrap event => handleGiftWrap session event

def sentEvent (session : DMSession ρ) (call : SendDM ρ) : Option NostrEvent :=
  match call.scheme with
  | .nip04 =>
    encryptNip04 session.signer call.random call.partnerPubkey call.content call.builtAt
  | .nip17 =>
    session.signer.sealAndGiftWrap call.random call.partnerPubkey
      (buildChatMessage session.myPubkey call.partnerPubkey call.content call.builtAt)

def localMsg (session : DMSession ρ) (call : SendDM ρ) (event : NostrEvent) : DMMessage where
  id := match call.scheme with
    | .nip04 => event.id
    | .nip17 => "local:" ++ event.id
  fromPubkey := session.myPubkey
  partnerPubkey := call.partnerPubkey
  content := call.content
  createdAt := call.sentAt
  scheme := call.scheme

def sendDM (session : DMSession ρ) (state : SessionState) (call : SendDM ρ) :
    Option (NostrEvent × SessionState) := do
  let event ← sentEvent session call
  return (event, state.ingestMessage (localMsg session call event))

/-- How the relays deliver what was sent. -/
def onWire (call : SendDM ρ) (event : NostrEvent) : InboxEvent :=
  match call.scheme with
  | .nip04 => .nip04 event
  | .nip17 => .giftWrap event

inductive Act (ρ : Type) where
  /-- An event is delivered, and its decryption is done. -/
  | receive (event : InboxEvent)
  | send (call : SendDM ρ)

def message (session : DMSession ρ) : Act ρ → Option DMMessage
  | .receive event => received session event
  | .send call => (sentEvent session call).map (localMsg session call)

def step (session : DMSession ρ) (state : SessionState) (act : Act ρ) : SessionState :=
  match message session act with
  | none => state
  | some msg => state.ingestMessage msg

def run (session : DMSession ρ) (state : SessionState) (acts : List (Act ρ)) : SessionState :=
  acts.foldl (step session) state

/-- The ids that a message sent may be held under: that of the copy kept at once, and that of the
copy that the relays deliver. -/
def ids (session : DMSession ρ) (call : SendDM ρ) (event : NostrEvent) : List String :=
  (localMsg session call event).id :: ((received session (onWire call event)).map DMMessage.id).toList

/-- What the thread with its recipient holds of a message sent. -/
def copies (session : DMSession ρ) (state : SessionState) (call : SendDM ρ) (event : NostrEvent) :
    List DMMessage :=
  (state.thread call.partnerPubkey).filter fun msg => msg.id ∈ ids session call event

end Code

/-! ## What a session holds -/

/-- A message, under the partner whose thread it is in. -/
abbrev Entry := Pubkey × DMMessage

def Entry.age (entry : Entry) : Int := entry.2.createdAt

def placed (msg : DMMessage) : Entry := (msg.partnerPubkey, msg)

def entries (state : SessionState) : List Entry :=
  state.messagesByPartner.entries.flatMap fun thread => thread.2.map fun msg => (thread.1, msg)

def held (state : SessionState) : Finset Entry := (entries state).toFinset

/-- Whether the messages of a partner may be evicted. -/
def exposed (followSet : Option (Finset Pubkey)) (partner : Pubkey) : Bool :=
  followSet.any fun follows => partner ∉ follows

def strangers (followSet : Option (Finset Pubkey)) (all : Finset Entry) : Finset Entry :=
  all.filter fun entry => exposed followSet entry.1

variable {state : SessionState} {partner : Pubkey} {msg : DMMessage} {follows : Finset Pubkey}

theorem thread_of_mem {thread : Pubkey × List DMMessage}
    (member : thread ∈ state.messagesByPartner.entries) : state.thread thread.1 = thread.2 := by
  have found : state.messagesByPartner.get thread.1 = some thread.2 :=
    OrderedMap.get_eq_some.mpr member
  unfold SessionState.thread
  rw [found]
  rfl

@[simp] theorem mem_held : (partner, msg) ∈ held state ↔ msg ∈ state.thread partner := by
  unfold held entries
  rw [List.mem_toFinset, List.mem_flatMap]
  constructor
  · intro found
    obtain ⟨thread, member, inside⟩ := found
    obtain ⟨each, there, same⟩ := List.mem_map.mp inside
    cases same
    rwa [thread_of_mem member]
  · intro inside
    cases known : state.messagesByPartner.get partner with
    | none =>
      unfold SessionState.thread at inside
      rw [known] at inside
      contradiction
    | some msgs =>
      have member := OrderedMap.get_eq_some.mp known
      rw [thread_of_mem member] at inside
      exact ⟨(partner, msgs), member, List.mem_map_of_mem inside⟩

theorem entries_nodup (sound : state.Sound) : (entries state).Nodup := by
  unfold entries
  rw [List.nodup_flatMap]
  constructor
  · intro thread member
    have distinct := sound.distinct thread.1
    rw [thread_of_mem member] at distinct
    exact (distinct.of_map _).map fun _ _ same => (Prod.mk.inj same).2
  · have apart := List.pairwise_map.mp state.messagesByPartner.nodup
    refine apart.imp fun differs entry first second => ?_
    obtain ⟨one, _, is⟩ := List.mem_map.mp first
    obtain ⟨two, _, also⟩ := List.mem_map.mp second
    rw [← also] at is
    exact differs (Prod.mk.inj is).1

theorem exposed_iff {followSet : Option (Finset Pubkey)} :
    exposed followSet partner = true ↔ ∃ follows, followSet = some follows ∧ partner ∉ follows := by
  simp [exposed, Option.any_eq_true]

theorem card_strangers (sound : state.Sound) (known : state.followSet = some follows) :
    (strangers state.followSet (held state)).card = state.size follows := by
  have listed : strangers state.followSet (held state) =
      ((entries state).filter fun entry => exposed state.followSet entry.1).toFinset := by
    unfold strangers held
    rw [List.toFinset_filter]
  rw [listed, List.toFinset_card_of_nodup ((entries_nodup sound).filter _), known]
  unfold entries SessionState.size OrderedMap.weight
  rw [List.filter_flatMap, List.length_flatMap]
  congr 1
  refine List.map_congr_left fun thread _ => ?_
  by_cases followed : thread.1 ∈ follows
  · simp [exposed, followed, List.filter_map]
  · simp [exposed, followed, List.filter_map]

theorem held_id (sound : state.Sound) {one two : Entry} (first : one ∈ held state)
    (second : two ∈ held state) (same : one.2.id = two.2.id) : one = two := by
  obtain ⟨partner, msg⟩ := one
  obtain ⟨other, also⟩ := two
  have inside := mem_held.mp first
  have there := mem_held.mp second
  have here : partner = other := sound.apart _ _ msg inside also there same
  subst here
  have is : msg = also := List.inj_on_of_nodup_map (sound.distinct partner) inside there same
  rw [is]

theorem seen_iff (sound : state.Sound) {id : String} :
    id ∈ state.seenMessageIds ↔ ∃ entry ∈ held state, entry.2.id = id := by
  rw [sound.seen]
  constructor
  · intro found
    obtain ⟨partner, msg, inside, same⟩ := found
    exact ⟨(partner, msg), mem_held.mpr inside, same⟩
  · intro found
    obtain ⟨entry, inside, same⟩ := found
    exact ⟨entry.1, entry.2, mem_held.mp inside, same⟩

theorem held_inserted : held (state.inserted msg) = held state ∪ {placed msg} := by
  ext entry
  obtain ⟨partner, other⟩ := entry
  rw [mem_held, SessionState.mem_inserted, Finset.mem_union, mem_held, Finset.mem_singleton]
  simp [placed, and_comm]

/-- What an eviction at the end of an operation leaves. -/
structure Published (before after : SessionState) : Prop where
  sound : after.Sound
  followSet : after.followSet = before.followSet
  caps : after.caps = before.caps
  within : held after ⊆ held before
  exposed : ∀ entry ∈ held before, entry ∉ held after → exposed before.followSet entry.1 = true
  oldest : ∀ entry ∈ held before, entry ∉ held after →
    ∀ left ∈ strangers before.followSet (held after), entry.age ≤ left.age
  cut : ∀ entry ∈ held before, entry ∉ held after →
    (strangers before.followSet (held after)).card ∈ before.caps
  fits : ∀ cap ∈ before.caps, (strangers before.followSet (held after)).card ≤ cap

theorem publish_followSet : state.publish.followSet = state.followSet := by
  rcases SessionState.publish_shrinks state with same | ⟨_, evicted⟩
  · rw [same]
  · exact evicted.followSet

theorem published (sound : state.Sound) : Published state state.publish := by
  have after : state.publish.Sound := sound.publish.toSound
  have followSet := @publish_followSet state
  have shrinks := SessionState.publish_shrinks state
  have lost : ∀ entry ∈ held state, entry ∉ held state.publish →
      ∃ follows, state.followSet = some follows ∧ entry.1 ∉ follows ∧
        (∀ left ∈ strangers state.followSet (held state.publish), entry.age ≤ left.age) ∧
        (strangers state.followSet (held state.publish)).card ∈ state.caps := by
    intro entry inside gone
    obtain ⟨follows, known, stranger, older, cut⟩ :=
      shrinks.lost (mem_held.mp inside) fun there => gone (mem_held.mpr there)
    have card := card_strangers after known
    rw [followSet] at known card
    refine ⟨follows, known, stranger, fun left stays => ?_, ?_⟩
    · obtain ⟨there, evictable⟩ := Finset.mem_filter.mp stays
      obtain ⟨others, also, apart⟩ := exposed_iff.mp evictable
      rw [known] at also
      cases also
      exact older left.1 apart left.2 (mem_held.mp there)
    · rw [card, ← SessionState.evictable_length]
      exact cut
  refine ⟨after, followSet, ?_, fun entry inside => ?_, fun entry inside gone => ?_,
    fun entry inside gone => ?_, fun entry inside gone => ?_, fun cap member => ?_⟩
  · exact shrinks.observers
  · exact mem_held.mpr (shrinks.within (mem_held.mp inside))
  · obtain ⟨follows, known, stranger, _⟩ := lost entry inside gone
    exact exposed_iff.mpr ⟨follows, known, stranger⟩
  · obtain ⟨_, _, _, older, _⟩ := lost entry inside gone
    exact older
  · obtain ⟨_, _, _, _, cut⟩ := lost entry inside gone
    exact cut
  · cases known : state.followSet with
    | none => simp [strangers, exposed]
    | some follows =>
      have there : state.publish.followSet = some follows := followSet.trans known
      have card := card_strangers after there
      rw [there] at card
      rw [card, ← SessionState.evictable_length]
      exact SessionState.publish_le there member

theorem ingest_unseen (sound : state.Sound) (unseen : msg.id ∉ state.seenMessageIds) :
    Published (state.inserted msg) (state.ingestMessage msg) := by
  rw [SessionState.ingestMessage_eq, if_neg unseen]
  exact published (sound.inserted unseen)

theorem ingest_seen (seen : msg.id ∈ state.seenMessageIds) : state.ingestMessage msg = state :=
  SessionState.step_ingest_seen seen

/-! ## A message that stays -/

/-- The ids of what is as new as an entry, among what may be evicted. -/
def rivals (followSet : Option (Finset Pubkey)) (all : Finset Entry) (entry : Entry) :
    Finset String :=
  (((strangers followSet all).filter fun other => entry.age ≤ other.age).image
    fun other => other.2.id).erase entry.2.id

def Stays (state : SessionState) (all : Finset Entry) (entry : Entry) : Prop :=
  exposed state.followSet entry.1 = true →
    ∀ cap ∈ state.caps, (rivals state.followSet all entry).card < cap

theorem card_le_rivals (sound : state.Sound) {followSet : Option (Finset Pubkey)}
    {all : Finset Entry} {entry : Entry}
    (within : ∀ left ∈ held state, left ∈ all)
    (apart : ∀ left ∈ held state, left.2.id ≠ entry.2.id)
    (older : ∀ left ∈ strangers followSet (held state), entry.age ≤ left.age) :
    (strangers followSet (held state)).card ≤ (rivals followSet all entry).card := by
  have inside : ∀ left ∈ strangers followSet (held state), left ∈ held state :=
    fun left member => (Finset.mem_filter.mp member).1
  have named : ((strangers followSet (held state)).image fun left => left.2.id).card =
      (strangers followSet (held state)).card := by
    apply Finset.card_image_of_injOn
    intro one first two second same
    exact held_id sound (inside one first) (inside two second) same
  rw [← named]
  apply Finset.card_le_card
  intro id member
  obtain ⟨left, stranger, same⟩ := Finset.mem_image.mp member
  have there := inside left stranger
  refine Finset.mem_erase.mpr ⟨fun equal => apart left there (same.trans equal), ?_⟩
  refine Finset.mem_image.mpr ⟨left, Finset.mem_filter.mpr ⟨?_, older left stranger⟩, same⟩
  exact Finset.mem_filter.mpr ⟨within left there, (Finset.mem_filter.mp stranger).2⟩

theorem Stays.publish {before after : SessionState} {all : Finset Entry} {entry : Entry}
    (stays : Stays before all entry) (sound : before.Sound) (published : Published before after)
    (inside : entry ∈ held before) (within : ∀ left ∈ held before, left = entry ∨ left ∈ all) :
    entry ∈ held after := by
  by_contra gone
  have evictable := published.exposed entry inside gone
  have cut := published.cut entry inside gone
  have apart : ∀ left ∈ held after, left.2.id ≠ entry.2.id := by
    intro left there same
    have is := held_id sound (published.within there) inside same
    rw [is] at there
    exact gone there
  have fewer := card_le_rivals published.sound (fun left there =>
    (within left (published.within there)).resolve_left fun same =>
      apart left there (by rw [same])) apart (published.oldest entry inside gone)
  have below := stays evictable _ cut
  omega

section Runs

variable {ρ : Type} {session : DMSession ρ} {acts : List (Act ρ)}

def messages (session : DMSession ρ) (acts : List (Act ρ)) : List DMMessage :=
  acts.filterMap (message session)

theorem run_eq : run session state acts = (messages session acts).foldl
    SessionState.ingestMessage state := by
  unfold run messages
  induction acts generalizing state with
  | nil => rfl
  | cons act rest ih =>
    rw [List.foldl_cons, ih, List.filterMap_cons]
    unfold step
    cases message session act with
    | none => rfl
    | some msg => rfl

def arriving (msgs : List DMMessage) : Finset Entry := (msgs.map placed).toFinset

variable {msgs : List DMMessage} {entry : Entry}

theorem mem_arriving :
    entry ∈ arriving msgs ↔ ∃ msg ∈ msgs, placed msg = entry := by
  simp [arriving]

theorem ingest_rest (sound : state.Sound) (msg : DMMessage) :
    (state.ingestMessage msg).Sound ∧ (state.ingestMessage msg).followSet = state.followSet ∧
      (state.ingestMessage msg).caps = state.caps ∧
      held (state.ingestMessage msg) ⊆ held state ∪ {placed msg} := by
  by_cases seen : msg.id ∈ state.seenMessageIds
  · rw [ingest_seen seen]
    exact ⟨sound, rfl, rfl, Finset.subset_union_left⟩
  · have published := ingest_unseen sound seen
    refine ⟨published.sound, published.followSet, published.caps, ?_⟩
    rw [← held_inserted]
    exact published.within

theorem Stays.ingest {all : Finset Entry} (stays : Stays state all entry) (sound : state.Sound)
    (inside : entry ∈ held (state.inserted msg))
    (within : ∀ left ∈ held (state.inserted msg), left = entry ∨ left ∈ all)
    (unseen : msg.id ∉ state.seenMessageIds) : entry ∈ held (state.ingestMessage msg) := by
  have stays : Stays (state.inserted msg) all entry := stays
  exact stays.publish (sound.inserted unseen) (ingest_unseen sound unseen) inside within

theorem Stays.run {all : Finset Entry} (stays : Stays state all entry) (sound : state.Sound)
    (inside : entry ∈ held state) (within : ∀ left ∈ held state, left = entry ∨ left ∈ all)
    (later : ∀ msg ∈ msgs, placed msg ∈ all) :
    entry ∈ held (msgs.foldl SessionState.ingestMessage state) := by
  induction msgs generalizing state with
  | nil => exact inside
  | cons msg rest ih =>
    obtain ⟨sound', followSet, caps, comes⟩ := ingest_rest sound msg
    have next : ∀ left ∈ held state ∪ {placed msg}, left = entry ∨ left ∈ all := by
      intro left member
      rcases Finset.mem_union.mp member with old | new
      · exact within left old
      · rw [Finset.mem_singleton.mp new]
        exact .inr (later msg List.mem_cons_self)
    have stays' : Stays (state.ingestMessage msg) all entry := by
      unfold Stays
      rw [followSet, caps]
      exact stays
    refine ih stays' sound' ?_ (fun left there => next left (comes there))
      fun other member => later other (List.mem_cons_of_mem _ member)
    by_cases seen : msg.id ∈ state.seenMessageIds
    · rw [ingest_seen seen]
      exact inside
    · refine stays.ingest sound ?_ (fun left there => ?_) seen
      · rw [held_inserted]
        exact Finset.mem_union_left _ inside
      · rw [held_inserted] at there
        exact next left there

theorem sound_run (sound : state.Sound) :
    (msgs.foldl SessionState.ingestMessage state).Sound := by
  induction msgs generalizing state with
  | nil => exact sound
  | cons msg rest ih => exact ih (ingest_rest sound msg).1

theorem held_run {msgs : List DMMessage} (sound : state.Sound) :
    held (msgs.foldl SessionState.ingestMessage state) ⊆ held state ∪ arriving msgs := by
  induction msgs generalizing state with
  | nil => exact Finset.subset_union_left
  | cons msg rest ih =>
    obtain ⟨sound', _, _, comes⟩ := ingest_rest sound msg
    intro entry member
    have member := ih sound' member
    rcases Finset.mem_union.mp member with before | after
    · rcases Finset.mem_union.mp (comes before) with old | new
      · exact Finset.mem_union_left _ old
      · apply Finset.mem_union_right
        exact mem_arriving.mpr ⟨msg, List.mem_cons_self, (Finset.mem_singleton.mp new).symm⟩
    · obtain ⟨other, there, same⟩ := mem_arriving.mp after
      apply Finset.mem_union_right
      exact mem_arriving.mpr ⟨other, List.mem_cons_of_mem _ there, same⟩

/-- A message that is sent once: its ids are new, nothing else arrives under the id of the relays'
copy where the copy kept at once has another, and no cap is reached by newer messages. -/
structure Alone (session : DMSession ρ) (state : SessionState) (call : SendDM ρ)
    (event : NostrEvent) (acts : List (Act ρ)) : Prop where
  fresh : ∀ id ∈ ids session call event, id ∉ state.seenMessageIds
  unechoed : ∀ act ∈ acts, ∀ msg, message session act = some msg →
    msg.id ∈ ids session call event → msg.id = (localMsg session call event).id
  stays : Stays state (held state ∪ arriving (messages session acts))
    (placed (localMsg session call event))

theorem copies_once (sound : state.Sound) {call : SendDM ρ} {event : NostrEvent}
    {next : SessionState} (sent : sendDM session state call = some (event, next))
    (alone : Alone session state call event acts) :
    (copies session (run session next acts) call event).length = 1 := by
  have next_eq : next = state.ingestMessage (localMsg session call event) := by
    unfold sendDM at sent
    cases made : sentEvent session call with
    | none =>
      rw [made] at sent
      contradiction
    | some other =>
      rw [made] at sent
      cases sent
      rfl
  have unseen : (localMsg session call event).id ∉ state.seenMessageIds :=
    alone.fresh _ List.mem_cons_self
  obtain ⟨sound', followSet, caps, comes⟩ := ingest_rest sound (localMsg session call event)
  rw [← next_eq] at sound' followSet caps comes
  have only : ∀ left ∈ held state ∪ {placed (localMsg session call event)},
      left = placed (localMsg session call event) ∨
        left ∈ held state ∪ arriving (messages session acts) := by
    intro left member
    rcases Finset.mem_union.mp member with old | new
    · exact .inr (Finset.mem_union_left _ old)
    · exact .inl (Finset.mem_singleton.mp new)
  have kept : placed (localMsg session call event) ∈ held next := by
    rw [next_eq]
    refine alone.stays.ingest sound ?_ (fun left there => ?_) unseen
    · rw [held_inserted]
      exact Finset.mem_union_right _ (Finset.mem_singleton_self _)
    · rw [held_inserted] at there
      exact only left there
  have stays : Stays next (held state ∪ arriving (messages session acts))
      (placed (localMsg session call event)) := by
    unfold Stays
    rw [followSet, caps]
    exact alone.stays
  have stayed : placed (localMsg session call event) ∈ held (run session next acts) := by
    rw [run_eq]
    exact stays.run sound' kept (fun left there => only left (comes there)) fun msg member =>
      Finset.mem_union_right _ (mem_arriving.mpr ⟨msg, member, rfl⟩)
  have last : (run session next acts).Sound := by
    rw [run_eq]
    exact sound_run sound'
  -- nothing else in the thread has one of the ids
  have unique : ∀ msg, msg ∈ copies session (run session next acts) call event ↔
      msg = localMsg session call event := by
    intro msg
    unfold copies
    rw [List.mem_filter, decide_eq_true_eq]
    constructor
    · intro found
      obtain ⟨inside, named⟩ := found
      have inside : (call.partnerPubkey, msg) ∈ held (run session next acts) := mem_held.mpr inside
      have same : msg.id = (localMsg session call event).id := by
        have origin := inside
        rw [run_eq] at origin
        rcases Finset.mem_union.mp (held_run sound' origin) with before | after
        · rcases Finset.mem_union.mp (comes before) with old | new
          · have seen := (seen_iff sound).mpr ⟨_, old, rfl⟩
            exact absurd seen (alone.fresh _ named)
          · exact congrArg (fun entry : Entry => entry.2.id) (Finset.mem_singleton.mp new)
        · obtain ⟨other, there, is⟩ := mem_arriving.mp after
          obtain ⟨act, member, made⟩ := List.mem_filterMap.mp there
          have equal : other = msg := congrArg Prod.snd is
          rw [equal] at made
          exact alone.unechoed act member msg made named
      exact congrArg Prod.snd (held_id last inside stayed same)
    · intro is
      rw [is]
      exact ⟨mem_held.mp stayed, List.mem_cons_self⟩
  have nodup : (copies session (run session next acts) call event).Nodup :=
    ((last.distinct _).of_map _).filter _
  have perm : (copies session (run session next acts) call event).Perm
      [localMsg session call event] := by
    rw [List.perm_ext_iff_of_nodup nodup (List.nodup_singleton _)]
    simpa using unique
  simpa using perm.length_eq

/-! ## What does not depend on the order -/

def comingIn (state : SessionState) (msgs : List DMMessage) : Finset Entry :=
  held state ∪ arriving (msgs.filter fun msg => msg.id ∉ state.seenMessageIds)

theorem mem_comingIn :
    entry ∈ comingIn state msgs ↔ entry ∈ held state ∨
      ∃ msg ∈ msgs, msg.id ∉ state.seenMessageIds ∧ placed msg = entry := by
  unfold comingIn
  rw [Finset.mem_union, mem_arriving]
  simp [and_assoc]

/-- One message is read under each new id, and what is read again under the id of a message held
is that message or cannot take its place. -/
structure Agreeing (state : SessionState) (msgs : List DMMessage) : Prop where
  agree : ∀ msg ∈ msgs, ∀ other ∈ msgs, msg.id ∉ state.seenMessageIds → other.id = msg.id →
    other = msg
  stays : ∀ entry ∈ held state, ∀ msg ∈ msgs, msg.id = entry.2.id →
    placed msg = entry ∨ Stays state (comingIn state msgs) entry

structure Holding (start : SessionState) (msgs : List DMMessage) (state : SessionState) : Prop where
  sound : state.Sound
  followSet : state.followSet = start.followSet
  caps : state.caps = start.caps
  within : held state ⊆ comingIn start msgs
  kept : ∀ entry ∈ comingIn start msgs, entry ∉ held state →
    exposed start.followSet entry.1 = true
  newest : Newest Entry.age start.caps (strangers start.followSet (comingIn start msgs))
    (strangers start.followSet (held state))
  fits : comingIn start msgs ≠ held start → ∀ cap ∈ start.caps,
    (strangers start.followSet (held state)).card ≤ cap
  idle : comingIn start msgs = held start → state = start

theorem Holding.refl (sound : state.Sound) : Holding state [] state := by
  have same : comingIn state [] = held state := by
    ext entry
    rw [mem_comingIn]
    simp
  refine ⟨sound, rfl, rfl, ?_, fun entry inside missing => ?_, ?_, fun more => absurd same more,
    fun _ => rfl⟩
  · rw [same]
  · rw [same] at inside
    exact absurd inside missing
  · rw [same]
    exact Newest.refl _ _ _

variable {start : SessionState} {msgs : List DMMessage}

theorem comingIn_append : comingIn start (msgs ++ [msg]) = comingIn start msgs ∪
    if msg.id ∈ start.seenMessageIds then ∅ else {placed msg} := by
  ext entry
  rw [Finset.mem_union, mem_comingIn, mem_comingIn]
  by_cases seen : msg.id ∈ start.seenMessageIds
  · simp [seen]
  · simp [seen, eq_comm, or_assoc, or_and_right, exists_or]

theorem Holding.seen (holding : Holding start msgs state) (agreeing : Agreeing start (msgs ++ [msg]))
    (sound : start.Sound) (seen : msg.id ∈ state.seenMessageIds) :
    comingIn start (msgs ++ [msg]) = comingIn start msgs := by
  rw [comingIn_append]
  by_cases old : msg.id ∈ start.seenMessageIds
  · rw [if_pos old, Finset.union_empty]
  · rw [if_neg old]
    obtain ⟨entry, inside, same⟩ := (seen_iff holding.sound).mp seen
    have known := mem_comingIn.mp (holding.within inside)
    have is : entry = placed msg := by
      rcases known with before | ⟨other, member, _, equal⟩
      · exact absurd ((seen_iff sound).mpr ⟨entry, before, same⟩) old
      · have named : other.id = msg.id := by
          rw [← same, ← equal]
          rfl
        rw [← equal, agreeing.agree msg (by simp) other (by simp [member]) old named]
    apply Finset.union_eq_left.mpr
    intro other new
    rw [Finset.mem_singleton.mp new, ← is]
    exact holding.within inside

theorem Holding.unseen (holding : Holding start msgs state)
    (agreeing : Agreeing start (msgs ++ [msg])) (sound : start.Sound)
    (unseen : msg.id ∉ state.seenMessageIds) :
    comingIn start (msgs ++ [msg]) = comingIn start msgs ∪ {placed msg} := by
  rw [comingIn_append]
  by_cases old : msg.id ∈ start.seenMessageIds
  · rw [if_pos old, Finset.union_empty]
    obtain ⟨entry, inside, same⟩ := (seen_iff sound).mp old
    have known : entry ∈ comingIn start msgs := mem_comingIn.mpr (.inl inside)
    have apart : ∀ left ∈ held state, left.2.id ≠ entry.2.id := by
      intro left there equal
      exact unseen ((seen_iff holding.sound).mpr ⟨left, there, equal.trans same⟩)
    have gone : entry ∉ held state := fun there => apart entry there rfl
    have evictable := holding.kept entry known gone
    have lost : entry ∈ strangers start.followSet (comingIn start msgs) :=
      Finset.mem_filter.mpr ⟨known, evictable⟩
    have missing : entry ∉ strangers start.followSet (held state) :=
      fun there => gone (Finset.mem_filter.mp there).1
    have is : placed msg = entry := by
      rcases agreeing.stays entry inside msg (by simp) same.symm with is | stays
      · exact is
      · have cut := (holding.newest.cut entry lost missing).1
        have fewer := stays evictable _ cut
        have more : (strangers start.followSet (held state)).card ≤
            (rivals start.followSet (comingIn start (msgs ++ [msg])) entry).card := by
          refine card_le_rivals holding.sound (fun left there => ?_) apart
            (holding.newest.oldest entry lost missing)
          rw [comingIn_append]
          exact Finset.mem_union_left _ (holding.within there)
        omega
    rw [is]
    symm
    apply Finset.union_eq_left.mpr
    exact Finset.singleton_subset_iff.mpr known
  · rw [if_neg old]

theorem strangers_union {followSet : Option (Finset Pubkey)} {one two : Finset Entry} :
    strangers followSet (one ∪ two) = strangers followSet one ∪ strangers followSet two :=
  Finset.filter_union _ _ _

theorem Holding.step (holding : Holding start msgs state)
    (agreeing : Agreeing start (msgs ++ [msg])) (sound : start.Sound) :
    Holding start (msgs ++ [msg]) (state.ingestMessage msg) := by
  by_cases seen : msg.id ∈ state.seenMessageIds
  · have same := holding.seen agreeing sound seen
    rw [ingest_seen seen]
    refine ⟨holding.sound, holding.followSet, holding.caps, ?_, ?_, ?_, ?_, ?_⟩
    · rw [same]
      exact holding.within
    · rw [same]
      exact holding.kept
    · rw [same]
      exact holding.newest
    · rw [same]
      exact holding.fits
    · rw [same]
      exact holding.idle
  · have more := holding.unseen agreeing sound seen
    have published := ingest_unseen holding.sound seen
    have followSet : (state.inserted msg).followSet = start.followSet := holding.followSet
    have caps : (state.inserted msg).caps = start.caps := holding.caps
    have sub : ∀ entry, entry ∈ held (state.inserted msg) → entry ∈ comingIn start (msgs ++ [msg]) := by
      intro entry inside
      rw [held_inserted] at inside
      rw [more]
      exact Finset.union_subset_union_left holding.within inside
    refine ⟨published.sound, published.followSet.trans followSet, published.caps.trans caps,
      fun entry inside => sub entry (published.within inside), fun entry inside gone => ?_, ?_,
      fun _ => ?_, fun same => ?_⟩
    · by_cases there : entry ∈ held (state.inserted msg)
      · rw [← followSet]
        exact published.exposed entry there gone
      · rw [held_inserted, Finset.mem_union, not_or] at there
        rw [more] at inside
        have before := (Finset.mem_union.mp inside).resolve_right there.2
        exact holding.kept entry before there.1
    · have union : strangers start.followSet (held (state.inserted msg)) =
          strangers start.followSet (held state) ∪ strangers start.followSet {placed msg} := by
        rw [held_inserted, strangers_union]
      have lost : ∀ entry ∈ strangers start.followSet (held (state.inserted msg)),
          entry ∉ strangers start.followSet (held (state.ingestMessage msg)) →
            entry ∈ held (state.inserted msg) ∧ entry ∉ held (state.ingestMessage msg) := by
        intro entry inside gone
        obtain ⟨there, evictable⟩ := Finset.mem_filter.mp inside
        exact ⟨there, fun stays => gone (Finset.mem_filter.mpr ⟨stays, evictable⟩)⟩
      rw [more, strangers_union]
      apply holding.newest.push
      · rw [← union]
        exact Finset.filter_subset_filter _ published.within
      · intro entry inside gone
        rw [← union] at inside
        obtain ⟨there, went⟩ := lost entry inside gone
        have oldest := published.oldest entry there went
        rwa [followSet] at oldest
      · intro entry inside gone
        rw [← union] at inside
        obtain ⟨there, went⟩ := lost entry inside gone
        have cut := published.cut entry there went
        rwa [followSet, caps] at cut
      · have fits := published.fits
        rwa [followSet, caps] at fits
    · have fits := published.fits
      rwa [followSet, caps] at fits
    · -- nothing new came in: then nothing was unseen
      exfalso
      rw [more] at same
      have known : placed msg ∈ held start := by
        rw [← same]
        exact Finset.mem_union_right _ (Finset.mem_singleton_self _)
      have before : comingIn start msgs = held start := by
        apply Finset.Subset.antisymm
        · rw [← same]
          exact Finset.subset_union_left
        · exact fun entry inside => mem_comingIn.mpr (.inl inside)
      have old : msg.id ∈ start.seenMessageIds := (seen_iff sound).mpr ⟨_, known, rfl⟩
      rw [holding.idle before] at seen
      exact seen old

theorem Stays.mono {all more : Finset Entry} (stays : Stays state more entry)
    (within : all ⊆ more) : Stays state all entry := by
  intro evictable cap member
  have fewer : (rivals state.followSet all entry).card ≤
      (rivals state.followSet more entry).card := by
    apply Finset.card_le_card
    apply Finset.erase_subset_erase
    apply Finset.image_subset_image
    exact Finset.filter_subset_filter _ (Finset.filter_subset_filter _ within)
  have below := stays evictable cap member
  omega

theorem Agreeing.earlier (agreeing : Agreeing start (msgs ++ [msg])) : Agreeing start msgs where
  agree one first two second :=
    agreeing.agree one (List.mem_append_left _ first) two (List.mem_append_left _ second)
  stays entry inside other member same := by
    have either := agreeing.stays entry inside other (List.mem_append_left _ member) same
    refine either.imp_right fun stays => stays.mono ?_
    rw [comingIn_append]
    exact Finset.subset_union_left

theorem Holding.run (sound : start.Sound) (agreeing : Agreeing start msgs) :
    Holding start msgs (msgs.foldl SessionState.ingestMessage start) := by
  induction msgs using List.reverseRecOn with
  | nil => exact .refl sound
  | append_singleton rest msg ih =>
    rw [List.foldl_append]
    exact (ih agreeing.earlier).step agreeing sound

variable {others : List DMMessage}

theorem Holding.unique {other : SessionState} (one : Holding start msgs state)
    (two : Holding start others other) (same : comingIn start others = comingIn start msgs)
    (clean : CleanCut Entry.age start.caps (strangers start.followSet (comingIn start msgs))) :
    held state = held other := by
  by_cases idle : comingIn start msgs = held start
  · rw [one.idle idle, two.idle (same.trans idle)]
  · have stays := two.newest
    rw [same] at stays
    have fits := two.fits fun equal => idle (same.symm.trans equal)
    have evictable := one.newest.unique stays (one.fits idle) fits clean
    have kept := two.kept
    have within := two.within
    rw [same] at kept within
    -- what cannot be evicted is held either way
    have both : ∀ {first second : SessionState},
        held first ⊆ comingIn start msgs →
        (∀ entry ∈ comingIn start msgs, entry ∉ held second →
          exposed start.followSet entry.1 = true) →
        strangers start.followSet (held first) = strangers start.followSet (held second) →
        held first ⊆ held second := by
      intro first second inside still equal entry member
      by_contra gone
      have strange := still entry (inside member) gone
      have there : entry ∈ strangers start.followSet (held first) :=
        Finset.mem_filter.mpr ⟨member, strange⟩
      rw [equal] at there
      exact gone (Finset.mem_filter.mp there).1
    exact Finset.Subset.antisymm (both one.within kept evictable)
      (both within one.kept evictable.symm)

theorem mem_messages_congr {others : List (Act ρ)} (same : ∀ act, act ∈ acts ↔ act ∈ others)
    (msg : DMMessage) : msg ∈ messages session acts ↔ msg ∈ messages session others := by
  unfold messages
  simp [List.mem_filterMap, same]

theorem comingIn_congr (same : ∀ msg, msg ∈ msgs ↔ msg ∈ others) :
    comingIn start others = comingIn start msgs := by
  ext entry
  simp [mem_comingIn, same]

theorem Agreeing.congr (agreeing : Agreeing start msgs) (same : ∀ msg, msg ∈ msgs ↔ msg ∈ others) :
    Agreeing start others where
  agree one first two second :=
    agreeing.agree one ((same one).mpr first) two ((same two).mpr second)
  stays entry inside msg member equal := by
    rw [comingIn_congr same]
    exact agreeing.stays entry inside msg ((same msg).mpr member) equal

theorem threads_agree (sound : start.Sound) {others : List (Act ρ)}
    (same : ∀ act, act ∈ acts ↔ act ∈ others) (agreeing : Agreeing start (messages session acts))
    (clean : CleanCut Entry.age start.caps
      (strangers start.followSet (comingIn start (messages session acts)))) (partner : Pubkey)
    (msg : DMMessage) : msg ∈ (run session start acts).thread partner ↔
      msg ∈ (run session start others).thread partner := by
  have listed := @mem_messages_congr _ session acts others same
  have one := Holding.run sound agreeing
  have two := Holding.run sound (agreeing.congr listed)
  rw [← run_eq] at one two
  rw [← mem_held, ← mem_held, one.unique two (comingIn_congr listed) clean]

end Runs

/-- From every session. -/
theorem inbox_settles {ρ : Type} (session : DMSession ρ) (sound : state.Sound) :
    (∀ call event next acts, sendDM session state call = some (event, next) →
      Alone session state call event acts →
        (copies session (run session next acts) call event).length = 1) ∧
    ∀ acts others, (∀ act, act ∈ acts ↔ act ∈ others) →
      Agreeing state (messages session acts) →
      CleanCut Entry.age state.caps
        (strangers state.followSet (comingIn state (messages session acts))) →
      ∀ partner msg, msg ∈ (run session state acts).thread partner ↔
        msg ∈ (run session state others).thread partner :=
  ⟨fun _ _ _ _ sent alone => copies_once sound sent alone,
    fun _ _ same agreeing clean partner msg => threads_agree sound same agreeing clean partner msg⟩

def anEvent (id : String) (pubkey partner : Pubkey) : NostrEvent where
  kind := KIND_NIP04_DM
  createdAt := 7
  tags := [["p", partner]]
  content := "ih"
  id := id
  pubkey := pubkey

def aWrap (id : String) (recipient : Pubkey) : NostrEvent where
  kind := 1059
  createdAt := 3
  tags := [["p", recipient]]
  content := "wrap"
  id := id
  pubkey := "ephemeral"

/-- The session of `a`, who can open two wraps: one of its own message to itself, and one that `b`
put its NIP-04 event `4` in. -/
def aSession : DMSession Unit where
  myPubkey := "a"
  signer := {
    getPublicKey := "a"
    signEvent := fun template => some { template with id := "1", pubkey := "a" }
    nip04Encrypt := some fun _ _ plaintext => if plaintext = "hi" then some "ih" else none
    nip04Decrypt := some fun _ ciphertext => if ciphertext = "ih" then some "hi" else none
    sealAndGiftWrap := fun _ recipient _ => some (aWrap "2" recipient)
    unwrapGiftWrap := fun event =>
      if event.tags = [["p", "a"]] then
        if event.id = "2" then
          some ({ buildChatMessage "a" "a" "hi" 7 with id := "3" }, "a")
        else if event.id = "5" then some ({ anEvent "4" "b" "a" with }, "b")
        else none
      else none }

def aCall (scheme : Scheme) (partner : Pubkey) : SendDM Unit where
  partnerPubkey := partner
  content := "hi"
  scheme := scheme
  random := ()
  builtAt := 7
  sentAt := 8

/-- Two messages of `b`, one of them twice, and those of a call, whose event comes back. -/
theorem inbox_settles_echo :
    (copies aSession (run aSession (SessionState.fresh.ingestMessage
      (localMsg aSession (aCall .nip04 "b") (anEvent "1" "a" "b")))
      [.receive (.nip04 (anEvent "1" "a" "b")), .receive (.nip04 (anEvent "1" "a" "b"))])
      (aCall .nip04 "b") (anEvent "1" "a" "b")).length = 1 ∧
    (localMsg aSession (aCall .nip04 "b") (anEvent "6" "a" "b") ∈
      (run aSession .fresh [.receive (.nip04 (anEvent "4" "b" "a")),
        .receive (.nip04 (anEvent "6" "b" "a"))]).thread "b" ↔
    localMsg aSession (aCall .nip04 "b") (anEvent "6" "a" "b") ∈
      (run aSession .fresh [.receive (.nip04 (anEvent "6" "b" "a")),
        .receive (.nip04 (anEvent "4" "b" "a")),
        .receive (.nip04 (anEvent "6" "b" "a"))]).thread "b") := by
  have sound : SessionState.fresh.Sound := SessionState.fresh_consistent.toSound
  have settles := inbox_settles aSession sound
  constructor
  · refine settles.1 (aCall .nip04 "b") (anEvent "1" "a" "b") _ _ rfl ⟨?_, ?_, ?_⟩
    · intro id _ absurd
      cases absurd
    · intro act member msg made named
      have read : act = .receive (.nip04 (anEvent "1" "a" "b")) := by simpa using member
      rw [read] at made
      cases made
      rfl
    · intro evictable
      cases evictable
  · refine settles.2 _ _ (fun act => ?_) ⟨?_, ?_⟩ ?_ "b" _
    · simp
      tauto
    · decide
    · intro entry absurd
      cases absurd
    · intro cap absurd
      cases absurd

/-- A message to oneself is held twice once its wrap comes back, and of two events that are read
under one id the one that is read first is held. -/
theorem sent_twice :
    (∃ event next, sendDM aSession .fresh (aCall .nip17 "a") = some (event, next) ∧
      (copies aSession (run aSession next [.receive (.giftWrap event)]) (aCall .nip17 "a")
        event).length = 2) ∧
    ((run aSession .fresh [.receive (.nip04 (anEvent "4" "b" "a")),
      .receive (.giftWrap (aWrap "5" "a"))]).thread "b").map DMMessage.content = ["hi"] ∧
    ((run aSession .fresh [.receive (.giftWrap (aWrap "5" "a")),
      .receive (.nip04 (anEvent "4" "b" "a"))]).thread "b").map DMMessage.content = ["ih"] := by
  refine ⟨⟨_, _, rfl, ?_⟩, ?_, ?_⟩
  · decide
  · decide
  · decide

end Inbox

end NostrWot.Dm
