import NostrWot.Data.Numeral
import NostrWot.Data.Trim
import NostrWot.Feed.Observable
import NostrWot.Sync.Run
import Mathlib.Order.Basic

namespace NostrWot.Feed.Profile

open NostrWot.Data NostrWot.Sync

/-! # Profiles

The profile of one author in the cache and in storage, under reads, background refreshes and
what relays deliver to them.
-/

structure ProfileEntry where
  pubkey : Units
  displayName : Option Units
  name : Option Units
  picture : Option Units
  banner : Option Units
  about : Option Units
  nip05 : Option Units
  lud16 : Option Units
  website : Option Units
  fetchedAt : Nat
  deriving DecidableEq

/-- A kind-0 event; `τ` are the times that events are created at. -/
structure Metadata (τ : Type) where
  pubkey : Units
  created_at : τ
  content : Units

def str (value : Option Json) : Option Units :=
  match value with
  | some (.text said) => if Units.trim said = [] then none else some (Units.trim said)
  | _ => none

variable {τ : Type}

/-- What an event says; the members of `null` cannot be read. -/
def parseKind0 (event : Metadata τ) (now : Nat) : Except Fault ProfileEntry :=
  let parsed := (Json.parse event.content).getD (.object [])
  if parsed.isNull then .error .typeError
  else .ok {
    pubkey := event.pubkey
    displayName := (str (parsed.field "display_name")).or (str (parsed.field "displayName"))
    name := str (parsed.field "name")
    picture := (str (parsed.field "picture")).or (str (parsed.field "image"))
    banner := str (parsed.field "banner")
    about := str (parsed.field "about")
    nip05 := str (parsed.field "nip05")
    lud16 := str (parsed.field "lud16")
    website := str (parsed.field "website")
    fetchedAt := now }

def equalProfile (left right : ProfileEntry) : Bool :=
  left.pubkey = right.pubkey && left.displayName = right.displayName && left.name = right.name &&
    left.picture = right.picture && left.banner = right.banner && left.about = right.about &&
    left.nip05 = right.nip05 && left.lud16 = right.lud16

/-- A subscription of a refresh: the newest event that it took, and whether one was shown. -/
structure Stream (τ : Type) where
  newest : Option (Metadata τ)
  last : Bool

structure Session (τ : Type) where
  store : Slots Units ProfileEntry
  /-- The stored profile, with the time it was written. -/
  persisted : Option (ProfileEntry × Nat)
  streams : List (Stream τ)
  flight : Option Nat
  /-- What the subscribers of the profile were last told. -/
  told : Option ProfileEntry
  /-- The event that the stored profile was read from at the start. -/
  origin : Option (Metadata τ)
  received : List (Metadata τ)

namespace Session

variable (ttl : Nat) (pubkey : Units)

def shown (session : Session τ) : Option ProfileEntry := (session.store.slot pubkey).value

/-- The events delivered or persisted so far. -/
def seen (session : Session τ) : List (Metadata τ) := session.received ++ session.origin.toList

def tell (session : Session τ) (change : Slots Units ProfileEntry × Option (Slot ProfileEntry)) :
    Session τ :=
  { session with
    store := change.1
    told :=
      match change.2 with
      | none => session.told
      | some slot => slot.value }

def refreshProfile (session : Session τ) : Session τ :=
  if session.flight.isSome then session
  else { session with
    streams := session.streams ++ [⟨none, false⟩]
    flight := some session.streams.length }

def readPersisted (now : Nat) (session : Session τ) : Option ProfileEntry × Session τ :=
  match session.persisted with
  | none => (none, session)
  | some (entry, written) =>
    if written + ttl < now then (none, { session with persisted := none })
    else (some entry, session)

def getProfile (now : Nat) (session : Session τ) : Session τ :=
  if (session.shown pubkey).isSome then session
  else
    let read := session.readPersisted ttl now
    match read.1 with
    | some entry => (read.2.tell (read.2.store.put equalProfile now pubkey entry)).refreshProfile
    | none => (read.2.tell (read.2.store.setStatus pubkey .loading)).refreshProfile

def onUpdate (entry : ProfileEntry) (now : Nat) (stored : Bool) (session : Session τ) : Session τ :=
  let session := session.tell (session.store.put equalProfile now pubkey entry)
  if stored then { session with persisted := some (entry, now) } else session

end Session

def Stream.takes [LT τ] [DecidableLT τ] (stream : Stream τ) (event : Metadata τ) : Bool :=
  stream.newest.all fun newest => newest.created_at < event.created_at

inductive Move (τ : Type) where
  | read (now : Nat)
  /-- A stream is delivered an event; `stored` says whether storage takes what is written. -/
  | receive (stream : Nat) (event : Metadata τ) (now : Nat) (stored : Bool)
  | settle (stream : Nat)
  | ceiling (stream : Nat)

namespace Session

variable (ttl : Nat) (pubkey : Units)

def onevent [LT τ] [DecidableLT τ] (index : Nat) (stream : Stream τ) (event : Metadata τ)
    (now : Nat) (stored : Bool) (session : Session τ) : Session τ :=
  let session := { session with received := event :: session.received }
  if stream.takes event then
    match parseKind0 event now with
    | .error _ =>
      { session with streams := session.streams.set index { stream with newest := some event } }
    | .ok entry =>
      onUpdate pubkey entry now stored
        { session with streams := session.streams.set index ⟨some event, true⟩ }
  else session

/-- The promise of a refresh settles. -/
def land (index : Nat) (session : Session τ) : Session τ :=
  if session.flight = some index then { session with flight := none } else session

def step [LT τ] [DecidableLT τ] (session : Session τ) : Move τ → Option (Session τ)
  | .read now => some (session.getProfile ttl pubkey now)
  | .receive index event now stored =>
    session.streams[index]?.map fun stream => session.onevent pubkey index stream event now stored
  | .settle index => some (session.land index)
  | .ceiling index => session.streams[index]?.map fun stream =>
    let session := session.land index
    if stream.last then session else session.tell (session.store.setStatus pubkey .error)

end Session

/-! ## What is newest -/

def ParseOf (event : Metadata τ) (entry : ProfileEntry) : Prop :=
  ∃ now, parseKind0 event now = .ok entry

structure Stored (τ : Type) where
  event : Metadata τ
  entry : ProfileEntry
  written : Nat
  parsed : ParseOf event entry

def Session.start (stored : Option (Stored τ)) : Session τ where
  store := ∅
  persisted := stored.map fun stored => (stored.entry, stored.written)
  streams := []
  flight := none
  told := none
  origin := stored.map Stored.event
  received := []

section Newest

variable [LinearOrder τ]

def Newest (events : List (Metadata τ)) (entry : ProfileEntry) : Prop :=
  ∃ event ∈ events, (∀ other ∈ events, other.created_at ≤ event.created_at) ∧ ParseOf event entry

/-- What is shown and what is stored is what the newest event says, nothing being shown only as
long as nothing was delivered. -/
structure Faithful (pubkey : Units) (session : Session τ) : Prop where
  shown : ∀ entry, session.shown pubkey = some entry → Newest session.seen entry
  told : session.told = session.shown pubkey
  visible : session.received ≠ [] → session.shown pubkey ≠ none
  persisted : ∀ entry written, session.persisted = some (entry, written) → Newest session.seen entry

def Newer (session : Session τ) (event : Metadata τ) : Prop :=
  ∀ other ∈ session.seen, other.created_at < event.created_at

/-- Where a stream takes an event, none is newer; and if it is newer than all, it can be parsed,
it does not differ from the shown profile in its website alone, and it is stored. -/
structure Admitted (pubkey : Units) (session : Session τ) (event : Metadata τ) (now : Nat)
    (stored : Bool) : Prop where
  fresh : ∀ other ∈ session.seen, other.created_at ≤ event.created_at
  parses : Newer session event ∨ session.shown pubkey = none → ∃ entry, parseKind0 event now = .ok entry
  website : Newer session event → ∀ old entry, session.shown pubkey = some old →
    parseKind0 event now = .ok entry → equalProfile old entry = true → old.website = entry.website
  stored : Newer session event → stored = true ∨ session.persisted = none

def Allowed (pubkey : Units) (session : Session τ) : Move τ → Prop
  | .receive index event now stored => ∀ stream, session.streams[index]? = some stream →
      stream.takes event = true → Admitted pubkey session event now stored
  | _ => True

end Newest

/-! ## Entries -/

theorem equalProfile_iff {left right : ProfileEntry} : equalProfile left right = true ↔
    { left with website := right.website, fetchedAt := right.fetchedAt } = right := by
  cases left
  cases right
  simp [equalProfile, and_assoc]

theorem parseKind0_later {event : Metadata τ} {now : Nat} {entry : ProfileEntry}
    (parsed : parseKind0 event now = .ok entry) (later : Nat) :
    parseKind0 event later = .ok { entry with fetchedAt := later } := by
  simp only [parseKind0] at parsed ⊢
  split at parsed
  · cases parsed
  · next filled =>
    rw [if_neg filled]
    cases parsed
    rfl

theorem parseOf_equal {event : Metadata τ} {now : Nat} {old entry : ProfileEntry}
    (parsed : parseKind0 event now = .ok entry) (alike : equalProfile old entry = true)
    (website : old.website = entry.website) : ParseOf event old := by
  have same : old = { entry with fetchedAt := old.fetchedAt } := by
    rw [← equalProfile_iff.mp alike, ← website]
  exact ⟨old.fetchedAt, by rw [same]; exact parseKind0_later parsed _⟩

/-! ## The store -/

namespace Session

variable {ttl : Nat} {pubkey : Units} {session : Session τ}

theorem shown_put (session : Session τ) (now : Nat) (entry : ProfileEntry) :
    let after := session.tell (session.store.put equalProfile now pubkey entry)
    (session.told = session.shown pubkey → after.told = after.shown pubkey) ∧
      ((∃ old, session.shown pubkey = some old ∧ equalProfile old entry = true ∧
          after.shown pubkey = some old) ∨ after.shown pubkey = some entry) := by
  rcases Slots.put_cases session.store equalProfile now pubkey entry with
    ⟨old, held, alike, silent, changed⟩ | ⟨_, told, changed⟩
  · have kept : (session.tell (session.store.put equalProfile now pubkey entry)).shown pubkey =
        some old := by
      simp [shown, tell, changed]
    constructor
    · intro before
      rw [kept]
      simp only [tell, silent]
      rw [before]
      exact held
    · exact .inl ⟨old, held, alike, kept⟩
  · have replaced : (session.tell (session.store.put equalProfile now pubkey entry)).shown pubkey =
        some entry := by
      simp [shown, tell, changed]
    constructor
    · intro _
      rw [replaced]
      simp only [tell, told]
    · exact .inr replaced

theorem shown_setStatus (session : Session τ) (status : SlotStatus) :
    let after := session.tell (session.store.setStatus pubkey status)
    after.shown pubkey = session.shown pubkey ∧ after.told = session.shown pubkey := by
  simp [shown, tell, Slots.setStatus]

end Session

section Steps

variable [LinearOrder τ] {ttl : Nat} {pubkey : Units} {session : Session τ}

/-- An invariant of every run: the profile, and what each stream has taken was delivered. -/
structure Sound (pubkey : Units) (session : Session τ) : Prop where
  faithful : Faithful pubkey session
  taken : ∀ stream ∈ session.streams, ∀ event, stream.newest = some event → event ∈ session.received

theorem Sound.refreshProfile (sound : Sound pubkey session) :
    Sound pubkey session.refreshProfile := by
  rw [Session.refreshProfile]
  split
  · exact sound
  · refine ⟨⟨sound.faithful.shown, sound.faithful.told, sound.faithful.visible,
      sound.faithful.persisted⟩, ?_⟩
    intro stream member event held
    rcases List.mem_append.mp member with before | new
    · exact sound.taken stream before event held
    · rw [List.mem_singleton.mp new] at held
      cases held

theorem Sound.readPersisted (sound : Sound pubkey session) (now : Nat) :
    Sound pubkey (session.readPersisted ttl now).2 ∧
      ∀ entry, (session.readPersisted ttl now).1 = some entry → Newest session.seen entry := by
  rw [Session.readPersisted]
  cases stored : session.persisted with
  | none =>
    refine ⟨sound, ?_⟩
    intro entry read
    cases read
  | some both =>
    dsimp only
    split
    · refine ⟨⟨⟨sound.faithful.shown, sound.faithful.told, sound.faithful.visible, ?_⟩, sound.taken⟩, ?_⟩
      · intro entry written held
        cases held
      · intro entry read
        cases read
    · refine ⟨sound, ?_⟩
      intro entry read
      cases read
      exact sound.faithful.persisted both.1 both.2 stored

theorem Sound.setStatus (sound : Sound pubkey session) (status : SlotStatus) :
    Sound pubkey (session.tell (session.store.setStatus pubkey status)) := by
  have kept := @Session.shown_setStatus τ pubkey session status
  refine ⟨⟨?_, kept.2.trans kept.1.symm, ?_, sound.faithful.persisted⟩, sound.taken⟩
  · rw [kept.1]
    exact sound.faithful.shown
  · rw [kept.1]
    exact sound.faithful.visible

theorem Sound.put {entry : ProfileEntry} (sound : Sound pubkey session)
    (newest : Newest session.seen entry) (now : Nat) :
    Sound pubkey (session.tell (session.store.put equalProfile now pubkey entry)) := by
  obtain ⟨told, shown⟩ := @Session.shown_put τ pubkey session now entry
  refine ⟨⟨?_, told sound.faithful.told, ?_, sound.faithful.persisted⟩, sound.taken⟩
  · intro other held
    rcases shown with ⟨old, before, _, after⟩ | after
    · rw [after] at held
      exact Option.some.inj held ▸ sound.faithful.shown old before
    · rw [after] at held
      cases held
      exact newest
  · intro _
    rcases shown with ⟨old, _, _, after⟩ | after
    · rw [after]
      simp
    · rw [after]
      simp

theorem Sound.getProfile (sound : Sound pubkey session) (now : Nat) :
    Sound pubkey (session.getProfile ttl pubkey now) := by
  rw [Session.getProfile]
  split
  · exact sound
  · have read := @Sound.readPersisted τ _ ttl pubkey session sound now
    dsimp only
    split
    · next entry found =>
      apply Sound.refreshProfile
      apply read.1.put
      have same : (session.readPersisted ttl now).2.seen = session.seen := by
        rw [Session.readPersisted]
        split
        · rfl
        · split <;> rfl
      rw [same]
      exact read.2 entry found
    · exact (read.1.setStatus .loading).refreshProfile

theorem Sound.land (sound : Sound pubkey session) (index : Nat) :
    Sound pubkey (session.land index) := by
  rw [Session.land]
  split
  · exact ⟨⟨sound.faithful.shown, sound.faithful.told, sound.faithful.visible,
      sound.faithful.persisted⟩, sound.taken⟩
  · exact sound

theorem newest_cons {events : List (Metadata τ)} {entry : ProfileEntry} {event other : Metadata τ}
    (newest : Newest events entry) (member : other ∈ events)
    (older : event.created_at ≤ other.created_at) : Newest (event :: events) entry := by
  obtain ⟨first, inside, above, parsed⟩ := newest
  refine ⟨first, List.mem_cons_of_mem _ inside, ?_, parsed⟩
  intro each among
  rcases List.mem_cons.mp among with rfl | before
  · exact le_trans older (above other member)
  · exact above each before

theorem newest_of_parse {events : List (Metadata τ)} {entry : ProfileEntry} {event : Metadata τ}
    (fresh : ∀ other ∈ events, other.created_at ≤ event.created_at) (parsed : ParseOf event entry) :
    Newest (event :: events) entry := by
  refine ⟨event, List.mem_cons_self, ?_, parsed⟩
  intro each among
  rcases List.mem_cons.mp among with rfl | before
  · exact le_refl _
  · exact fresh each before

theorem exists_of_not_newer {event : Metadata τ} (other : ¬ Newer session event) :
    ∃ other ∈ session.seen, event.created_at ≤ other.created_at := by
  rw [Newer] at other
  push Not at other
  exact other

theorem Sound.taken_set (sound : Sound pubkey session) {event : Metadata τ} {index : Nat}
    {last : Bool} : ∀ stream ∈ session.streams.set index ⟨some event, last⟩, ∀ other,
      stream.newest = some other → other ∈ event :: session.received := by
  intro stream member other held
  rcases List.mem_or_eq_of_mem_set member with before | new
  · exact List.mem_cons_of_mem _ (sound.taken stream before other held)
  · rw [new] at held
    cases held
    exact List.mem_cons_self

theorem Sound.receive_old (sound : Sound pubkey session) {stream : Stream τ} {event : Metadata τ}
    (open_ : stream ∈ session.streams) (old : stream.takes event = false) :
    Sound pubkey { session with received := event :: session.received } := by
  have known : ∃ other, stream.newest = some other ∧ event.created_at ≤ other.created_at := by
    rw [Stream.takes] at old
    cases newest : stream.newest with
    | none => simp [newest] at old
    | some other => exact ⟨other, rfl, by simpa [newest] using old⟩
  obtain ⟨other, newest, older⟩ := known
  have received := sound.taken stream open_ other newest
  have member : other ∈ session.seen := List.mem_append_left _ received
  refine ⟨⟨?_, sound.faithful.told, ?_, ?_⟩, ?_⟩
  · intro entry held
    exact newest_cons (sound.faithful.shown entry held) member older
  · intro _
    exact sound.faithful.visible (List.ne_nil_of_mem received)
  · intro entry written held
    exact newest_cons (sound.faithful.persisted entry written held) member older
  · intro stream member event held
    exact List.mem_cons_of_mem _ (sound.taken stream member event held)

theorem Sound.receive_new (sound : Sound pubkey session) {index now : Nat} {stream : Stream τ}
    {event : Metadata τ} {stored : Bool} (takes : stream.takes event = true)
    (admitted : Admitted pubkey session event now stored) :
    Sound pubkey (session.onevent pubkey index stream event now stored) := by
  have tie : ¬ Newer session event → ∀ entry, Newest session.seen entry →
      Newest (event :: session.seen) entry := by
    intro other entry newest
    obtain ⟨first, member, older⟩ := exists_of_not_newer other
    exact newest_cons newest member older
  simp only [Session.onevent, takes, if_true]
  cases parsed : parseKind0 event now with
  | error fault =>
    have unread : ¬ ∃ entry, parseKind0 event now = .ok entry := by
      rw [parsed]
      rintro ⟨entry, same⟩
      cases same
    have neither := fun holds => unread (admitted.parses holds)
    have old : ¬ Newer session event := fun newer => neither (.inl newer)
    refine ⟨⟨?_, sound.faithful.told, ?_, ?_⟩, sound.taken_set⟩
    · intro entry held
      exact tie old entry (sound.faithful.shown entry held)
    · intro _ none_
      exact neither (.inr none_)
    · intro entry written held
      exact tie old entry (sound.faithful.persisted entry written held)
  | ok entry =>
    have newest : Newest (event :: session.seen) entry := newest_of_parse admitted.fresh ⟨now, parsed⟩
    obtain ⟨told, shown⟩ := @Session.shown_put τ pubkey
      { session with
        received := event :: session.received
        streams := session.streams.set index ⟨some event, true⟩ } now entry
    have showing : ∀ other, ((({ session with
        received := event :: session.received
        streams := session.streams.set index ⟨some event, true⟩ } : Session τ).tell
          (session.store.put equalProfile now pubkey entry)).shown pubkey = some other →
        Newest (event :: session.seen) other) := by
      intro other held
      rcases shown with ⟨old, before, alike, after⟩ | after
      · have same : old = other := Option.some.inj (after.symm.trans held)
        subst same
        by_cases newer : Newer session event
        · exact newest_of_parse admitted.fresh
            (parseOf_equal parsed alike (admitted.website newer old entry before parsed alike))
        · exact tie newer old (sound.faithful.shown old before)
      · have same : entry = other := Option.some.inj (after.symm.trans held)
        exact same ▸ newest
    have filled : (({ session with
        received := event :: session.received
        streams := session.streams.set index ⟨some event, true⟩ } : Session τ).tell
          (session.store.put equalProfile now pubkey entry)).shown pubkey ≠ none := by
      rcases shown with ⟨old, _, _, after⟩ | after
      · rw [after]
        simp
      · rw [after]
        simp
    simp only [Session.onUpdate]
    cases stored with
    | true =>
      refine ⟨⟨showing, told sound.faithful.told, fun _ => filled, ?_⟩, sound.taken_set⟩
      intro other written held
      cases held
      exact newest
    | false =>
      refine ⟨⟨showing, told sound.faithful.told, fun _ => filled, ?_⟩, sound.taken_set⟩
      intro other written held
      by_cases newer : Newer session event
      · rcases admitted.stored newer with absurd_ | none_
        · cases absurd_
        · have held : session.persisted = some (other, written) := held
          rw [none_] at held
          cases held
      · exact tie newer other (sound.faithful.persisted other written held)

theorem Sound.step {move : Move τ} {next : Session τ} (sound : Sound pubkey session)
    (allowed : Allowed pubkey session move) (stepped : session.step ttl pubkey move = some next) :
    Sound pubkey next := by
  cases move with
  | read now =>
    cases stepped
    exact sound.getProfile now
  | receive index event now stored =>
    obtain ⟨stream, at_, rfl⟩ := Option.map_eq_some_iff.mp stepped
    by_cases takes : stream.takes event = true
    · exact sound.receive_new takes (allowed stream at_ takes)
    · rw [Bool.not_eq_true] at takes
      simp only [Session.onevent, takes, Bool.false_eq_true, if_false]
      exact sound.receive_old (List.mem_of_getElem? at_) takes
  | settle index =>
    cases stepped
    exact sound.land index
  | ceiling index =>
    obtain ⟨stream, at_, rfl⟩ := Option.map_eq_some_iff.mp stepped
    dsimp only
    split
    · exact sound.land index
    · exact (sound.land index).setStatus .error

theorem Sound.start (stored : Option (Stored τ)) : Sound pubkey (Session.start stored) := by
  refine ⟨⟨?_, rfl, ?_, ?_⟩, ?_⟩
  · intro entry held
    cases held
  · intro received
    exact absurd rfl received
  · intro entry written held
    cases stored with
    | none => cases held
    | some stored =>
      cases held
      refine ⟨stored.event, List.mem_singleton_self _, ?_, stored.parsed⟩
      intro other member
      rw [List.mem_singleton.mp member]
  · intro stream member
    cases member

end Steps

/-- In every run in which streams take events as they should, the profile that is shown and the
one that is stored are what the newest event says. -/
theorem profile_newest [LinearOrder τ] {ttl : Nat} {pubkey : Units} {stored : Option (Stored τ)}
    {session : Session τ} (reaches : Reaches (Session.step ttl pubkey) (Allowed pubkey)
      (Session.start stored) session) : Faithful pubkey session :=
  (reaches.invariant (Sound.start stored) fun _ _ _ sound allowed stepped =>
    sound.step allowed stepped).faithful

/-! ## A stale answer -/

def author : Units := Units.ofString "author"

/-- An event that says nothing. -/
def blank : Metadata Nat := ⟨author, 1, []⟩

/-- A read, and its refresh is answered. -/
def answered (stored : Option (Stored Nat)) : Session Nat :=
  ((Session.start stored).getProfile 10 author 0).onevent author 0 ⟨none, false⟩ blank 1 true

theorem profile_newest_blank : Faithful author (answered none) := by
  have admitted : Allowed author ((Session.start none).getProfile 10 author 0)
      (.receive 0 blank 1 true) := by
    intro stream _ _
    constructor
    · intro other among
      cases among
    · intro _
      exact ⟨_, rfl⟩
    · intro _ old entry held
      cases held
    · intro _
      exact .inl rfl
  exact @profile_newest Nat _ 10 author none (answered none)
    (.step (.receive 0 blank 1 true) (.step (.read 0) .refl trivial rfl) admitted rfl)

def namedText : Units := Units.ofString "\x7b\"name\":\"a\"\x7d"

/-- A profile from a newer event. -/
def stored : Stored Nat where
  event := ⟨author, 2, namedText⟩
  entry := ⟨author, none, some (Units.ofString "a"), none, none, none, none, none, none, 0⟩
  written := 0
  parsed := by
    have unique : JsonValue.Unique
        (.object [(Units.ofString "name", .text (Units.ofString "a"))] : Json) :=
      ⟨by decide, trivial, trivial⟩
    have written : JsonValue.stringify Numeral.format
        (.object [(Units.ofString "name", .text (Units.ofString "a"))]) = namedText := by
      decide
    have parsed : Json.parse namedText =
        some (.object [(Units.ofString "name", .text (Units.ofString "a"))]) := by
      rw [Json.parse, ← written, JsonValue.parse_stringify Numeral.format ⟨_, unique⟩]
      rfl
    refine ⟨0, ?_⟩
    simp only [parseKind0, parsed, Option.getD_some, Json.isNull, Bool.false_eq_true, if_false]
    rfl

/-- A refresh puts what an older event says in the place of a newer profile. -/
theorem stale_shown :
    exec (Session.step 10 author) (Session.start (some stored)) [.read 0, .receive 0 blank 1 true] =
        some (answered (some stored)) ∧
      ((Session.start (some stored)).getProfile 10 author 0).shown author = some stored.entry ∧
      (answered (some stored)).shown author =
        some ⟨author, none, none, none, none, none, none, none, none, 1⟩ ∧
      (answered (some stored)).persisted =
        some (⟨author, none, none, none, none, none, none, none, none, 1⟩, 1) ∧
      stored.event ∈ (answered (some stored)).seen ∧
      blank.created_at < stored.event.created_at ∧
      stored.entry.name ≠ none := by
  refine ⟨rfl, by decide, by decide, by decide, ?_, by decide, by decide⟩
  exact List.mem_cons_of_mem _ List.mem_cons_self

end NostrWot.Feed.Profile
