import NostrWot.Feed.Observable
import NostrWot.Sync.Run
import Mathlib.Data.Finset.Card
import Mathlib.Data.List.Pairwise
import Mathlib.Data.List.Sort

namespace NostrWot.Feed.Notes

open NostrWot.Data NostrWot.Sync

/-! # The notes of an author

The entry of one author, filled by a first page and by further ones, while relays deliver their
answers.
-/

structure NoteEntry where
  id : String
  pubkey : String
  content : String
  createdAt : Int
  tags : List (List String)
  deriving DecidableEq

structure AuthorNotesEntry where
  pubkey : String
  noteIds : List String
  oldestCreatedAt : Option Int
  fetchedAt : Nat

/-- A first page on its way, under its limit. -/
structure Getting where
  limit : Nat
  /-- What the relays have still to deliver. -/
  awaited : List NoteEntry
  /-- In the order they came; a note is passed on once. -/
  collected : List NoteEntry

/-- A further page on its way, under the time it goes on from. -/
structure LoadingMore where
  /-- The entry that the call found. -/
  current : AuthorNotesEntry
  since : Int
  awaited : List NoteEntry
  merged : List String
  oldest : Int

structure Session where
  slot : Slot AuthorNotesEntry
  gets : List Getting
  mores : List LoadingMore

namespace Session

def fresh : Session := ⟨.EMPTY, [], []⟩

def set (session : Session) (entry : AuthorNotesEntry) (now : Nat) : Session :=
  { session with slot := ⟨some entry, .fresh, now⟩ }

end Session

def newestFirst (notes : List NoteEntry) : List NoteEntry :=
  notes.insertionSort fun left right => right.createdAt ≤ left.createdAt

def buildEntry (pubkey : String) (collected : List NoteEntry) (limit now : Nat) :
    AuthorNotesEntry :=
  let sorted := (newestFirst collected).take limit
  { pubkey := pubkey
    noteIds := sorted.map NoteEntry.id
    oldestCreatedAt := sorted.getLast?.map NoteEntry.createdAt
    fetchedAt := now }

section Code

variable (pubkey : String)

/-- `answers` is what the relays send if they are asked. -/
def getAuthorNotes (limit : Nat) (answers : List (List NoteEntry)) (session : Session) : Session :=
  if session.slot.value.any fun cached => limit ≤ cached.noteIds.length then session
  else
    let loading := { session with slot := { session.slot with status := .loading } }
    if session.gets.any fun flight => flight.limit = limit then loading
    else { loading with gets := session.gets ++ [⟨limit, answers.flatten, []⟩] }

def loadMoreAuthorNotes (count : Nat) (answers : List (List NoteEntry)) (session : Session) :
    Session :=
  match session.slot.value with
  | none => getAuthorNotes count answers session
  | some current =>
    match current.oldestCreatedAt with
    | none => getAuthorNotes count answers session
    | some oldest =>
      if session.mores.any fun flight => flight.since = oldest then session
      else { session with
        mores := session.mores ++
          [⟨current, oldest, answers.flatten, current.noteIds, oldest⟩] }

def Getting.onEvent (flight : Getting) (note : NoteEntry) (now : Nat) (session : Session) : Session :=
  let awaited := flight.awaited.erase note
  let collected := if note.id ∈ flight.collected.map NoteEntry.id then flight.collected
    else flight.collected ++ [note]
  let session : Session := { session with
    gets := session.gets.map fun other =>
      if other.limit = flight.limit then ⟨flight.limit, awaited, collected⟩ else other }
  if note.id ∈ flight.collected.map NoteEntry.id then session
  else session.set (buildEntry pubkey collected flight.limit now) now

/-- A note of a further page. -/
def LoadingMore.onEvent (flight : LoadingMore) (note : NoteEntry) (now : Nat) (session : Session) :
    Session :=
  let awaited := flight.awaited.erase note
  if note.id ∈ flight.merged then
    { session with
      mores := session.mores.map fun other =>
        if other.since = flight.since then { flight with awaited := awaited } else other }
  else
    let merged := flight.merged ++ [note.id]
    let oldest := if note.createdAt < flight.oldest then note.createdAt else flight.oldest
    let session : Session := { session with
      mores := session.mores.map fun other =>
        if other.since = flight.since then
          { flight with awaited := awaited, merged := merged, oldest := oldest }
        else other }
    session.set ⟨pubkey, merged, some oldest, now⟩ now

inductive Move where
  | getAuthorNotes (limit : Nat) (answers : List (List NoteEntry))
  | loadMoreAuthorNotes (count : Nat) (answers : List (List NoteEntry))
  | gotNote (limit : Nat) (note : NoteEntry) (now : Nat)
  /-- A note of the page that goes on from this time is delivered. -/
  | moreNote (since : Int) (note : NoteEntry) (now : Nat)
  /-- All relays are done, or the time is up. -/
  | getDone (limit : Nat) (now : Nat)
  | moreDone (since : Int)

def step (session : Session) : Move → Option Session
  | .getAuthorNotes limit answers => some (getAuthorNotes limit answers session)
  | .loadMoreAuthorNotes count answers => some (loadMoreAuthorNotes count answers session)
  | .gotNote limit note now => do
      let flight ← session.gets.find? fun flight => flight.limit = limit
      if note ∈ flight.awaited then some (flight.onEvent pubkey note now session) else none
  | .moreNote since note now => do
      let flight ← session.mores.find? fun flight => flight.since = since
      if note ∈ flight.awaited then some (flight.onEvent pubkey note now session) else none
  | .getDone limit now => do
      let flight ← session.gets.find? fun flight => flight.limit = limit
      let session := { session with gets := session.gets.filter fun other => other.limit ≠ limit }
      some (session.set (buildEntry pubkey flight.collected limit now) now)
  | .moreDone since => do
      let _ ← session.mores.find? fun flight => flight.since = since
      some { session with mores := session.mores.filter fun other => other.since ≠ since }

end Code

/-! ## What relays answer -/

def notAfter (latest : Option Int) (note : NoteEntry) : Prop :=
  ∀ time, latest = some time → note.createdAt ≤ time

structure Answers (limit : Nat) (latest : Option Int) (held answer : List NoteEntry) : Prop where
  within : ∀ note ∈ answer, note ∈ held ∧ notAfter latest note
  distinct : answer.Nodup
  limited : answer.length ≤ limit
  newest : ∀ note ∈ held, notAfter latest note → note ∉ answer →
    answer.length = limit ∧ ∀ sent ∈ answer, note.createdAt ≤ sent.createdAt

def Answered (world : List (List NoteEntry)) (limit : Nat) (latest : Option Int)
    (answers : List (List NoteEntry)) : Prop :=
  ∃ asked, asked ⊆ world ∧ List.Forall₂ (Answers limit latest) asked answers

def Below (answered : List NoteEntry) (note : NoteEntry) : Prop :=
  answered ≠ [] ∧ ∀ sent ∈ answered, note.createdAt < sent.createdAt

/-- A first page has a clean cut: every note is answered and among the newest, or is older than as
many of those answered as are listed. -/
def WholeFirst (world : List (List NoteEntry)) (limit : Nat) (answered : List NoteEntry) : Prop :=
  0 < limit ∧ ∀ note ∈ world.flatten,
    (note ∈ answered ∧
      (answered.toFinset.filter fun sent => note.createdAt ≤ sent.createdAt).card ≤ limit) ∨
    limit ≤ (answered.toFinset.filter fun sent => note.createdAt < sent.createdAt).card ∨
    (answered.toFinset.card ≤ limit ∧ Below answered note)

/-- A further page has a clean cut: every note from `latest` on is answered, or is older than all
that is. -/
def WholeNext (world : List (List NoteEntry)) (latest : Int) (answered : List NoteEntry) : Prop :=
  ∀ note ∈ world.flatten, note.createdAt ≤ latest → note ∈ answered ∨ Below answered note

namespace Session

def Idle (session : Session) : Prop := session.gets = [] ∧ session.mores = []

/-- A first page is asked of the relays, and none is under way. -/
def Opens (session : Session) (limit : Nat) : Prop :=
  (∀ cached, session.slot.value = some cached → cached.noteIds.length < limit) ∧
    ∀ flight ∈ session.gets, flight.limit ≠ limit

def FairGet (world : List (List NoteEntry)) (limit : Nat) (answers : List (List NoteEntry))
    (session : Session) : Prop :=
  session.Opens limit →
    session.Idle ∧ Answered world limit none answers ∧ WholeFirst world limit answers.flatten

end Session

/-- A page is asked for while no other one is under way, it has a clean cut, it is delivered in
full, and a further one newest first. -/
def Fair (world : List (List NoteEntry)) (session : Session) : Move → Prop
  | .getAuthorNotes limit answers => session.FairGet world limit answers
  | .loadMoreAuthorNotes count answers =>
    match session.slot.value.bind AuthorNotesEntry.oldestCreatedAt with
    | none => session.FairGet world count answers
    | some oldest => (∀ flight ∈ session.mores, flight.since ≠ oldest) →
        session.Idle ∧ Answered world count (some (oldest - 1)) answers ∧
          WholeNext world (oldest - 1) answers.flatten
  | .gotNote _ _ _ => True
  | .moreNote since note _ => ∀ flight ∈ session.mores, flight.since = since →
      ∀ other ∈ flight.awaited, other.createdAt ≤ note.createdAt
  | .getDone limit _ => ∀ flight ∈ session.gets, flight.limit = limit → flight.awaited = []
  | .moreDone since => ∀ flight ∈ session.mores, flight.since = since → flight.awaited = []

/-! ## The notes listed -/

/-- The notes down to some time, newest first. -/
structure Lists (world : List (List NoteEntry)) (notes : List NoteEntry) : Prop where
  ordered : notes.Pairwise fun newer older => older.createdAt ≤ newer.createdAt
  distinct : (notes.map NoteEntry.id).Nodup
  known : ∀ note ∈ notes, note ∈ world.flatten
  whole : ∀ note ∈ world.flatten, note ∉ notes → Below notes note

def Listed (world : List (List NoteEntry)) (entry : AuthorNotesEntry) : Prop :=
  ∃ notes, Lists world notes ∧ entry.noteIds = notes.map NoteEntry.id ∧
    entry.oldestCreatedAt = notes.getLast?.map NoteEntry.createdAt

def Complete (world : List (List NoteEntry)) (entry : AuthorNotesEntry) : Prop :=
  ∃ notes : List NoteEntry, entry.noteIds = notes.map NoteEntry.id ∧
    (notes.map NoteEntry.id).Nodup ∧
    (notes.Pairwise fun newer older => older.createdAt ≤ newer.createdAt) ∧
    ∀ note, note ∈ notes ↔ note ∈ world.flatten

def Identified (world : List (List NoteEntry)) : Prop :=
  ∀ one ∈ world.flatten, ∀ two ∈ world.flatten, one.id = two.id → one = two

variable {world : List (List NoteEntry)} {pubkey : String} {session next : Session}
  {limit now : Nat} {answers : List (List NoteEntry)} {answered notes : List NoteEntry}

theorem newestFirst_perm (notes : List NoteEntry) : (newestFirst notes).Perm notes :=
  List.perm_insertionSort _ notes

theorem newestFirst_ordered (notes : List NoteEntry) :
    (newestFirst notes).Pairwise fun newer older => older.createdAt ≤ newer.createdAt := by
  have trans : IsTrans NoteEntry fun left right => right.createdAt ≤ left.createdAt :=
    ⟨fun _ _ _ first second => Int.le_trans second first⟩
  have total : Std.Total fun left right : NoteEntry => right.createdAt ≤ left.createdAt :=
    ⟨fun left right => Int.le_total right.createdAt left.createdAt⟩
  exact List.pairwise_insertionSort _ notes

variable {note : NoteEntry}

theorem take_ordered {sorted : List NoteEntry}
    (ordered : sorted.Pairwise fun newer older => older.createdAt ≤ newer.createdAt)
    (member : note ∈ sorted) (out : note ∉ sorted.take limit) :
    (sorted.take limit).length = limit ∧ ∀ kept ∈ sorted.take limit, note.createdAt ≤ kept.createdAt := by
  have dropped : note ∈ sorted.drop limit := by
    rw [← List.take_append_drop limit sorted, List.mem_append] at member
    exact member.resolve_left out
  constructor
  · have rest := List.length_pos_of_mem dropped
    rw [List.length_drop] at rest
    rw [List.length_take]
    omega
  · rw [← List.take_append_drop limit sorted, List.pairwise_append] at ordered
    exact fun kept held => ordered.2.2 kept held note dropped

theorem Lists.first {collected : List NoteEntry}
    (distinct : (collected.map NoteEntry.id).Nodup)
    (same : ∀ note, note ∈ answered ↔ note ∈ collected)
    (known : ∀ note ∈ answered, note ∈ world.flatten) (whole : WholeFirst world limit answered) :
    Lists world ((newestFirst collected).take limit) := by
  have perm := newestFirst_perm collected
  have ordered := newestFirst_ordered collected
  generalize newestFirst collected = sorted at perm ordered
  have ids : (sorted.map NoteEntry.id).Nodup := (perm.map _).nodup_iff.mpr distinct
  have nodup : sorted.Nodup := ids.of_map _
  have listed : ∀ note, note ∈ sorted ↔ note ∈ answered.toFinset := fun note => by
    rw [perm.mem_iff, List.mem_toFinset, same]
  have inside : ∀ kept ∈ sorted.take limit, kept ∈ answered.toFinset :=
    fun kept held => (listed kept).mp (List.mem_of_mem_take held)
  have card : (sorted.take limit).toFinset.card = (sorted.take limit).length :=
    List.toFinset_card_of_nodup (nodup.sublist (List.take_sublist _ _))
  have total : answered.toFinset.card = sorted.length := by
    rw [← List.toFinset_card_of_nodup nodup]
    congr 1
    ext note
    rw [← listed, List.mem_toFinset]
  refine ⟨ordered.sublist (List.take_sublist _ _), ?_, fun note held => ?_,
    fun note there out => ?_⟩
  · rw [List.map_take]
    exact ids.sublist (List.take_sublist _ _)
  · exact known note (List.mem_toFinset.mp (inside note held))
  · rcases whole.2 note there with ⟨here, few⟩ | many | ⟨small, below⟩
    · -- the newest are listed
      exfalso
      have member := (listed note).mpr (List.mem_toFinset.mpr here)
      obtain ⟨full, newer⟩ := take_ordered ordered member out
      have sub : insert note (sorted.take limit).toFinset ⊆
          answered.toFinset.filter fun sent => note.createdAt ≤ sent.createdAt := by
        intro sent held
        rcases Finset.mem_insert.mp held with is | kept
        · rw [is]
          exact Finset.mem_filter.mpr ⟨List.mem_toFinset.mpr here, Int.le_refl _⟩
        · have kept := List.mem_toFinset.mp kept
          exact Finset.mem_filter.mpr ⟨inside sent kept, newer sent kept⟩
      have more := Finset.card_le_card sub
      rw [Finset.card_insert_of_notMem (by simpa using out), card] at more
      omega
    · -- as many are newer as are listed
      have positive := whole.1
      have above : ∀ kept ∈ sorted.take limit, note.createdAt < kept.createdAt := by
        intro kept held
        by_contra older
        have sub : (answered.toFinset.filter fun sent => note.createdAt < sent.createdAt) ⊆
            (sorted.take limit).toFinset.erase kept := by
          intro sent member
          obtain ⟨sent_in, newer⟩ := Finset.mem_filter.mp member
          refine Finset.mem_erase.mpr ⟨fun is => older (by rwa [is] at newer), ?_⟩
          by_contra missing
          have missing : sent ∉ sorted.take limit := by simpa using missing
          have no_newer := (take_ordered ordered ((listed sent).mpr sent_in) missing).2 kept held
          omega
        have fewer := Finset.card_le_card sub
        rw [Finset.card_erase_of_mem (List.mem_toFinset.mpr held), card, List.length_take] at fewer
        omega
      refine ⟨fun empty => ?_, above⟩
      have some_newer : (answered.toFinset.filter fun sent =>
          note.createdAt < sent.createdAt).card ≤ answered.toFinset.card :=
        Finset.card_filter_le _ _
      have length := congrArg List.length empty
      rw [List.length_take, List.length_nil] at length
      omega
    · refine ⟨fun empty => ?_, fun kept held => ?_⟩
      · have length := congrArg List.length empty
        have positive := whole.1
        have some_answered : 0 < answered.toFinset.card := by
          rw [Finset.card_pos, List.toFinset_nonempty_iff]
          exact below.1
        rw [List.length_take, List.length_nil] at length
        omega
      · exact below.2 kept (List.mem_toFinset.mp (inside kept held))

theorem Lists.further {added : List NoteEntry} {oldest : Int} (lists : Lists world notes)
    (least : ∃ last, notes.getLast? = some last ∧ last.createdAt = oldest)
    (ordered : added.Pairwise fun newer older => older.createdAt ≤ newer.createdAt)
    (distinct : ((notes ++ added).map NoteEntry.id).Nodup)
    (same : ∀ note, note ∈ answered ↔ note ∈ added)
    (known : ∀ note ∈ answered, note ∈ world.flatten ∧ note.createdAt ≤ oldest - 1)
    (whole : WholeNext world (oldest - 1) answered) : Lists world (notes ++ added) := by
  obtain ⟨last, is, time⟩ := least
  have lastMember : last ∈ notes := List.mem_of_getLast? is
  have above : ∀ note ∈ notes, oldest ≤ note.createdAt := by
    intro note member
    obtain ⟨before, split⟩ := List.getLast?_eq_some_iff.mp is
    have sorted := lists.ordered
    rw [split, List.pairwise_append] at sorted
    rw [split] at member
    rcases List.mem_append.mp member with early | final
    · rw [← time]
      exact sorted.2.2 note early last (List.mem_singleton_self _)
    · rw [List.mem_singleton.mp final, time]
  refine ⟨?_, distinct, fun note member => ?_, fun note there out => ?_⟩
  · rw [List.pairwise_append]
    refine ⟨lists.ordered, ordered, fun newer first older second => ?_⟩
    have later := (known older ((same older).mpr second)).2
    have earlier := above newer first
    omega
  · rcases List.mem_append.mp member with old | new
    · exact lists.known note old
    · exact (known note ((same note).mpr new)).1
  · rw [List.mem_append, not_or] at out
    have below := lists.whole note there out.1
    have before := below.2 last lastMember
    rcases whole note there (by omega) with here | under
    · exact absurd ((same note).mp here) out.2
    · refine ⟨fun empty => below.1 (List.append_eq_nil_iff.mp empty).1, fun kept held => ?_⟩
      rcases List.mem_append.mp held with old | new
      · exact below.2 kept old
      · exact under.2 kept ((same kept).mpr new)

/-! ## Runs -/

structure Collecting (world : List (List NoteEntry)) (flight : Getting)
    (answered : List NoteEntry) : Prop where
  distinct : (flight.collected.map NoteEntry.id).Nodup
  all : ∀ note, note ∈ answered ↔ note ∈ flight.collected ∨ note ∈ flight.awaited
  known : ∀ note ∈ answered, note ∈ world.flatten
  whole : WholeFirst world flight.limit answered

/-- A further page on its way: what was `added` comes after what was listed. -/
structure Streaming (world : List (List NoteEntry)) (flight : LoadingMore)
    (base added answered : List NoteEntry) : Prop where
  lists : Lists world base
  current : flight.current.noteIds = base.map NoteEntry.id
  least : ∃ last, base.getLast? = some last ∧ last.createdAt = flight.since
  merged : flight.merged = (base ++ added).map NoteEntry.id
  oldest : ∃ last, (base ++ added).getLast? = some last ∧ last.createdAt = flight.oldest
  ordered : added.Pairwise fun newer older => older.createdAt ≤ newer.createdAt
  distinct : ((base ++ added).map NoteEntry.id).Nodup
  later : ∀ note ∈ flight.awaited, ∀ sent ∈ added, note.createdAt ≤ sent.createdAt
  all : ∀ note, note ∈ answered ↔ note ∈ added ∨ note ∈ flight.awaited
  known : ∀ note ∈ answered, note ∈ world.flatten ∧ note.createdAt ≤ flight.since - 1
  whole : WholeNext world (flight.since - 1) answered

inductive Sound (world : List (List NoteEntry)) (session : Session) : Prop
  | idle (none : session.Idle)
      (listed : ∀ entry, session.slot.value = some entry → Listed world entry)
  | getting (flight : Getting) (answered : List NoteEntry) (only : session.gets = [flight])
      (others : session.mores = []) (collecting : Collecting world flight answered)
  | loading (flight : LoadingMore) (base added answered : List NoteEntry) (entry : AuthorNotesEntry)
      (others : session.gets = []) (only : session.mores = [flight])
      (shown : session.slot.value = some entry) (ids : entry.noteIds = flight.merged)
      (oldest : entry.oldestCreatedAt = some flight.oldest)
      (streaming : Streaming world flight base added answered)

theorem answered_known {latest : Option Int} (asked : Answered world limit latest answers) :
    ∀ note ∈ answers.flatten, note ∈ world.flatten ∧ notAfter latest note := by
  obtain ⟨relays, within, each⟩ := asked
  intro note member
  obtain ⟨answer, sent, inside⟩ := List.mem_flatten.mp member
  clear member
  induction each with
  | nil => cases sent
  | @cons relay first relays rest one others ih =>
    rcases List.mem_cons.mp sent with is | later
    · rw [is] at inside
      have kept := one.within note inside
      exact ⟨List.mem_flatten.mpr ⟨relay, within List.mem_cons_self, kept.1⟩, kept.2⟩
    · exact ih (fun other held => within (List.mem_cons_of_mem _ held)) later

theorem Collecting.open (asked : Answered world limit none answers)
    (whole : WholeFirst world limit answers.flatten) :
    Collecting world ⟨limit, answers.flatten, []⟩ answers.flatten where
  distinct := List.nodup_nil
  all note := by simp
  known note member := (answered_known asked note member).1
  whole := whole

theorem Sound.loading_status (sound : Sound world session) (status : SlotStatus) :
    Sound world { session with slot := { session.slot with status := status } } := by
  cases sound with
  | idle none listed => exact .idle none listed
  | getting flight answered only others collecting =>
    exact .getting flight answered only others collecting
  | loading flight base added answered entry others only shown ids oldest streaming =>
    exact .loading flight base added answered entry others only shown ids oldest streaming

theorem Sound.get (sound : Sound world session) (fair : session.FairGet world limit answers) :
    Sound world (getAuthorNotes limit answers session) := by
  unfold getAuthorNotes
  split
  · exact sound
  · rename_i short
    dsimp only
    split
    · exact sound.loading_status .loading
    · rename_i unasked
      have opens : session.Opens limit := by
        constructor
        · intro cached there
          rw [there] at short
          simpa using short
        · intro flight member same
          apply unasked
          simp only [List.any_eq_true, decide_eq_true_eq]
          exact ⟨flight, member, same⟩
      obtain ⟨idle, asked, whole⟩ := fair opens
      refine .getting ⟨limit, answers.flatten, []⟩ answers.flatten ?_ idle.2 (.open asked whole)
      show session.gets ++ _ = _
      rw [idle.1, List.nil_append]

theorem Streaming.open {current : AuthorNotesEntry} {oldest : Int} {count : Nat}
    (listed : Listed world current) (started : current.oldestCreatedAt = some oldest)
    (asked : Answered world count (some (oldest - 1)) answers)
    (whole : WholeNext world (oldest - 1) answers.flatten) :
    ∃ base, Streaming world ⟨current, oldest, answers.flatten, current.noteIds, oldest⟩ base []
      answers.flatten := by
  obtain ⟨notes, lists, ids, last⟩ := listed
  rw [started] at last
  obtain ⟨final, is, time⟩ := Option.map_eq_some_iff.mp last.symm
  refine ⟨notes, lists, ids, ⟨final, is, time⟩, ?_, ?_, List.Pairwise.nil, ?_, ?_, ?_, ?_, whole⟩
  · rw [List.append_nil]
    exact ids
  · rw [List.append_nil]
    exact ⟨final, is, time⟩
  · rw [List.append_nil]
    exact lists.distinct
  · intro note _ sent absurd
    cases absurd
  · intro note
    simp
  · intro note member
    have known := answered_known asked note member
    exact ⟨known.1, known.2 _ rfl⟩

theorem Sound.more {count : Nat} (sound : Sound world session)
    (fair : Fair world session (.loadMoreAuthorNotes count answers)) :
    Sound world (loadMoreAuthorNotes count answers session) := by
  unfold loadMoreAuthorNotes
  unfold Fair at fair
  cases shown : session.slot.value with
  | none =>
    rw [shown] at fair
    exact sound.get fair
  | some current =>
    rw [shown] at fair
    dsimp only
    cases started : current.oldestCreatedAt with
    | none =>
      rw [Option.bind_some, started] at fair
      exact sound.get fair
    | some oldest =>
      rw [Option.bind_some, started] at fair
      dsimp only at fair ⊢
      split
      · exact sound
      · rename_i unasked
        have opens : ∀ flight ∈ session.mores, flight.since ≠ oldest := by
          intro flight member same
          apply unasked
          simp only [List.any_eq_true, decide_eq_true_eq]
          exact ⟨flight, member, same⟩
        obtain ⟨idle, asked, whole⟩ := fair opens
        have listed : Listed world current := by
          cases sound with
          | idle _ listed => exact listed current shown
          | getting flight answered only others collecting =>
            rw [idle.1] at only
            cases only
          | loading flight base added answered entry others only shown ids oldest streaming =>
            rw [idle.2] at only
            cases only
        obtain ⟨base, streaming⟩ := Streaming.open listed started asked whole
        refine .loading _ base [] answers.flatten current idle.1 ?_ shown rfl started streaming
        show session.mores ++ _ = _
        rw [idle.2, List.nil_append]

theorem Collecting.onEvent {flight : Getting} (identified : Identified world)
    (collecting : Collecting world flight answered) (member : note ∈ flight.awaited) :
    Collecting world ⟨flight.limit, flight.awaited.erase note,
      if note.id ∈ flight.collected.map NoteEntry.id then flight.collected
      else flight.collected ++ [note]⟩ answered := by
  have sent : note ∈ answered := (collecting.all note).mpr (.inr member)
  have rest : ∀ other, other ∈ flight.awaited → other ≠ note → other ∈ flight.awaited.erase note :=
    fun other held differs => (List.mem_erase_of_ne differs).mpr held
  split
  · rename_i seen
    obtain ⟨same, held, equal⟩ := List.mem_map.mp seen
    have is : same = note := identified same (collecting.known same ((collecting.all same).mpr
      (.inl held))) note (collecting.known note sent) equal
    rw [is] at held
    refine ⟨collecting.distinct, fun other => ?_, collecting.known, collecting.whole⟩
    rw [collecting.all]
    constructor
    · rintro (here | waits)
      · exact .inl here
      · by_cases differs : other = note
        · rw [differs]
          exact .inl held
        · exact .inr (rest other waits differs)
    · exact Or.imp_right List.mem_of_mem_erase
  · rename_i unseen
    refine ⟨?_, fun other => ?_, collecting.known, collecting.whole⟩
    · rw [List.map_append, List.nodup_append]
      refine ⟨collecting.distinct, List.nodup_singleton _, fun id held other last same => ?_⟩
      have last : other = note.id := by simpa using last
      rw [same, last] at held
      exact unseen held
    · rw [collecting.all, List.mem_append, List.mem_singleton]
      constructor
      · rintro (here | waits)
        · exact .inl (.inl here)
        · by_cases differs : other = note
          · exact .inl (.inr differs)
          · exact .inr (rest other waits differs)
      · rintro ((here | is) | waits)
        · exact .inl here
        · rw [is]
          exact .inr member
        · exact .inr (List.mem_of_mem_erase waits)

section Streaming

variable {flight : LoadingMore} {base added : List NoteEntry} {note : NoteEntry}

theorem Streaming.above (streaming : Streaming world flight base added answered) :
    ∀ listed ∈ base, flight.since ≤ listed.createdAt := by
  obtain ⟨last, is, time⟩ := streaming.least
  obtain ⟨before, split⟩ := List.getLast?_eq_some_iff.mp is
  have sorted := streaming.lists.ordered
  rw [split, List.pairwise_append] at sorted
  intro listed member
  rw [split] at member
  rcases List.mem_append.mp member with early | final
  · rw [← time]
    exact sorted.2.2 listed early last (List.mem_singleton_self _)
  · rw [List.mem_singleton.mp final, time]

theorem Streaming.again (identified : Identified world)
    (streaming : Streaming world flight base added answered) (member : note ∈ flight.awaited)
    (seen : note.id ∈ flight.merged) :
    Streaming world { flight with awaited := flight.awaited.erase note } base added answered := by
  have known := streaming.known note ((streaming.all note).mpr (.inr member))
  have held : note ∈ added := by
    rw [streaming.merged] at seen
    obtain ⟨same, listed, equal⟩ := List.mem_map.mp seen
    rcases List.mem_append.mp listed with old | new
    · have is : same = note := identified same (streaming.lists.known same old) note known.1 equal
      have earlier := streaming.above same old
      rw [is] at earlier
      omega
    · have there := streaming.known same ((streaming.all same).mpr (.inl new))
      have is : same = note := identified same there.1 note known.1 equal
      rwa [is] at new
  refine ⟨streaming.lists, streaming.current, streaming.least, streaming.merged, streaming.oldest,
    streaming.ordered, streaming.distinct,
    fun other waits => streaming.later other (List.mem_of_mem_erase waits), fun other => ?_,
    streaming.known, streaming.whole⟩
  rw [streaming.all]
  constructor
  · rintro (here | waits)
    · exact .inl here
    · by_cases differs : other = note
      · rw [differs]
        exact .inl held
      · exact .inr ((List.mem_erase_of_ne differs).mpr waits)
  · exact Or.imp_right List.mem_of_mem_erase

theorem Streaming.oldest_next (streaming : Streaming world flight base added answered)
    (member : note ∈ flight.awaited) : note.createdAt ≤ flight.oldest := by
  obtain ⟨last, is, time⟩ := streaming.oldest
  rw [← time]
  rcases List.mem_append.mp (List.mem_of_getLast? is) with old | new
  · have known := (streaming.known note ((streaming.all note).mpr (.inr member))).2
    have earlier := streaming.above last old
    omega
  · exact streaming.later note member last new

theorem Streaming.onEvent (streaming : Streaming world flight base added answered)
    (member : note ∈ flight.awaited) (unseen : note.id ∉ flight.merged)
    (newest : ∀ other ∈ flight.awaited, other.createdAt ≤ note.createdAt) :
    Streaming world { flight with
      awaited := flight.awaited.erase note
      merged := flight.merged ++ [note.id]
      oldest := if note.createdAt < flight.oldest then note.createdAt else flight.oldest }
      base (added ++ [note]) answered := by
  have below := streaming.oldest_next member
  refine ⟨streaming.lists, streaming.current, streaming.least, ?_, ⟨note, ?_, ?_⟩, ?_, ?_,
    fun other waits sent held => ?_, fun other => ?_, streaming.known, streaming.whole⟩
  · show flight.merged ++ [note.id] = _
    rw [streaming.merged]
    simp
  · rw [← List.append_assoc]
    exact List.getLast?_concat
  · show note.createdAt = if note.createdAt < flight.oldest then note.createdAt else flight.oldest
    split
    · rfl
    · omega
  · rw [List.pairwise_append]
    refine ⟨streaming.ordered, List.pairwise_singleton _ _, fun newer held older last => ?_⟩
    rw [List.mem_singleton.mp last]
    exact streaming.later note member newer held
  · rw [← List.append_assoc, List.map_append, List.nodup_append]
    refine ⟨streaming.distinct, List.nodup_singleton _, fun id held other last same => ?_⟩
    have last : other = note.id := by simpa using last
    rw [same, last, ← streaming.merged] at held
    exact unseen held
  · rcases List.mem_append.mp held with old | new
    · exact streaming.later other (List.mem_of_mem_erase waits) sent old
    · rw [List.mem_singleton.mp new]
      exact newest other (List.mem_of_mem_erase waits)
  · rw [streaming.all, List.mem_append, List.mem_singleton]
    constructor
    · rintro (here | waits)
      · exact .inl (.inl here)
      · by_cases differs : other = note
        · exact .inl (.inr differs)
        · exact .inr ((List.mem_erase_of_ne differs).mpr waits)
    · rintro ((here | is) | waits)
      · exact .inl here
      · rw [is]
        exact .inr member
      · exact .inr (List.mem_of_mem_erase waits)

theorem Streaming.done (streaming : Streaming world flight base added answered)
    (delivered : flight.awaited = []) : Lists world (base ++ added) := by
  refine streaming.lists.further streaming.least streaming.ordered streaming.distinct
    (fun note => ?_) streaming.known streaming.whole
  rw [streaming.all, delivered]
  simp

end Streaming

theorem find_only {α : Type} {only : α} {found : α} {items : List α} {keep : α → Bool}
    (is : items = [only]) (there : items.find? keep = some found) :
    found = only ∧ keep only = true := by
  rw [is, List.find?_singleton] at there
  split at there
  · rename_i kept
    exact ⟨(Option.some.inj there).symm, kept⟩
  · cases there

theorem Sound.gotNote (identified : Identified world) (sound : Sound world session)
    (stepped : step pubkey session (.gotNote limit note now) = some next) : Sound world next := by
  obtain ⟨flight, found, stepped⟩ := Option.bind_eq_some_iff.mp stepped
  split at stepped
  · rename_i member
    cases stepped
    cases sound with
    | idle none listed =>
      rw [none.1] at found
      cases found
    | getting only answered gets others collecting =>
      obtain ⟨is, key⟩ := find_only gets found
      subst is
      have collecting' := collecting.onEvent identified member
      unfold Getting.onEvent
      dsimp only
      split
      · rename_i seen
        rw [if_pos seen] at collecting'
        refine .getting _ answered ?_ others collecting'
        show session.gets.map _ = _
        rw [gets]
        simp
      · rename_i unseen
        rw [if_neg unseen] at collecting'
        refine .getting _ answered ?_ others collecting'
        show session.gets.map _ = _
        rw [gets]
        simp
    | loading only base added answered entry others =>
      rw [others] at found
      cases found
  · cases stepped

theorem Sound.moreNote {since : Int} (identified : Identified world) (sound : Sound world session)
    (fair : Fair world session (.moreNote since note now))
    (stepped : step pubkey session (.moreNote since note now) = some next) : Sound world next := by
  obtain ⟨flight, found, stepped⟩ := Option.bind_eq_some_iff.mp stepped
  split at stepped
  · rename_i member
    cases stepped
    cases sound with
    | idle none listed =>
      rw [none.2] at found
      cases found
    | getting only answered gets others collecting =>
      rw [others] at found
      cases found
    | loading only base added answered entry others mores shown ids oldest streaming =>
      obtain ⟨is, key⟩ := find_only mores found
      subst is
      unfold LoadingMore.onEvent
      dsimp only
      split
      · rename_i seen
        have again := streaming.again identified member seen
        refine .loading { flight with awaited := flight.awaited.erase note } base added answered
          entry others ?_ shown ids oldest again
        show session.mores.map _ = _
        rw [mores]
        simp
      · rename_i unseen
        have newest : ∀ other ∈ flight.awaited, other.createdAt ≤ note.createdAt := by
          refine fair flight ?_ (of_decide_eq_true key)
          rw [mores]
          exact List.mem_singleton_self _
        refine .loading _ base (added ++ [note]) answered _ others ?_ rfl rfl rfl
          (streaming.onEvent member unseen newest)
        show session.mores.map _ = _
        rw [mores]
        simp
  · cases stepped

theorem Sound.getDone (sound : Sound world session) (fair : Fair world session (.getDone limit now))
    (stepped : step pubkey session (.getDone limit now) = some next) : Sound world next := by
  obtain ⟨flight, found, stepped⟩ := Option.bind_eq_some_iff.mp stepped
  cases stepped
  cases sound with
  | idle none listed =>
    rw [none.1] at found
    cases found
  | getting only answered gets others collecting =>
    obtain ⟨is, key⟩ := find_only gets found
    subst is
    have key : flight.limit = limit := of_decide_eq_true key
    have delivered : flight.awaited = [] := by
      refine fair flight ?_ key
      rw [gets]
      exact List.mem_singleton_self _
    refine .idle ⟨?_, others⟩ fun entry shown => ?_
    · show session.gets.filter _ = []
      rw [gets]
      simp [key]
    · cases shown
      refine ⟨_, .first collecting.distinct (fun note => ?_) collecting.known ?_, rfl, rfl⟩
      · rw [collecting.all, delivered]
        simp
      · rw [← key]
        exact collecting.whole
  | loading only base added answered entry others =>
    rw [others] at found
    cases found

theorem Sound.moreDone {since : Int} (sound : Sound world session)
    (fair : Fair world session (.moreDone since))
    (stepped : step pubkey session (.moreDone since) = some next) : Sound world next := by
  obtain ⟨flight, found, stepped⟩ := Option.bind_eq_some_iff.mp stepped
  cases stepped
  cases sound with
  | idle none listed =>
    rw [none.2] at found
    cases found
  | getting only answered gets others collecting =>
    rw [others] at found
    cases found
  | loading only base added answered entry others mores shown ids oldest streaming =>
    obtain ⟨is, key⟩ := find_only mores found
    subst is
    have key : flight.since = since := of_decide_eq_true key
    have delivered : flight.awaited = [] := by
      refine fair flight ?_ key
      rw [mores]
      exact List.mem_singleton_self _
    refine .idle ⟨others, ?_⟩ fun listed there => ?_
    · show session.mores.filter _ = []
      rw [mores]
      simp [key]
    · have is : listed = entry := by
        have both : some listed = some entry := there.symm.trans shown
        exact Option.some.inj both
      subst is
      obtain ⟨last, final, time⟩ := streaming.oldest
      refine ⟨base ++ added, streaming.done delivered, ids.trans streaming.merged, ?_⟩
      rw [oldest, final, ← time]
      rfl

theorem Sound.step {move : Move} (identified : Identified world) (sound : Sound world session)
    (fair : Fair world session move) (stepped : step pubkey session move = some next) :
    Sound world next := by
  cases move with
  | getAuthorNotes limit answers =>
    cases stepped
    exact sound.get fair
  | loadMoreAuthorNotes count answers =>
    cases stepped
    exact sound.more fair
  | gotNote limit note now => exact sound.gotNote identified stepped
  | moreNote since note now => exact sound.moreNote identified fair stepped
  | getDone limit now => exact sound.getDone fair stepped
  | moreDone since => exact sound.moreDone fair stepped

/-- In every run of pages with clean cuts the entry lists all notes down to some time, and all
notes there are once a call has added nothing. -/
theorem pages_list_all (identified : Identified world)
    (reaches : Reaches (step pubkey) (Fair world) .fresh session) :
    (session.Idle → ∀ entry, session.slot.value = some entry → Listed world entry) ∧
    ∀ flight ∈ session.mores, flight.awaited = [] → ∀ entry, session.slot.value = some entry →
      entry.noteIds = flight.current.noteIds → Complete world entry := by
  have sound : Sound world session := by
    refine reaches.invariant (.idle ⟨rfl, rfl⟩ fun entry shown => ?_)
      fun _ _ _ held fair stepped => held.step identified fair stepped
    cases shown
  constructor
  · intro idle entry shown
    cases sound with
    | idle none listed => exact listed entry shown
    | getting flight answered only =>
      rw [idle.1] at only
      cases only
    | loading flight base added answered entry others only =>
      rw [idle.2] at only
      cases only
  · intro flight member delivered entry shown same
    cases sound with
    | idle none listed =>
      rw [none.2] at member
      cases member
    | getting only answered gets others collecting =>
      rw [others] at member
      cases member
    | loading only base added answered listed others mores there ids oldest streaming =>
      rw [mores, List.mem_singleton] at member
      subst member
      have is : listed = entry := Option.some.inj (there.symm.trans shown)
      subst is
      have nothing : added = [] := by
        rw [ids, streaming.merged, streaming.current, List.map_append] at same
        simpa using same
      subst nothing
      have none : ∀ note, note ∉ answered := by
        intro note sent
        rw [streaming.all, delivered] at sent
        simp at sent
      refine ⟨base, ?_, streaming.lists.distinct, streaming.lists.ordered, fun note =>
        ⟨streaming.lists.known note, fun there => ?_⟩⟩
      · rw [ids, streaming.merged, List.append_nil]
      · by_contra missing
        obtain ⟨last, final, time⟩ := streaming.least
        have below := (streaming.lists.whole note there missing).2 last (List.mem_of_getLast? final)
        rcases streaming.whole note there (by omega) with here | under
        · exact none note here
        · obtain ⟨sent, is⟩ := List.exists_mem_of_ne_nil _ under.1
          exact none sent is

def aNote (id : String) (createdAt : Int) : NoteEntry where
  id := id
  pubkey := "a"
  content := "hi"
  createdAt := createdAt
  tags := []

def twoNotes : List (List NoteEntry) := [[aNote "2" 6, aNote "1" 5]]

def twoPages : List Move := [
  .getAuthorNotes 1 [[aNote "2" 6]], .gotNote 1 (aNote "2" 6) 0, .getDone 1 0,
  .loadMoreAuthorNotes 1 [[aNote "1" 5]], .moreNote 6 (aNote "1" 5) 0, .moreDone 6,
  .loadMoreAuthorNotes 1 [[]]]

theorem pages_list_all_two : ∃ session entry,
    exec (step "a") .fresh twoPages = some session ∧ session.slot.value = some entry ∧
      entry.noteIds = ["2", "1"] ∧ Complete twoNotes entry := by
  have identified : Identified twoNotes := by
    unfold Identified
    decide
  have first : Answered twoNotes 1 none [[aNote "2" 6]] := by
    refine ⟨twoNotes, fun _ => id, .cons ⟨?_, by decide, by decide, ?_⟩ .nil⟩
    · simp [notAfter]
    · intro note held _ missing
      simp only [List.mem_cons, List.not_mem_nil, or_false] at held missing
      simp [held.resolve_left missing, aNote]
  have second : Answered twoNotes 1 (some 5) [[aNote "1" 5]] := by
    refine ⟨twoNotes, fun _ => id, .cons ⟨?_, by decide, by decide, ?_⟩ .nil⟩
    · simp [notAfter, aNote]
    · intro note held early missing
      simp only [List.mem_cons, List.not_mem_nil, or_false] at held missing
      have late := early 5 rfl
      rw [held.resolve_right missing] at late
      exact absurd late (by decide)
  have third : Answered twoNotes 1 (some 4) [[]] := by
    refine ⟨twoNotes, fun _ => id, .cons ⟨?_, by decide, by decide, ?_⟩ .nil⟩
    · simp
    · intro note held early _
      simp only [List.mem_cons, List.not_mem_nil, or_false] at held
      have late := early 4 rfl
      rcases held with is | is
      · rw [is] at late
        exact absurd late (by decide)
      · rw [is] at late
        exact absurd late (by decide)
  have permitted : Permitted (step "a") (Fair twoNotes) .fresh twoPages := by
    refine ⟨fun _ => ⟨⟨rfl, rfl⟩, first, ?_⟩, fun _ moved => ?_⟩
    · unfold WholeFirst Below
      decide
    cases moved
    refine ⟨trivial, fun _ moved => ?_⟩
    cases moved
    refine ⟨fun flight member _ => ?_, fun _ moved => ?_⟩
    · rw [List.mem_singleton.mp member]
      rfl
    cases moved
    refine ⟨fun _ => ⟨⟨rfl, rfl⟩, second, ?_⟩, fun _ moved => ?_⟩
    · show WholeNext twoNotes 5 [aNote "1" 5]
      unfold WholeNext Below
      decide
    cases moved
    refine ⟨fun flight member _ => ?_, fun _ moved => ?_⟩
    · rw [List.mem_singleton.mp member]
      decide
    cases moved
    refine ⟨fun flight member _ => ?_, fun _ moved => ?_⟩
    · rw [List.mem_singleton.mp member]
      rfl
    cases moved
    refine ⟨fun _ => ⟨⟨rfl, rfl⟩, third, ?_⟩, fun _ _ => trivial⟩
    show WholeNext twoNotes 4 []
    unfold WholeNext Below
    decide
  refine ⟨_, _, rfl, rfl, rfl, ?_⟩
  exact (pages_list_all identified (.of_permitted rfl permitted)).2 _ List.mem_cons_self rfl _ rfl rfl

/-- Two notes of one time, one a page: the second is never asked for. -/
def tiedNotes : List (List NoteEntry) := [[aNote "2" 5, aNote "1" 5]]

theorem tied_note_lost :
    Answered tiedNotes 1 none [[aNote "2" 5]] ∧ Answered tiedNotes 1 (some 4) [[]] ∧
    ∃ session entry, exec (step "a") .fresh [.getAuthorNotes 1 [[aNote "2" 5]],
        .gotNote 1 (aNote "2" 5) 0, .getDone 1 0, .loadMoreAuthorNotes 1 [[]], .moreDone 5] =
          some session ∧
      session.slot.value = some entry ∧ entry.noteIds = ["2"] ∧ ¬ Complete tiedNotes entry := by
  refine ⟨⟨tiedNotes, fun _ => id, .cons ⟨?_, by decide, by decide, ?_⟩ .nil⟩,
    ⟨tiedNotes, fun _ => id, .cons ⟨?_, by decide, by decide, ?_⟩ .nil⟩, _, _, rfl, rfl, rfl, ?_⟩
  · simp [notAfter]
  · intro note held _ missing
    simp only [List.mem_cons, List.not_mem_nil, or_false] at held missing
    simp [held.resolve_left missing, aNote]
  · simp
  · intro note held early _
    simp only [List.mem_cons, List.not_mem_nil, or_false] at held
    have late := early 4 rfl
    rcases held with is | is
    · rw [is] at late
      exact absurd late (by decide)
    · rw [is] at late
      exact absurd late (by decide)
  · intro complete
    obtain ⟨notes, ids, _, _, all⟩ := complete
    have there : aNote "1" 5 ∈ notes := (all _).mpr (by decide)
    have listed : "1" ∈ notes.map NoteEntry.id := List.mem_map.mpr ⟨_, there, rfl⟩
    rw [← ids] at listed
    exact absurd listed (by decide)

end NostrWot.Feed.Notes
