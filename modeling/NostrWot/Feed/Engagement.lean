import NostrWot.Feed.Observable
import NostrWot.Feed.Zaps

namespace NostrWot.Feed

open NostrWot.Data

/-! # Engagement

The reactions, reposts and zaps of a batch of notes, and what the cache shows of them.
-/

/-- `+`. -/
def Count.add : Count → Count → Count
  | .finite left, .finite right => .ofNat (left + right)
  | _, _ => .infinity

structure Event where
  id : Units
  kind : Nat
  tags : List (List Units)
  content : Units
  deriving DecidableEq

structure Engagement where
  reactionCount : Nat
  repostCount : Nat
  zapTotalSats : Count
  deriving DecidableEq

def Engagement.empty : Engagement := ⟨0, 0, .finite 0⟩

/-- The subscriptions of a batch. -/
inductive Interest where
  | reactions
  | reposts
  | zaps
  deriving DecidableEq

def Interest.kind : Interest → Nat
  | .reactions => 7
  | .reposts => 6
  | .zaps => 9735

def E_TAG : Units := Units.ofString "e"

def DOWNVOTE : Units := Units.ofString "-"

/-- The note that an event counts for: the first of the batch that it has an `e` tag of. -/
def attributed (noteIds : List Units) (tags : List (List Units)) : Option Units :=
  (tags.find? fun tag => tag[0]? = some E_TAG && tag[1]?.getD [] ≠ [] &&
    noteIds.contains (tag[1]?.getD [])).bind fun tag => tag[1]?

def bump (id : Units) (change : Engagement → Engagement) (out : OrderedMap Units Engagement) :
    OrderedMap Units Engagement :=
  out.set id (change ((out.get id).getD .empty))

def bumpAttributed (noteIds : List Units) (event : Event) (change : Engagement → Engagement)
    (out : OrderedMap Units Engagement) : OrderedMap Units Engagement :=
  match attributed noteIds event.tags with
  | none => out
  | some id => bump id change out

def onReaction (noteIds : List Units) (event : Event) (out : OrderedMap Units Engagement) :
    OrderedMap Units Engagement :=
  if event.content = DOWNVOTE then out
  else bumpAttributed noteIds event
    (fun cur => { cur with reactionCount := cur.reactionCount + 1 }) out

def onRepost (noteIds : List Units) (event : Event) (out : OrderedMap Units Engagement) :
    OrderedMap Units Engagement :=
  bumpAttributed noteIds event (fun cur => { cur with repostCount := cur.repostCount + 1 }) out

def onZap (noteIds : List Units) (event : Event) (out : OrderedMap Units Engagement) :
    OrderedMap Units Engagement :=
  if parseZapMsats event.tags = .finite 0 then out
  else bumpAttributed noteIds event
    (fun cur => { cur with zapTotalSats := cur.zapTotalSats.add (zapSats event.tags) }) out

def onEvent (noteIds : List Units) : Interest → Event → OrderedMap Units Engagement →
    OrderedMap Units Engagement
  | .reactions => onReaction noteIds
  | .reposts => onRepost noteIds
  | .zaps => onZap noteIds

abbrev Delivery := Interest × Event

/-- The deliveries that `fastCollect` hands on: of each subscription the first with each id. -/
def collected (seen : List (Interest × Units)) : List Delivery → List Delivery
  | [] => []
  | delivery :: rest =>
    if seen.contains (delivery.1, delivery.2.id) then collected seen rest
    else delivery :: collected ((delivery.1, delivery.2.id) :: seen) rest

/-- What is reported once the three subscriptions have ended, from all that they were delivered
in the order it came. -/
def fetchEngagement (noteIds : List Units) (delivered : List Delivery) :
    OrderedMap Units Engagement :=
  (collected [] delivered).foldl (fun out delivery => onEvent noteIds delivery.1 delivery.2 out)
    (OrderedMap.setAll ∅ (noteIds.map fun id => (id, .empty)))

/-! ## The cache -/

abbrev Store := Slots Units Engagement

def equalEngagement (left right : Engagement) : Bool :=
  left.reactionCount = right.reactionCount && left.repostCount = right.repostCount &&
    left.zapTotalSats = right.zapTotalSats

def getEngagement (store : Store) (noteId : Units) : Engagement :=
  (store.slot noteId).value.getD .empty

def fillEmpty (now : Nat) (noteIds : List Units) (store : Store) : Store :=
  noteIds.foldl (fun store id =>
    if (store.slot id).value.isSome then store
    else (store.put equalEngagement now id .empty).1) store

def publish (now : Nat) (result : OrderedMap Units Engagement) (store : Store) : Store :=
  result.entries.foldl (fun store entry => (store.put equalEngagement now entry.1 entry.2).1) store

/-- A batch that is not in flight: `others` is what the rest of the program does to the store
while the relays answer. -/
def fetchEngagementBatch (noteIds : List Units) (delivered : List Delivery)
    (others : Store → Store) (start now : Nat) (store : Store) : Store :=
  if noteIds = [] then store
  else publish now (fetchEngagement noteIds delivered) (others (fillEmpty start noteIds store))

/-! ## What relays answer -/

def mentions (tags : List (List Units)) : List Units :=
  (tags.filter fun tag => tag[0]? = some E_TAG).filterMap fun tag => tag[1]?

/-- The filter of a subscription. -/
def Interest.matches (interest : Interest) (noteIds : List Units) (event : Event) : Bool :=
  event.kind = interest.kind && (mentions event.tags).any noteIds.contains

def AnsweredInFull (held : List Event) (noteIds : List Units) (delivered : List Delivery) : Prop :=
  ∀ delivery, delivery ∈ delivered ↔
    delivery.2 ∈ held ∧ delivery.1.matches noteIds delivery.2 = true

/-! ## Neighbours -/

def Interest.adds : Interest → Event → Bool
  | .reactions, event => event.content ≠ DOWNVOTE
  | .reposts, _ => true
  | .zaps, event => parseZapMsats event.tags ≠ .finite 0

def names (note : Units) (event : Event) : Bool := note ≠ [] && (mentions event.tags).contains note

/-- Another note of the batch is named before this one. -/
def captured (noteIds : List Units) (note : Units) (event : Event) : Bool :=
  ((mentions event.tags).takeWhile (· ≠ note)).any fun other =>
    other ≠ [] && noteIds.contains other

/-- What would count for a note alone. -/
def Interest.meant (interest : Interest) (note : Units) (event : Event) : Bool :=
  event.kind = interest.kind && interest.adds event && names note event

def capturedOnly (noteIds others : List Units) (note : Units) (interest : Interest)
    (held : List Event) : List Event :=
  held.filter fun event =>
    interest.meant note event && captured noteIds note event && !captured others note event

def comes (noteIds : List Units) (note : Units) (interest : Interest) (delivery : Delivery) : Bool :=
  delivery.1 = interest && interest.adds delivery.2 &&
    (names note delivery.2 && !captured noteIds note delivery.2)

def uncaptured (noteIds : List Units) (note : Units) (interest : Interest)
    (delivered : List Delivery) : List Event :=
  ((collected [] delivered).filter (comes noteIds note interest)).map Prod.snd

/-- An amount as a natural, `Infinity` as the least that rounds to it. -/
def Count.worth : Count → Nat
  | .finite value => value
  | .infinity => OVERFLOW

def worth (receipts : List Event) : Nat :=
  (receipts.map fun event => (zapSats event.tags).worth).sum

/-- What they come to when they are added in turn. -/
def added (total : Count) (receipts : List Event) : Count :=
  receipts.foldl (fun total event => total.add (zapSats event.tags)) total

/-- Two batches capture as many reactions and reposts of a note and as many sats. Where both
totals are beyond what doubles count, these are rounded to the same. -/
structure EvenlyCaptured (noteIds others : List Units) (note : Units) (held : List Event)
    (delivered delivered' : List Delivery) : Prop where
  reactions : (capturedOnly noteIds others note .reactions held).length =
    (capturedOnly others noteIds note .reactions held).length
  reposts : (capturedOnly noteIds others note .reposts held).length =
    (capturedOnly others noteIds note .reposts held).length
  zaps : if worth (uncaptured noteIds note .zaps delivered) < 2 ^ 53 ∨
      worth (uncaptured others note .zaps delivered') < 2 ^ 53 then
      worth (capturedOnly noteIds others note .zaps held) =
        worth (capturedOnly others noteIds note .zaps held)
    else added (.finite 0) (uncaptured noteIds note .zaps delivered) =
      added (.finite 0) (uncaptured others note .zaps delivered')

/-! ## Attribution -/

theorem attributed_eq (noteIds : List Units) (tags : List (List Units)) :
    attributed noteIds tags =
      (mentions tags).find? fun other => other ≠ [] && noteIds.contains other := by
  induction tags with
  | nil => rfl
  | cons tag rest induction =>
    rw [attributed, mentions] at *
    by_cases named : tag[0]? = some E_TAG
    · rw [List.filter_cons_of_pos (by simpa using named)]
      cases value : tag[1]? with
      | none =>
        rw [List.find?_cons_of_neg (by simp [value]), List.filterMap_cons]
        simpa only [value] using induction
      | some other =>
        simp only [List.filterMap_cons, value]
        cases found : (decide (other ≠ []) && noteIds.contains other) with
        | true =>
          rw [List.find?_cons_of_pos (by simpa [named, value] using found)]
          simp only [List.find?_cons, found, Option.bind_some, value]
        | false =>
          rw [List.find?_cons_of_neg (by simpa [named, value] using found)]
          simpa only [List.find?_cons, found] using induction
    · rw [List.filter_cons_of_neg (by simpa using named),
        List.find?_cons_of_neg (by simp [named])]
      exact induction

theorem find?_eq_some_iff_takeWhile {α : Type} [DecidableEq α] {values : List α} {test : α → Bool}
    {value : α} : values.find? test = some value ↔
      test value = true ∧ value ∈ values ∧ (values.takeWhile (· ≠ value)).any test = false := by
  induction values with
  | nil => simp
  | cons first rest induction =>
    by_cases same : first = value
    · subst same
      cases passes : test first <;> simp [passes]
      intro found
      exact absurd (List.find?_some found) (by simp [passes])
    · cases passes : test first with
      | true =>
        simp [passes, same]
      | false =>
        rw [List.find?_cons_of_neg (by simp [passes]), induction]
        simp [passes, same, Ne.symm same]

variable {noteIds : List Units} {note : Units}

theorem attributed_iff (asked : note ∈ noteIds) (event : Event) :
    attributed noteIds event.tags = some note ↔
      (names note event && !captured noteIds note event) = true := by
  rw [attributed_eq, find?_eq_some_iff_takeWhile]
  simp [names, captured, asked]
  tauto

/-! ## What is reported -/

def Interest.change : Interest → Event → Engagement → Engagement
  | .reactions, _, cur => { cur with reactionCount := cur.reactionCount + 1 }
  | .reposts, _, cur => { cur with repostCount := cur.repostCount + 1 }
  | .zaps, event, cur => { cur with zapTotalSats := cur.zapTotalSats.add (zapSats event.tags) }

def credit (noteIds : List Units) (note : Units) (cur : Engagement) (delivery : Delivery) :
    Engagement :=
  if delivery.1.adds delivery.2 && attributed noteIds delivery.2.tags = some note then
    delivery.1.change delivery.2 cur
  else cur

variable {out : OrderedMap Units Engagement} {cur : Engagement}

theorem get_bumpAttributed {event : Event} {change : Engagement → Engagement}
    (held : out.get note = some cur) : (bumpAttributed noteIds event change out).get note =
      some (if attributed noteIds event.tags = some note then change cur else cur) := by
  cases found : attributed noteIds event.tags with
  | none => simp [bumpAttributed, found, held]
  | some id =>
    simp only [bumpAttributed, found, bump, OrderedMap.get_set, Option.some.injEq]
    by_cases same : note = id
    · subst same
      simp [held]
    · simp [same, Ne.symm same, held]

theorem get_onEvent (delivery : Delivery) (held : out.get note = some cur) :
    (onEvent noteIds delivery.1 delivery.2 out).get note =
      some (credit noteIds note cur delivery) := by
  obtain ⟨interest, event⟩ := delivery
  cases interest with
  | reactions =>
    simp only [onEvent, onReaction, credit, Interest.adds]
    by_cases down : event.content = DOWNVOTE
    · simp [down, held]
    · rw [if_neg down, get_bumpAttributed held]
      simp [down, Interest.change]
  | reposts =>
    simp only [onEvent, onRepost, credit, Interest.adds]
    rw [get_bumpAttributed held]
    simp [Interest.change]
  | zaps =>
    simp only [onEvent, onZap, credit, Interest.adds]
    by_cases nothing : parseZapMsats event.tags = .finite 0
    · simp [nothing, held]
    · rw [if_neg nothing, get_bumpAttributed held]
      simp [nothing, Interest.change]

theorem get_foldl_onEvent {deliveries : List Delivery} (held : out.get note = some cur) :
    (deliveries.foldl (fun out delivery => onEvent noteIds delivery.1 delivery.2 out) out).get note =
      some (deliveries.foldl (credit noteIds note) cur) := by
  induction deliveries generalizing out cur with
  | nil => exact held
  | cons delivery rest induction => exact induction (get_onEvent delivery held)

theorem get_fetchEngagement (asked : note ∈ noteIds) (delivered : List Delivery) :
    (fetchEngagement noteIds delivered).get note =
      some ((collected [] delivered).foldl (credit noteIds note) .empty) := by
  apply get_foldl_onEvent
  apply OrderedMap.get_setAll_of_mem
  · exact List.mem_map.mpr ⟨note, asked, rfl⟩
  · intro other member
    obtain ⟨id, _, same⟩ := List.mem_map.mp member
    exact (congrArg Prod.snd same).symm

theorem foldl_credit (asked : note ∈ noteIds) (deliveries : List Delivery) (cur : Engagement) :
    deliveries.foldl (credit noteIds note) cur =
      { reactionCount := cur.reactionCount + (deliveries.filter (comes noteIds note .reactions)).length
        repostCount := cur.repostCount + (deliveries.filter (comes noteIds note .reposts)).length
        zapTotalSats := added cur.zapTotalSats
          ((deliveries.filter (comes noteIds note .zaps)).map Prod.snd) } := by
  induction deliveries generalizing cur with
  | nil => rfl
  | cons delivery rest induction =>
    rw [List.foldl_cons, induction, credit]
    have iff := attributed_iff asked delivery.2
    by_cases counts : delivery.1.adds delivery.2 = true ∧
        (names note delivery.2 && !captured noteIds note delivery.2) = true
    · have whole : comes noteIds note delivery.1 delivery = true := by
        simpa [comes] using counts
      have others : ∀ interest, interest ≠ delivery.1 → comes noteIds note interest delivery = false := by
        intro interest other
        simp [comes, Ne.symm other]
      rw [if_pos (by simpa [iff] using counts)]
      cases interest : delivery.1 <;> rw [interest] at whole others
      · simp [whole, others .reposts (by decide), others .zaps (by decide), Interest.change]
        omega
      · simp [whole, others .reactions (by decide), others .zaps (by decide), Interest.change]
        omega
      · simp [whole, others .reactions (by decide), others .reposts (by decide), Interest.change, added]
    · have nothing : ∀ interest, comes noteIds note interest delivery = false := by
        intro interest
        rw [comes, Bool.and_assoc, ← Bool.not_eq_true]
        intro both
        simp only [Bool.and_eq_true, decide_eq_true_eq] at both counts
        exact counts ⟨by rw [both.1]; exact both.2.1, both.2.2⟩
      rw [if_neg (by simpa [iff] using counts)]
      simp [nothing]

theorem get_uncaptured (asked : note ∈ noteIds) (delivered : List Delivery) :
    (fetchEngagement noteIds delivered).get note = some
      { reactionCount := (uncaptured noteIds note .reactions delivered).length
        repostCount := (uncaptured noteIds note .reposts delivered).length
        zapTotalSats := added (.finite 0) (uncaptured noteIds note .zaps delivered) } := by
  rw [get_fetchEngagement asked, foldl_credit asked]
  simp [Engagement.empty, uncaptured]

/-! ## What is collected -/

section Collected

variable {seen : List (Interest × Units)} {deliveries : List Delivery}

theorem mem_of_mem_collected {delivery : Delivery} (member : delivery ∈ collected seen deliveries) :
    delivery ∈ deliveries ∧ (delivery.1, delivery.2.id) ∉ seen := by
  induction deliveries generalizing seen with
  | nil => simp [collected] at member
  | cons first rest induction =>
    rw [collected] at member
    by_cases again : seen.contains (first.1, first.2.id) = true
    · rw [if_pos again] at member
      have found := induction member
      exact ⟨List.mem_cons_of_mem _ found.1, found.2⟩
    · rw [if_neg again, List.mem_cons] at member
      rcases member with same | member
      · rw [same]
        exact ⟨List.mem_cons_self, by simpa using again⟩
      · have found := induction member
        exact ⟨List.mem_cons_of_mem _ found.1, fun known => found.2 (List.mem_cons_of_mem _ known)⟩

theorem nodup_collected (seen : List (Interest × Units)) (deliveries : List Delivery) :
    ((collected seen deliveries).map fun delivery => (delivery.1, delivery.2.id)).Nodup := by
  induction deliveries generalizing seen with
  | nil => exact List.nodup_nil
  | cons first rest induction =>
    rw [collected]
    split
    · exact induction seen
    · rw [List.map_cons, List.nodup_cons]
      constructor
      · intro member
        obtain ⟨delivery, later, same⟩ := List.mem_map.mp member
        exact (mem_of_mem_collected later).2 (by rw [same]; exact List.mem_cons_self)
      · exact induction _

theorem collected_of_mem {delivery : Delivery} (member : delivery ∈ deliveries)
    (unseen : (delivery.1, delivery.2.id) ∉ seen) : ∃ other ∈ collected seen deliveries,
      other.1 = delivery.1 ∧ other.2.id = delivery.2.id := by
  induction deliveries generalizing seen with
  | nil => contradiction
  | cons first rest induction =>
    rw [collected]
    by_cases same : (first.1, first.2.id) = (delivery.1, delivery.2.id)
    · have new : ¬ seen.contains (first.1, first.2.id) = true := by
        rw [same]
        simpa using unseen
      rw [if_neg new]
      exact ⟨first, List.mem_cons_self, Prod.mk.inj same⟩
    · have later : delivery ∈ rest := by
        rcases List.mem_cons.mp member with here | later
        · exact absurd (by rw [here]) same
        · exact later
      split
      · exact induction later unseen
      · have unseen_too : (delivery.1, delivery.2.id) ∉ (first.1, first.2.id) :: seen := by
          simp [unseen, Ne.symm same]
        obtain ⟨other, found, alike⟩ := induction later unseen_too
        exact ⟨other, List.mem_cons_of_mem _ found, alike⟩

end Collected

section Answers

variable {held : List Event} {noteIds : List Units} {note : Units} {delivered : List Delivery}

theorem mem_collected_iff (distinct : (held.map Event.id).Nodup)
    (answered : AnsweredInFull held noteIds delivered) (delivery : Delivery) :
    delivery ∈ collected [] delivered ↔ delivery ∈ delivered := by
  constructor
  · intro member
    exact (mem_of_mem_collected member).1
  · intro member
    obtain ⟨other, found, interest, id⟩ := @collected_of_mem [] delivered delivery member (by simp)
    have holds := ((answered delivery).mp member).1
    have other_holds := ((answered other).mp (mem_of_mem_collected found).1).1
    have event : other.2 = delivery.2 := List.inj_on_of_nodup_map distinct other_holds holds id
    have same : other = delivery := Prod.ext interest event
    exact same ▸ found

theorem mem_uncaptured (distinct : (held.map Event.id).Nodup) (asked : note ∈ noteIds)
    (answered : AnsweredInFull held noteIds delivered) (interest : Interest) (event : Event) :
    event ∈ uncaptured noteIds note interest delivered ↔
      event ∈ held.filter fun event => interest.meant note event && !captured noteIds note event := by
  rw [uncaptured, List.mem_map, List.mem_filter]
  constructor
  · intro came
    obtain ⟨delivery, member, same⟩ := came
    rw [List.mem_filter, mem_collected_iff distinct answered, answered] at member
    obtain ⟨⟨holds, matched⟩, comes_⟩ := member
    rw [comes, Bool.and_eq_true, Bool.and_eq_true, decide_eq_true_eq] at comes_
    obtain ⟨⟨sub, adds⟩, reaches⟩ := comes_
    rw [same] at holds matched adds reaches
    rw [sub] at matched
    rw [Interest.matches, Bool.and_eq_true] at matched
    refine ⟨holds, ?_⟩
    rw [Interest.meant, Bool.and_assoc, Bool.and_assoc]
    simp only [matched.1, adds, reaches, Bool.and_self]
  · intro meant
    obtain ⟨holds, meant⟩ := meant
    rw [Interest.meant, Bool.and_assoc, Bool.and_assoc, Bool.and_eq_true, Bool.and_eq_true] at meant
    obtain ⟨kind, adds, reaches⟩ := meant
    refine ⟨(interest, event), ?_, rfl⟩
    rw [List.mem_filter, mem_collected_iff distinct answered, answered]
    have mention : (mentions event.tags).any noteIds.contains = true := by
      rw [List.any_eq_true]
      have named := (Bool.and_eq_true _ _ ▸ reaches).1
      simp [names] at named
      exact ⟨note, named.2, by simpa using asked⟩
    refine ⟨⟨holds, ?_⟩, ?_⟩
    · simp only [Interest.matches, kind, mention, Bool.and_self]
    · simp only [comes, adds, reaches, decide_true, Bool.and_self]

theorem perm_uncaptured (distinct : (held.map Event.id).Nodup) (asked : note ∈ noteIds)
    (answered : AnsweredInFull held noteIds delivered) (interest : Interest) :
    (uncaptured noteIds note interest delivered).Perm
      (held.filter fun event => interest.meant note event && !captured noteIds note event) := by
  have once : (uncaptured noteIds note interest delivered).Nodup := by
    have nodup := (nodup_collected [] delivered).of_map.filter (comes noteIds note interest)
    apply List.Nodup.map_on _ nodup
    intro first member second member' same
    have subscription : ∀ delivery ∈ (collected [] delivered).filter (comes noteIds note interest),
        delivery.1 = interest := by
      intro delivery member
      have comes_ := (List.mem_filter.mp member).2
      simp [comes] at comes_
      exact comes_.1.1
    exact Prod.ext ((subscription first member).trans (subscription second member').symm) same
  exact (List.perm_ext_iff_of_nodup once (distinct.of_map.filter _)).mpr
    (mem_uncaptured distinct asked answered interest)

end Answers

/-! ## Two batches -/

theorem sum_captured {held : List Event} (value : Event → Nat) (meant first second : Event → Bool) :
    ((held.filter fun event => meant event && !first event).map value).sum +
        ((held.filter fun event => meant event && first event && !second event).map value).sum =
      ((held.filter fun event => meant event && !second event).map value).sum +
        ((held.filter fun event => meant event && second event && !first event).map value).sum := by
  induction held with
  | nil => rfl
  | cons event rest induction =>
    cases meant_ : meant event <;> cases first_ : first event <;> cases second_ : second event <;>
      simp [meant_, first_, second_] <;> omega

theorem length_eq_sum (events : List Event) : events.length = (events.map fun _ => 1).sum := by
  simp

@[simp] theorem Count.add_infinity (total : Count) : total.add .infinity = .infinity := by
  cases total <;> rfl

theorem added_infinity (receipts : List Event) : added .infinity receipts = .infinity := by
  induction receipts with
  | nil => rfl
  | cons first rest induction =>
    rw [added, List.foldl_cons]
    exact induction

theorem added_iff {receipts : List Event} {start total : Nat} (small : total < 2 ^ 53) :
    added (.finite start) receipts = .finite total ↔ start + worth receipts = total := by
  induction receipts generalizing start with
  | nil => simp [added, worth]
  | cons first rest induction =>
    have split : worth (first :: rest) = (zapSats first.tags).worth + worth rest := by
      simp [worth]
    have step : added (.finite start) (first :: rest) =
        added (Count.add (.finite start) (zapSats first.tags)) rest := rfl
    rw [split, step]
    have large := overflow_large
    cases amount : zapSats first.tags with
    | infinity =>
      rw [Count.add_infinity, added_infinity, Count.worth]
      constructor
      · intro same
        cases same
      · intro same
        omega
    | finite value =>
      rw [Count.add, Count.ofNat, Count.worth]
      split
      · next beyond =>
        rw [added_infinity]
        constructor
        · intro same
          cases same
        · intro same
          have exact_ : nearestDouble (start + value) = start + value :=
            nearestDouble_of_le (by omega)
          omega
      · rw [induction]
        constructor
        · intro same
          have exact_ : nearestDouble (start + value) = start + value := nearestDouble_eq (by omega)
          omega
        · intro same
          have exact_ : nearestDouble (start + value) = start + value :=
            nearestDouble_of_le (by omega)
          omega

theorem added_eq_iff {receipts others : List Event}
    (small : worth receipts < 2 ^ 53 ∨ worth others < 2 ^ 53) :
    added (.finite 0) receipts = added (.finite 0) others ↔ worth receipts = worth others := by
  rcases small with small | small
  · rw [(added_iff small).mpr (Nat.zero_add _), eq_comm, added_iff small, Nat.zero_add, eq_comm]
  · rw [(added_iff small).mpr (Nat.zero_add _), added_iff small, Nat.zero_add]

theorem get_fetchEngagement_eq_iff {held : List Event} {others : List Units}
    {delivered delivered' : List Delivery} (distinct : (held.map Event.id).Nodup)
    (asked : note ∈ noteIds) (asked' : note ∈ others)
    (answered : AnsweredInFull held noteIds delivered)
    (answered' : AnsweredInFull held others delivered') :
    (fetchEngagement noteIds delivered).get note = (fetchEngagement others delivered').get note ↔
      EvenlyCaptured noteIds others note held delivered delivered' := by
  have perm := perm_uncaptured distinct asked answered
  have perm' := perm_uncaptured distinct asked' answered'
  have counts : ∀ interest : Interest, (uncaptured noteIds note interest delivered).length =
      (uncaptured others note interest delivered').length ↔
        (capturedOnly noteIds others note interest held).length =
          (capturedOnly others noteIds note interest held).length := by
    intro interest
    have whole := @sum_captured held (fun _ => 1) (interest.meant note) (captured noteIds note)
      (captured others note)
    rw [← length_eq_sum, ← length_eq_sum, ← length_eq_sum, ← length_eq_sum] at whole
    rw [(perm interest).length_eq, (perm' interest).length_eq, capturedOnly, capturedOnly]
    omega
  have zaps : (added (.finite 0) (uncaptured noteIds note .zaps delivered) =
      added (.finite 0) (uncaptured others note .zaps delivered')) ↔
      if worth (uncaptured noteIds note .zaps delivered) < 2 ^ 53 ∨
          worth (uncaptured others note .zaps delivered') < 2 ^ 53 then
        worth (capturedOnly noteIds others note .zaps held) =
          worth (capturedOnly others noteIds note .zaps held)
      else added (.finite 0) (uncaptured noteIds note .zaps delivered) =
        added (.finite 0) (uncaptured others note .zaps delivered') := by
    split
    · next small =>
      have whole := @sum_captured held (fun event => (zapSats event.tags).worth)
        (Interest.meant .zaps note) (captured noteIds note) (captured others note)
      rw [added_eq_iff small, worth, worth, ((perm .zaps).map _).sum_eq,
        ((perm' .zaps).map _).sum_eq, worth, worth, capturedOnly, capturedOnly]
      omega
    · exact Iff.rfl
  rw [get_uncaptured asked, get_uncaptured asked', Option.some.injEq, Engagement.mk.injEq,
    counts, counts, zaps]
  constructor
  · intro all
    exact ⟨all.1, all.2.1, all.2.2⟩
  · intro even
    exact ⟨even.reactions, even.reposts, even.zaps⟩


/-! ## What the cache shows -/

theorem equalEngagement_lawful (old new : Engagement) (same : equalEngagement old new = true) :
    old = new := by
  simp only [equalEngagement, Bool.and_eq_true, decide_eq_true_eq] at same
  cases old
  cases new
  simp_all

theorem foldl_put_of_not_mem {now : Nat} {entries : List (Units × Engagement)}
    (absent : ∀ cur, (note, cur) ∉ entries) (store : Store) :
    ((entries.foldl (fun store entry => (store.put equalEngagement now entry.1 entry.2).1)
      store).slot note).value = (store.slot note).value := by
  induction entries generalizing store with
  | nil => rfl
  | cons entry rest induction =>
    have other : note ≠ entry.1 := by
      intro same
      exact absent entry.2 (by simp [same])
    rw [List.foldl_cons, induction fun cur member => absent cur (List.mem_cons_of_mem _ member),
      Slots.value_put equalEngagement_lawful, if_neg other]

theorem value_publish {now : Nat} {result : OrderedMap Units Engagement}
    (reported : result.get note = some cur) (store : Store) :
    ((publish now result store).slot note).value = some cur := by
  obtain ⟨before, after, split, _, later⟩ := OrderedMap.entries_split reported
  rw [publish, split, List.foldl_append, List.foldl_cons, foldl_put_of_not_mem,
    Slots.value_put equalEngagement_lawful, if_pos rfl]
  intro other member
  exact later _ member rfl

theorem getEngagement_batch (asked : note ∈ noteIds) (delivered : List Delivery)
    (others : Store → Store) (start now : Nat) (store : Store) :
    some (getEngagement (fetchEngagementBatch noteIds delivered others start now store) note) =
      (fetchEngagement noteIds delivered).get note := by
  have filled : noteIds ≠ [] := List.ne_nil_of_mem asked
  have reported := get_uncaptured asked delivered
  rw [fetchEngagementBatch, if_neg filled, getEngagement, value_publish reported, reported]
  rfl

/-- What is reported of a note, and what the cache shows of it, is the same from two batches just
when the rest of each captures as much of what is meant for it. -/
theorem fetchEngagement_iff {held : List Event} {noteIds others : List Units} {note : Units}
    {delivered delivered' : List Delivery} (distinct : (held.map Event.id).Nodup)
    (asked : note ∈ noteIds) (asked' : note ∈ others)
    (answered : AnsweredInFull held noteIds delivered)
    (answered' : AnsweredInFull held others delivered') (meanwhile meanwhile' : Store → Store)
    (start now start' now' : Nat) (store store' : Store) :
    ((fetchEngagement noteIds delivered).get note = (fetchEngagement others delivered').get note ∧
      getEngagement (fetchEngagementBatch noteIds delivered meanwhile start now store) note =
        getEngagement (fetchEngagementBatch others delivered' meanwhile' start' now' store') note) ↔
      EvenlyCaptured noteIds others note held delivered delivered' := by
  have shown := getEngagement_batch asked delivered meanwhile start now store
  have shown' := getEngagement_batch asked' delivered' meanwhile' start' now' store'
  rw [← get_fetchEngagement_eq_iff distinct asked asked' answered answered', ← shown, ← shown',
    Option.some.injEq, and_self]

/-! ## A reply -/

def fullAnswer (held : List Event) (noteIds : List Units) : List Delivery :=
  [Interest.reactions, .reposts, .zaps].flatMap fun interest =>
    (held.filter (interest.matches noteIds)).map fun event => (interest, event)

theorem answered_fullAnswer (held : List Event) (noteIds : List Units) :
    AnsweredInFull held noteIds (fullAnswer held noteIds) := by
  intro delivery
  obtain ⟨interest, event⟩ := delivery
  cases interest <;> simp [fullAnswer, and_comm]

/-- A reaction to the second of two notes, which names the first as the root of the thread. -/
def replyReaction : Event :=
  { id := [1]
    kind := 7
    tags := [[E_TAG, Units.ofString "root"], [E_TAG, Units.ofString "reply"]]
    content := Units.ofString "+" }

theorem fetchEngagement_iff_reply :
    (fetchEngagement [Units.ofString "reply"]
        (fullAnswer [replyReaction] [Units.ofString "reply"])).get (Units.ofString "reply") =
      (fetchEngagement [Units.ofString "reply", Units.ofString "other"]
        (fullAnswer [replyReaction] [Units.ofString "reply", Units.ofString "other"])).get
          (Units.ofString "reply") :=
  ((fetchEngagement_iff (by decide) (by decide) (by decide) (answered_fullAnswer _ _)
    (answered_fullAnswer _ _) id id 0 0 0 0 ∅ ∅).mpr
      ⟨by decide, by decide, by decide⟩).1

/-- Beside the root of its thread a reply loses its reaction. -/
theorem reaction_lost :
    ([replyReaction].map Event.id).Nodup ∧
      AnsweredInFull [replyReaction] [Units.ofString "reply"]
        (fullAnswer [replyReaction] [Units.ofString "reply"]) ∧
      AnsweredInFull [replyReaction] [Units.ofString "root", Units.ofString "reply"]
        (fullAnswer [replyReaction] [Units.ofString "root", Units.ofString "reply"]) ∧
      (fetchEngagement [Units.ofString "reply"]
          (fullAnswer [replyReaction] [Units.ofString "reply"])).get (Units.ofString "reply") =
        some ⟨1, 0, .finite 0⟩ ∧
      (fetchEngagement [Units.ofString "root", Units.ofString "reply"]
          (fullAnswer [replyReaction] [Units.ofString "root", Units.ofString "reply"])).get
            (Units.ofString "reply") =
        some ⟨0, 0, .finite 0⟩ :=
  ⟨by decide, answered_fullAnswer _ _, answered_fullAnswer _ _, by decide, by decide⟩

end NostrWot.Feed
