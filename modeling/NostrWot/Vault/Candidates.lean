import Mathlib
import NostrWot.Data.OrderedMap
import NostrWot.Vault.PasskeyStore

namespace NostrWot.Vault.Candidates

/-! # Records on relays

Which of the records that relays hold for a passkey are found, and which is opened.
-/

open Data

structure RecoveryEvent where
  id : Units
  pubkey : Units
  created_at : Int
  kind : Nat
  tags : List (List Units)
  content : Units
  sig : Units
  deriving DecidableEq

/-! ## Each author's newest event -/

/-- The code units of an id, which strings are compared by. -/
def spelling (id : Units) : List Nat := id.map UInt16.toNat

def newer (event current : RecoveryEvent) : Bool :=
  current.created_at < event.created_at ||
    event.created_at = current.created_at && spelling event.id < spelling current.id

/-- Newest first; ids are lowercase hex, which `localeCompare` takes in this order too. -/
def before (left right : RecoveryEvent) : Bool :=
  right.created_at < left.created_at ||
    left.created_at = right.created_at && spelling left.id ≤ spelling right.id

def keepNewest (check : RecoveryEvent → Bool) (keepAll : Bool)
    (newest : OrderedMap Units RecoveryEvent) (event : RecoveryEvent) :
    OrderedMap Units RecoveryEvent :=
  let coordinate := if keepAll then event.id else event.pubkey
  if check event && (newest.get coordinate).all (newer event) then newest.set coordinate event
  else newest

/-- What the queries brought: nothing where one failed, and nothing of a longer reply. -/
def heard (replies : List (Option (List RecoveryEvent))) : List RecoveryEvent :=
  replies.flatMap fun reply => (reply.filter fun events => events.length ≤ 32).getD []

def queryNewest (check : RecoveryEvent → Bool) (keepAll : Bool)
    (replies : List (Option (List RecoveryEvent))) : List RecoveryEvent :=
  ((heard replies).foldl (keepNewest check keepAll) ∅).values.mergeSort before

/-- Where an event stands, the newest first. -/
def rank (event : RecoveryEvent) : Intᵒᵈ ×ₗ List Nat :=
  toLex (OrderDual.toDual event.created_at, spelling event.id)

theorem newer_iff {event current : RecoveryEvent} :
    newer event current = true ↔ rank event < rank current := by
  simp [newer, rank, Prod.Lex.toLex_lt_toLex]

theorem before_iff {left right : RecoveryEvent} :
    before left right = true ↔ rank left ≤ rank right := by
  simp [before, rank, Prod.Lex.toLex_le_toLex]

/-- An accepted event hashes to its id. -/
def Authentic (check : RecoveryEvent → Bool) : Prop :=
  ∀ event other, check event = true → check other = true → event.id = other.id → event = other

/-- Of what is accepted of its author, the event is the newest. -/
structure IsNewest (check : RecoveryEvent → Bool) (events : List RecoveryEvent)
    (event : RecoveryEvent) : Prop where
  among : event ∈ events
  accepted : check event = true
  newest : ∀ other ∈ events, check other = true → other.pubkey = event.pubkey →
    rank event ≤ rank other

structure Holds (check : RecoveryEvent → Bool) (events : List RecoveryEvent)
    (map : OrderedMap Units RecoveryEvent) : Prop where
  absent : ∀ author, map.get author = none → ∀ other ∈ events, check other = true →
    other.pubkey ≠ author
  held : ∀ author event, map.get author = some event → event.pubkey = author ∧
    IsNewest check events event

variable {check : RecoveryEvent → Bool} {events : List RecoveryEvent}
  {map : OrderedMap Units RecoveryEvent} {event other : RecoveryEvent}

theorem rank_inj (authentic : Authentic check) (accepted : check event = true)
    (accepted' : check other = true) (same : rank event = rank other) : event = other := by
  refine authentic _ _ accepted accepted' ?_
  have spelled : spelling event.id = spelling other.id := congrArg (fun rank => (ofLex rank).2) same
  exact List.map_injective_iff.mpr (fun _ _ => UInt16.toNat_inj.mp) spelled

theorem IsNewest.append (newest : IsNewest check events event)
    (last : check other = true → other.pubkey = event.pubkey → rank event ≤ rank other) :
    IsNewest check (events ++ [other]) event := by
  refine ⟨List.mem_append_left _ newest.among, newest.accepted, fun later among => ?_⟩
  rcases List.mem_append.mp among with old | new
  · exact newest.newest later old
  · exact List.mem_singleton.mp new ▸ last

theorem Holds.step (holds : Holds check events map) (event : RecoveryEvent) :
    Holds check (events ++ [event]) (keepNewest check false map event) := by
  unfold keepNewest
  simp only [Bool.false_eq_true, if_false]
  split
  · next kept =>
    obtain ⟨accepted, newest⟩ := (Bool.and_eq_true _ _).mp kept
    constructor
    · intro author none_ other among accepted' same
      rw [OrderedMap.get_set] at none_
      split at none_
      · cases none_
      · next differs =>
        rcases List.mem_append.mp among with old | new
        · exact holds.absent author none_ other old accepted' same
        · exact differs (same ▸ List.mem_singleton.mp new ▸ rfl)
    · intro author held is
      rw [OrderedMap.get_set] at is
      split at is
      · next same =>
        cases is
        refine ⟨same.symm, by simp, accepted, fun other among accepted' own => ?_⟩
        rcases List.mem_append.mp among with old | new
        · cases current : map.get event.pubkey with
          | none => exact absurd own (holds.absent _ current other old accepted')
          | some current_ =>
            rw [current, Option.all_some, newer_iff] at newest
            obtain ⟨owner, least⟩ := holds.held _ _ current
            exact newest.le.trans (least.newest other old accepted' (own.trans owner.symm))
        · rw [List.mem_singleton.mp new]
      · next differs =>
        obtain ⟨owner, least⟩ := holds.held author held is
        exact ⟨owner, least.append fun _ same => absurd (same.trans owner).symm differs⟩
  · next dropped =>
    rw [Bool.and_eq_true, not_and] at dropped
    constructor
    · intro author none_ other among accepted' same
      rcases List.mem_append.mp among with old | new
      · exact holds.absent author none_ other old accepted' same
      · cases List.mem_singleton.mp new
        rw [same, none_] at dropped
        exact dropped accepted' rfl
    · intro author held is
      obtain ⟨owner, least⟩ := holds.held author held is
      refine ⟨owner, least.append fun accepted' same => ?_⟩
      have older := dropped accepted'
      rw [same, owner, is, Option.all_some, newer_iff] at older
      exact not_lt.mp older

theorem holds_fold (events : List RecoveryEvent) :
    Holds check events (events.foldl (keepNewest check false) ∅) := by
  induction events using List.reverseRecOn with
  | nil => exact ⟨by simp, by simp⟩
  | append_singleton events event ih =>
    rw [List.foldl_append]
    exact ih.step event

theorem mem_queryNewest (authentic : Authentic check)
    {replies : List (Option (List RecoveryEvent))} :
    event ∈ queryNewest check false replies ↔ IsNewest check (heard replies) event := by
  have holds := @holds_fold check (heard replies)
  rw [queryNewest, List.mem_mergeSort, OrderedMap.values, List.mem_map]
  constructor
  · rintro ⟨entry, among, rfl⟩
    exact (holds.held entry.1 entry.2 (OrderedMap.get_eq_some.mpr among)).2
  · intro newest
    cases current : OrderedMap.get _ event.pubkey with
    | none => exact absurd rfl (holds.absent _ current event newest.among newest.accepted)
    | some kept =>
      obtain ⟨owner, least⟩ := holds.held _ _ current
      have same : rank event = rank kept := le_antisymm
        (newest.newest kept least.among least.accepted owner)
        (least.newest event newest.among newest.accepted owner.symm)
      cases rank_inj authentic newest.accepted least.accepted same
      exact ⟨_, OrderedMap.get_eq_some.mp current, rfl⟩

theorem sorted_queryNewest (authentic : Authentic check)
    (replies : List (Option (List RecoveryEvent))) :
    (queryNewest check false replies).Pairwise fun left right => rank left < rank right := by
  have holds := @holds_fold check (heard replies)
  have sorted : (queryNewest check false replies).Pairwise fun left right =>
      before left right = true := by
    refine List.pairwise_mergeSort ?_ ?_ _
    · intro first second third
      simpa only [before_iff] using le_trans
    · intro first second
      simpa only [Bool.or_eq_true, before_iff] using le_total _ _
  have apart : (queryNewest check false replies).Nodup := by
    refine (List.mergeSort_perm _ _).nodup_iff.mpr ?_
    refine List.Nodup.map_on ?_ (List.Nodup.of_map Prod.fst (OrderedMap.nodup _))
    intro first among second among' same
    have owner := (holds.held _ _ (OrderedMap.get_eq_some.mpr among)).1
    have owner' := (holds.held _ _ (OrderedMap.get_eq_some.mpr among')).1
    exact Prod.ext (owner.symm.trans ((congrArg _ same).trans owner')) same
  refine (sorted.and apart).imp_of_mem fun {left right} among among' both => ?_
  refine lt_of_le_of_ne (before_iff.mp both.1) fun same => both.2 ?_
  exact rank_inj authentic ((mem_queryNewest authentic).mp among).accepted
    ((mem_queryNewest authentic).mp among').accepted same

/-! ## The records of a passkey -/

def RECOVERY_EVENT_KIND : Nat := 31777

def STORED_RECOVERY_EVENT_KIND : Nat := 31778

def typeName : StoredPayloadType → Units
  | .key => Units.ofString "key"
  | .seed => Units.ofString "seed"
  | .vault => Units.ofString "vault"

def isNamed (name : String) (tag : List Units) : Bool := tag.head? = some (Units.ofString name)

/-- `text.split(':')[1]`. -/
def secondPart (text : Units) : Option Units :=
  if text.contains 58 then some ((text.dropWhile (· ≠ 58)).tail.takeWhile (· ≠ 58)) else none

/-- The type that an event's `d` tag says. -/
def typeOf (event : RecoveryEvent) : Option Units :=
  ((event.tags.find? (isNamed "d")).bind (·[1]?)).bind secondPart

structure Lookup where
  packages : Packages
  base64urlnopad : Bytes → Units
  credentialId : Units
  rpId : Units
  author : Option Units
  verify : RecoveryEvent → Bool

/-- What the packages document: no URL-safe base64 has a colon, and a signature is of one event. -/
structure Lookup.Lawful (lookup : Lookup) : Prop where
  plain : ∀ bytes, 58 ∉ lookup.base64urlnopad bytes
  authentic : Authentic lookup.verify

variable (lookup : Lookup)

def tagsOf (id : Units) (type : StoredPayloadType) (legacy : Bool) : List (List Units) :=
  let name := Units.ofString
  let d := [name "d", id ++ 58 :: typeName type]
  let rp := [name "rp", lookup.rpId]
  if legacy then [d, [name "credential", id], [name "v", name "npk1"], rp,
    [name "type", typeName type]]
  else [d, rp]

/-- No tag is missing, duplicated or different. -/
def carries (event : RecoveryEvent) (want : List Units) : Bool :=
  event.tags.filter (fun tag => tag.head? = want.head?) = [want]

def isBounded (tags : List (List Units)) : Bool :=
  tags.length ≤ 32 && tags.all fun tag =>
    tag ≠ [] && tag.length ≤ 8 && tag.all fun value => value.length ≤ 2048

def eligibleEvent (type : StoredPayloadType) (event : RecoveryEvent) : Bool :=
  let author := lookup.author.getD event.pubkey
  let legacy := event.kind = RECOVERY_EVENT_KIND
  event.pubkey = author && 0 ≤ event.created_at && event.created_at < 2 ^ 53 &&
    isHex64 event.id && (event.sig.length = 128 && event.sig.all isHexUnit) &&
    (if legacy then isBounded event.tags
      else event.kind = STORED_RECOVERY_EVENT_KIND && type ≠ .seed && !event.tags.any (isNamed "v")) &&
    (credential lookup.packages ⟨lookup.credentialId, lookup.rpId, author⟩).any (fun bytes =>
      ((tagsOf lookup (lookup.base64urlnopad bytes) type legacy).filter fun want =>
        legacy || isNamed "d" want || event.tags.any (isNamed "rp")).all (carries event)) &&
    lookup.verify event

inductive Source where
  | passkey
  | relays
  deriving DecidableEq

structure StoredRecordCandidate where
  record : Bytes
  author : Units
  source : Source
  event : Option RecoveryEvent

/-- The record of an event that was found under a type; none is empty. -/
def recordOf (type : StoredPayloadType) (event : RecoveryEvent) : Bytes :=
  ((lookup.packages.base64ToBytes event.content).filter fun record =>
    event.content.length ≤ 4 * ((MAX_RECORD_BYTES + 2) / 3) &&
      lookup.packages.bytesToBase64 record = event.content && recordType record = some type &&
      (event.kind = RECOVERY_EVENT_KIND || type ≠ .seed)).getD []

/-- Relays that are not asked bring no replies. -/
def findStoredRecords (blob : Option Bytes)
    (replies : StoredPayloadType → List (Option (List RecoveryEvent))) :
    List StoredRecordCandidate :=
  let provided := (blob.filter isStoredRecord).bind fun record =>
    (lookup.author.filter (· ≠ [])).map fun author => ⟨record, author, .passkey, none⟩
  provided.toList ++ [.vault, .key, .seed].flatMap fun type =>
    (queryNewest (eligibleEvent lookup type) (type = .key) (replies type)).map fun event =>
      ⟨recordOf lookup type event, event.pubkey, .relays, some event⟩

/-- What `openStoredRecord` makes of a record with one PRF output; `none` is a mismatched author. -/
structure Opening (π : Type) where
  opens : Bytes → Units → Except (Option Unit) π
  type : π → StoredPayloadType
  updatedAt : π → Nat

structure Opened (π : Type) where
  payload : π
  author : Units
  source : Source
  event : Option RecoveryEvent

structure Openings (π : Type) where
  best : Option (Opened π) := none
  authorError : Bool := false
  seen : List Units := []

variable {π : Type} (opening : Opening π) (author : Option Units)

def replaces (payload : π) (best : Opened π) : Bool :=
  opening.type payload = .vault && (opening.type best.payload ≠ .vault ||
    opening.updatedAt best.payload < opening.updatedAt payload)

def tryCandidate (state : Openings π) (candidate : StoredRecordCandidate) : Openings π :=
  let own := (recordType candidate.record).map typeName
  if (author.filter (· ≠ [])).any (· ≠ candidate.author) then state
  else match (candidate.event.bind typeOf).or own with
    | none => state
    | some type =>
      let coordinate := candidate.author ++ 58 :: type
      if candidate.source = .relays && type ≠ typeName .key && state.seen.contains coordinate then
        state
      else
        let seen := if candidate.source = .relays then coordinate :: state.seen else state.seen
        if own ≠ some type then { state with seen }
        else match opening.opens candidate.record candidate.author with
          | .error reason =>
            { state with seen, authorError := state.authorError || reason.isNone }
          | .ok payload =>
            if state.best.all (replaces opening payload) then { state with
              seen, best := some ⟨payload, candidate.author, candidate.source, candidate.event⟩ }
            else { state with seen }

/-- The payload to use, if any; `none` is the error of a mismatched author. -/
def openStoredRecords (candidates : List StoredRecordCandidate) : Option (Option (Opened π)) :=
  let final := candidates.foldl (tryCandidate opening author) {}
  if final.best.isNone && final.authorError then none else some final.best

variable {lookup} {opening} {author}

theorem typeOf_eligible (lawful : lookup.Lawful) {type : StoredPayloadType}
    (eligible : eligibleEvent lookup type event = true) : typeOf event = some (typeName type) := by
  simp only [eligibleEvent, Bool.and_eq_true] at eligible
  obtain ⟨bytes, -, carried⟩ := Option.any_eq_true _ _ |>.mp eligible.1.2
  have tagged : carries event [Units.ofString "d",
      lookup.base64urlnopad bytes ++ 58 :: typeName type] = true := by
    refine List.all_eq_true.mp carried _ (List.mem_filter.mpr ⟨?_, by simp [isNamed]⟩)
    unfold tagsOf
    split <;> exact List.mem_cons_self
  have first : event.tags.find? (isNamed "d") =
      some [Units.ofString "d", lookup.base64urlnopad bytes ++ 58 :: typeName type] := by
    rw [← List.head?_filter]
    exact congrArg List.head? (of_decide_eq_true tagged)
  have plain : ∀ unit ∈ lookup.base64urlnopad bytes, unit ≠ 58 :=
    fun unit among same => lawful.plain bytes (same ▸ among)
  have dropped : (lookup.base64urlnopad bytes ++ 58 :: typeName type).dropWhile (· ≠ 58) =
      58 :: typeName type := by
    rw [List.dropWhile_append_of_pos fun unit among => decide_eq_true (plain unit among)]
    rfl
  have named : (typeName type).takeWhile (· ≠ 58) = typeName type := by
    cases type <;> decide
  rw [typeOf, first, Option.bind_some]
  simp only [List.getElem?_cons_succ, List.getElem?_cons_zero, Option.bind_some, secondPart, dropped,
    List.tail_cons, named]
  simp

theorem best_among (candidates : List StoredRecordCandidate) {found : Opened π} :
    ∀ state : Openings π, (candidates.foldl (tryCandidate opening author) state).best = some found →
      state.best = some found ∨ ∃ candidate ∈ candidates, found.event = candidate.event := by
  induction candidates with
  | nil => exact fun _ => .inl
  | cons candidate rest ih =>
    intro state is
    rcases ih _ is with before | ⟨later, among, same⟩
    · unfold tryCandidate at before
      dsimp only at before
      repeat' split at before
      all_goals first
        | exact .inl before
        | exact .inr ⟨candidate, List.mem_cons_self, (Option.some.inj before) ▸ rfl⟩
    · exact .inr ⟨later, List.mem_cons_of_mem _ among, same⟩

theorem found_newest {blob : Option Bytes}
    {replies : StoredPayloadType → List (Option (List RecoveryEvent))}
    {candidate : StoredRecordCandidate} (among : candidate ∈ findStoredRecords lookup blob replies)
    (is : candidate.event = some event) :
    ∃ type, event ∈ queryNewest (eligibleEvent lookup type) (type = .key) (replies type) := by
  rcases List.mem_append.mp among with provided | relayed
  · obtain ⟨record, -, of⟩ := Option.bind_eq_some_iff.mp (Option.mem_toList.mp provided)
    obtain ⟨author, -, rfl⟩ := Option.map_eq_some_iff.mp of
    cases is
  · obtain ⟨type, -, inside⟩ := List.mem_flatMap.mp relayed
    obtain ⟨one, newest, rfl⟩ := List.mem_map.mp inside
    cases is
    exact ⟨type, newest⟩

theorem accepted_of_found {keepAll : Bool} {replies : List (Option (List RecoveryEvent))}
    (among : event ∈ queryNewest check keepAll replies) : check event = true := by
  rw [queryNewest, List.mem_mergeSort] at among
  have all : ∀ value ∈ ((heard replies).foldl (keepNewest check keepAll) ∅).values,
      check value = true := by
    induction heard replies using List.reverseRecOn with
    | nil => simp [OrderedMap.values]
    | append_singleton events last ih =>
      intro value inside
      rw [List.foldl_append, List.foldl_cons, List.foldl_nil, keepNewest] at inside
      generalize (if keepAll then last.id else last.pubkey) = coordinate at inside
      split at inside
      · next kept =>
        obtain ⟨entry, held, rfl⟩ := List.mem_map.mp inside
        rcases OrderedMap.mem_set.mp held with ⟨-, same⟩ | ⟨-, old⟩
        · exact same ▸ ((Bool.and_eq_true _ _).mp kept).1
        · exact ih _ (List.mem_map_of_mem old)
      · exact ih value inside
  exact all event among

def sampleEvent (type : StoredPayloadType) (created_at : Int) : RecoveryEvent where
  id := List.replicate 64 48
  pubkey := List.replicate 64 49
  created_at
  kind := STORED_RECOVERY_EVENT_KIND
  tags := [[Units.ofString "d", Units.ofString "AQ:" ++ typeName type]]
  content := []
  sig := List.replicate 128 50

def sampleLookup : Lookup where
  packages := plainPackages
  base64urlnopad _ := Units.ofString "AQ"
  credentialId := Units.ofString "AQ=="
  rpId := Units.ofString "localhost"
  author := none
  verify event := event = sampleEvent .vault 2

theorem sampleLookup_lawful : sampleLookup.Lawful where
  plain _ := by
    show 58 ∉ Units.ofString "AQ"
    decide
  authentic _ _ one two _ := (of_decide_eq_true one).trans (of_decide_eq_true two).symm

/-- A passkey whose output opens keys. -/
def keysOnly : Opening Unit where
  opens record _ := if recordType record = some .key then .ok () else .error (some ())
  type _ := .key
  updatedAt _ := 0

def sampleCandidate (type : StoredPayloadType) (created_at : Int) : StoredRecordCandidate where
  record := HEADER ++ [TYPES type] ++ List.replicate 92 0
  author := List.replicate 64 49
  source := .relays
  event := some (sampleEvent type created_at)

end NostrWot.Vault.Candidates
