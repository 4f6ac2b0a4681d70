import NostrWot.Data.JsonText
import NostrWot.Data.OrderedMap
import NostrWot.Data.Utf16
import Mathlib.Data.Option.Defs
import Mathlib.Data.List.Perm.Basic
import Mathlib.Data.List.Sort

namespace NostrWot.Relay

open NostrWot.Data

/-! # Filters and what relays answer -/

structure NostrEvent where
  id : String
  pubkey : String
  kind : Int
  created_at : Int
  tags : List (List String)
  deriving DecidableEq

/-- A property of its own, which may be there with `undefined`. -/
abbrev Own (α : Type) : Type := Option (Option α)

structure NostrFilter where
  ids : Own (List String) := none
  kinds : Own (List Int) := none
  authors : Own (List String) := none
  since : Own Int := none
  until_ : Own Int := none
  limit : Own Int := none
  search : Own String := none
  /-- The properties whose names are `#` and one of these. -/
  tags : OrderedMap String (Option (List String)) := ∅
  deriving DecidableEq

def NostrFilter.keys (filter : NostrFilter) : List String :=
  (if filter.ids.isSome then ["ids"] else []) ++
    (if filter.kinds.isSome then ["kinds"] else []) ++
    (if filter.authors.isSome then ["authors"] else []) ++
    (if filter.since.isSome then ["since"] else []) ++
    (if filter.until_.isSome then ["until"] else []) ++
    (if filter.limit.isSome then ["limit"] else []) ++
    (if filter.search.isSome then ["search"] else []) ++
    filter.tags.keys.map ("#" ++ ·)

/-! ## What a relay answers -/

def tagged (event : NostrEvent) (name : String) (values : List String) : Bool :=
  event.tags.any fun tag => tag[0]? = some name && tag[1]?.any (· ∈ values)

/-- NIP-01; `found` is the relay's own search. -/
def matchFilter (found : String → NostrEvent → Bool) (filter : NostrFilter) (event : NostrEvent) :
    Bool :=
  filter.ids.join.all (event.id ∈ ·) && filter.kinds.join.all (event.kind ∈ ·) &&
    filter.authors.join.all (event.pubkey ∈ ·) &&
    filter.since.join.all (· ≤ event.created_at) && filter.until_.join.all (event.created_at ≤ ·) &&
    filter.search.join.all (found · event) &&
    filter.tags.entries.all fun tag => tag.2.all (tagged event tag.1)

structure RelayStore where
  events : List NostrEvent
  found : String → NostrEvent → Bool

def newestFirst (left right : NostrEvent) : Bool :=
  right.created_at < left.created_at ||
    left.created_at = right.created_at && unitsLe left.id right.id

def RelayStore.answer (relay : RelayStore) (filter : NostrFilter) : List NostrEvent :=
  let matching := (relay.events.filter (matchFilter relay.found filter)).insertionSort
    fun left right => newestFirst left right
  match filter.limit.join with
  | some limit => matching.take limit.toNat
  | none => matching

variable {filter : NostrFilter} {event : NostrEvent}

theorem RelayStore.mem_answer {relay : RelayStore} (answered : event ∈ relay.answer filter) :
    event ∈ relay.events ∧ matchFilter relay.found filter event = true := by
  unfold RelayStore.answer at answered
  dsimp only at answered
  split at answered
  · have among := List.mem_of_mem_take answered
    rw [List.mem_insertionSort] at among
    exact List.mem_filter.mp among
  · rw [List.mem_insertionSort] at answered
    exact List.mem_filter.mp answered

theorem RelayStore.mem_answer_unlimited {relay : RelayStore} (unlimited : filter.limit.join = none)
    (stored : event ∈ relay.events) (asked : matchFilter relay.found filter event = true) :
    event ∈ relay.answer filter := by
  unfold RelayStore.answer
  dsimp only
  rw [unlimited]
  exact (List.mem_insertionSort _).mpr (List.mem_filter.mpr ⟨stored, asked⟩)

/-! ## The dedup key -/

variable (numbers : Json.NumberText)

def sortTexts (texts : List String) : List String := 
  texts.insertionSort fun left right => unitsLe left right

/-- `[...numbers].sort()`, which compares their texts. -/
def sortNumbers (values : List Int) : List Int :=
  values.insertionSort fun left right => unitsLe (String.ofList (numbers.digits left))
    (String.ofList (numbers.digits right))

def textArray (texts : List String) : Json.Flat :=
  .array ((sortTexts texts).map Json.Scalar.text)

def numberArray (values : List Int) : Json.Flat :=
  .array ((sortNumbers numbers values).map fun value : Int => Json.Scalar.number (value : Rat))

/-- The properties that `JSON.stringify` writes. -/
def NostrFilter.fields (filter : NostrFilter) : List (String × Json.Flat) :=
  (filter.ids.join.map fun ids => ("ids", textArray ids)).toList ++
    (filter.kinds.join.map fun kinds => ("kinds", numberArray numbers kinds)).toList ++
    (filter.authors.join.map fun authors => ("authors", textArray authors)).toList ++
    (filter.since.join.map fun since => ("since", .scalar (.number since))).toList ++
    (filter.until_.join.map fun until_ => ("until", .scalar (.number until_))).toList ++
    (filter.limit.join.map fun limit => ("limit", .scalar (.number limit))).toList ++
    (filter.search.join.map fun search => ("search", .scalar (.text search))).toList ++
    filter.tags.entries.filterMap fun tag => tag.2.map fun values =>
      ("#" ++ tag.1, textArray values)

def canonicalFields (filter : NostrFilter) : List (String × Json.Flat) :=
  (filter.fields numbers).insertionSort fun left right => unitsLe left.1 right.1

def sortedJoin (texts : List String) : List Char :=
  [','].intercalate ((sortTexts texts).map String.toList)

def dedupKey (urls : List String) (filter : NostrFilter) : List Char :=
  sortedJoin urls ++ '|' :: Json.objectText numbers (canonicalFields numbers filter)

/-! ## What a key says -/

structure SameFilter (left right : NostrFilter) : Prop where
  ids : Option.Rel List.Perm left.ids.join right.ids.join
  kinds : Option.Rel List.Perm left.kinds.join right.kinds.join
  authors : Option.Rel List.Perm left.authors.join right.authors.join
  since : left.since.join = right.since.join
  until_ : left.until_.join = right.until_.join
  limit : left.limit.join = right.limit.join
  search : left.search.join = right.search.join
  tags : ∀ name, Option.Rel List.Perm (left.tags.get name).join (right.tags.get name).join

variable {numbers} {left right : NostrFilter}

theorem all_congr {α : Type} {test : List α → Bool} {first second : Option (List α)}
    (same : Option.Rel List.Perm first second)
    (stable : ∀ left right : List α, left.Perm right → test left = test right) :
    first.all test = second.all test := by
  cases same with
  | some perm => exact stable _ _ perm
  | none => rfl

theorem decide_mem_perm {α : Type} [DecidableEq α] (value : α) (left right : List α)
    (perm : left.Perm right) : decide (value ∈ left) = decide (value ∈ right) :=
  decide_eq_decide.mpr perm.mem_iff

theorem tagged_perm (event : NostrEvent) (name : String) (left right : List String)
    (perm : left.Perm right) : tagged event name left = tagged event name right := by
  unfold tagged
  refine congrArg (List.any event.tags) (funext fun tag => ?_)
  refine congrArg (_ && ·) (congrArg (Option.any · _) (funext fun value => ?_))
  exact decide_mem_perm value left right perm

theorem tags_all :
    (filter.tags.entries.all fun tag => tag.2.all (tagged event tag.1)) = true ↔
      ∀ name, ((filter.tags.get name).join.all (tagged event name)) = true := by
  rw [List.all_eq_true]
  constructor
  · intro all name
    cases held : filter.tags.get name with
    | none => rfl
    | some values => exact all (name, values) (OrderedMap.get_eq_some.mp held)
  · intro all tag member
    have asked := all tag.1
    rw [OrderedMap.get_eq_some.mpr member] at asked
    exact asked

theorem SameFilter.matchFilter (same : SameFilter left right) (found : String → NostrEvent → Bool)
    (event : NostrEvent) : matchFilter found left event = matchFilter found right event := by
  have tags : (left.tags.entries.all fun tag => tag.2.all (tagged event tag.1)) =
      right.tags.entries.all fun tag => tag.2.all (tagged event tag.1) := by
    rw [Bool.eq_iff_iff, tags_all, tags_all]
    refine forall_congr' fun name => ?_
    rw [all_congr (same.tags name) (tagged_perm event name)]
  unfold Relay.matchFilter
  rw [all_congr same.ids (decide_mem_perm event.id), all_congr same.kinds (decide_mem_perm event.kind),
    all_congr same.authors (decide_mem_perm event.pubkey), same.since, same.until_, same.search, tags]

theorem SameFilter.answer (same : SameFilter left right) (relay : RelayStore) :
    relay.answer left = relay.answer right := by
  have matching : Relay.matchFilter relay.found left = Relay.matchFilter relay.found right :=
    funext (same.matchFilter relay.found)
  unfold RelayStore.answer
  rw [matching, same.limit]

theorem SameFilter.refl (filter : NostrFilter) : SameFilter filter filter := by
  have self : ∀ {α : Type} (list : Option (List α)), Option.Rel List.Perm list list := by
    intro α list
    cases list with
    | none => exact .none
    | some values => exact .some (List.Perm.refl values)
  exact ⟨self _, self _, self _, rfl, rfl, rfl, rfl, fun _ => self _⟩

/-! ## The properties a key holds -/

theorem hash_ne {name key : String} (plain : key.toList.head? ≠ some '#') : "#" ++ name ≠ key := by
  intro same
  rw [← same] at plain
  exact plain (by simp)

theorem mem_fields {key : String} {value : Json.Flat} :
    (key, value) ∈ filter.fields numbers ↔
      (key = "ids" ∧ filter.ids.join.map textArray = some value) ∨
      (key = "kinds" ∧ filter.kinds.join.map (numberArray numbers) = some value) ∨
      (key = "authors" ∧ filter.authors.join.map textArray = some value) ∨
      (key = "since" ∧ filter.since.join.map (fun time => .scalar (.number time)) = some value) ∨
      (key = "until" ∧ filter.until_.join.map (fun time => .scalar (.number time)) = some value) ∨
      (key = "limit" ∧ filter.limit.join.map (fun limit => .scalar (.number limit)) = some value) ∨
      (key = "search" ∧ filter.search.join.map (fun text => .scalar (.text text)) = some value) ∨
      ∃ name, key = "#" ++ name ∧ (filter.tags.get name).join.map textArray = some value := by
  have one : ∀ {α : Type} (name : String) (make : α → Json.Flat) (property : Option α),
      (key, value) ∈ (property.map fun held => (name, make held)).toList ↔
        key = name ∧ property.map make = some value := by
    intro α name make property
    cases property with
    | none => simp
    | some held => simp [eq_comm]
  have tags : (key, value) ∈ filter.tags.entries.filterMap (fun tag => tag.2.map fun values =>
      ("#" ++ tag.1, textArray values)) ↔
        ∃ name, key = "#" ++ name ∧ (filter.tags.get name).join.map textArray = some value := by
    rw [List.mem_filterMap]
    constructor
    · intro found
      obtain ⟨tag, member, made⟩ := found
      obtain ⟨values, held, same⟩ := Option.map_eq_some_iff.mp made
      cases same
      refine ⟨tag.1, rfl, ?_⟩
      have got : filter.tags.get tag.1 = some (some values) :=
        OrderedMap.get_eq_some.mpr (held ▸ member)
      rw [got]
      rfl
    · intro found
      obtain ⟨name, same, made⟩ := found
      obtain ⟨values, held, same'⟩ := Option.map_eq_some_iff.mp made
      have got : filter.tags.get name = some (some values) := Option.join_eq_some_iff.mp held
      exact ⟨(name, some values), OrderedMap.get_eq_some.mp got, by rw [same, ← same']; rfl⟩
  unfold NostrFilter.fields
  simp only [List.mem_append, one, tags, or_assoc]

theorem textArray_perm {first second : List String} (same : textArray first = textArray second) :
    first.Perm second := by
  have texts : (sortTexts first).map Json.Scalar.text = (sortTexts second).map Json.Scalar.text :=
    Json.Flat.array.inj same
  have sorted : sortTexts first = sortTexts second :=
    List.map_injective_iff.mpr (fun _ _ => Json.Scalar.text.inj) texts
  have one : (sortTexts first).Perm first := List.perm_insertionSort _ first
  have two : (sortTexts second).Perm second := List.perm_insertionSort _ second
  exact one.symm.trans (sorted ▸ two)

theorem numberArray_perm {first second : List Int}
    (same : numberArray numbers first = numberArray numbers second) : first.Perm second := by
  have values := Json.Flat.array.inj same
  have sorted : sortNumbers numbers first = sortNumbers numbers second := by
    refine List.map_injective_iff.mpr (fun left right equal => ?_) values
    exact Rat.intCast_inj.mp (Json.Scalar.number.inj equal)
  have one : (sortNumbers numbers first).Perm first := List.perm_insertionSort _ first
  have two : (sortNumbers numbers second).Perm second := List.perm_insertionSort _ second
  exact one.symm.trans (sorted ▸ two)

theorem rel_of_map {α : Type} {first second : Option (List α)} {make : List α → Json.Flat}
    (perm : ∀ left right, make left = make right → left.Perm right)
    (same : ∀ value, first.map make = some value ↔ second.map make = some value) :
    Option.Rel List.Perm first second := by
  cases first with
  | none =>
    cases second with
    | none => exact .none
    | some values => exact absurd ((same (make values)).mpr rfl) (by simp)
  | some values =>
    obtain ⟨others, held, equal⟩ := Option.map_eq_some_iff.mp ((same (make values)).mp rfl)
    rw [held]
    exact .some (perm values others equal.symm)

theorem eq_of_map {α : Type} {first second : Option α} {make : α → Json.Flat}
    (injective : Function.Injective make)
    (same : ∀ value, first.map make = some value ↔ second.map make = some value) :
    first = second :=
  Option.map_injective injective (Option.ext same)

theorem SameFilter.of_fields (perm : (left.fields numbers).Perm (right.fields numbers)) :
    SameFilter left right := by
  have same : ∀ key value, (key, value) ∈ left.fields numbers ↔ (key, value) ∈ right.fields numbers :=
    fun _ _ => perm.mem_iff
  have number : Function.Injective fun value : Int => Json.Flat.scalar (.number value) := by
    intro first second equal
    exact Rat.intCast_inj.mp (Json.Scalar.number.inj (Json.Flat.scalar.inj equal))
  have text : Function.Injective fun value : String => Json.Flat.scalar (.text value) := by
    intro first second equal
    exact Json.Scalar.text.inj (Json.Flat.scalar.inj equal)
  have apart : ∀ name, ∀ key ∈ ["ids", "kinds", "authors", "since", "until", "limit", "search"],
      "#" ++ name ≠ key := by
    intro name key member
    refine hash_ne ?_
    revert key
    decide
  have hash : ∀ name, ∀ key ∈ ["ids", "kinds", "authors", "since", "until", "limit", "search"],
      key ≠ "#" ++ name := fun name key member equal => apart name key member equal.symm
  simp only [List.forall_mem_cons] at apart hash
  constructor
  · refine rel_of_map (fun _ _ => textArray_perm) fun value => ?_
    simpa [mem_fields, hash] using same "ids" value
  · refine rel_of_map (fun _ _ => @numberArray_perm numbers _ _) fun value => ?_
    simpa [mem_fields, hash] using same "kinds" value
  · refine rel_of_map (fun _ _ => textArray_perm) fun value => ?_
    simpa [mem_fields, hash] using same "authors" value
  · refine eq_of_map number fun value => ?_
    simpa [mem_fields, hash] using same "since" value
  · refine eq_of_map number fun value => ?_
    simpa [mem_fields, hash] using same "until" value
  · refine eq_of_map number fun value => ?_
    simpa [mem_fields, hash] using same "limit" value
  · refine eq_of_map text fun value => ?_
    simpa [mem_fields, hash] using same "search" value
  · intro name
    refine rel_of_map (fun _ _ => textArray_perm) fun value => ?_
    simpa [mem_fields, apart] using same ("#" ++ name) value

/-- Requests of one key ask for the same, unless their lists of relays hide where the key parts. -/
theorem dedupKey_filter {urls others : List String}
    (same : dedupKey numbers urls left = dedupKey numbers others right)
    (relays : sortedJoin urls = sortedJoin others) : SameFilter left right := by
  have texts : '|' :: Json.objectText numbers (canonicalFields numbers left) =
      '|' :: Json.objectText numbers (canonicalFields numbers right) := by
    unfold dedupKey at same
    rw [relays] at same
    exact List.append_cancel_left same
  have fields : canonicalFields numbers left = canonicalFields numbers right :=
    (@Json.objectText_reads numbers _ _ [] [] (by rw [List.tail_eq_of_cons_eq texts])).1
  have one : (canonicalFields numbers left).Perm (left.fields numbers) := List.perm_insertionSort _ _
  have two : (canonicalFields numbers right).Perm (right.fields numbers) := List.perm_insertionSort _ _
  exact @SameFilter.of_fields numbers _ _ (one.symm.trans (fields ▸ two))

end NostrWot.Relay
