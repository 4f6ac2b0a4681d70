import NostrWot.Data.JsonText
import NostrWot.Data.Record
import NostrWot.Data.Utf16
import Mathlib.Data.List.Dedup
import Mathlib.Data.List.Perm.Basic
import Mathlib.Data.Option.Defs
import Mathlib.Data.List.Sort

namespace NostrWot.Hub

open NostrWot.Data

/-! # Canonical filter keys

The keys under which subscriptions and query results are shared.
-/

/-- A member of a list; objects, booleans and the like are `other`. -/
inductive Member where
  | number (value : Number)
  | text (value : String)
  | other
  deriving DecidableEq

/-- A property of a filter as the caller wrote it. -/
inductive Field where
  /-- `undefined` or `null`. -/
  | missing
  | list (members : List Member)
  | number (value : Number)
  | text (value : String)
  | boolean (value : Bool)
  deriving DecidableEq

/-- The own properties of a filter, unknown ones too. -/
abbrev Filter : Type := Record Field

/-- What the keys take from the JavaScript engine and from `nostr-tools`. -/
structure Host where
  numbers : Json.NumberText
  toLowerCase : String → String
  /-- It throws on an invalid URL. -/
  normalizeURL : String → Except String String

variable (host : Host)

def isHexKey (key : String) : Bool :=
  key = "ids" || key = "authors" || key = "#e" || key = "#p"

/-- A text as the list of a property compares it. -/
def folded (key text : String) : String :=
  if isHexKey key then host.toLowerCase text else text

def canonicalMember (key : String) : Member → Option Member
  | .number value => some (.number value)
  | .text value => some (.text (folded host key value))
  | .other => none

def memberText : Member → String
  | .number (.finite value) => String.ofList (host.numbers.digits value)
  | .number .infinity => "Infinity"
  | .number .negInfinity => "-Infinity"
  | .number .nan => "NaN"
  | .text value => value
  | .other => ""

/-- The comparator of `canonicalArray` does not put `left` after `right`. -/
def membersLe (left right : Member) : Bool :=
  match left, right with
  | .number left, .number right => !right.lt left
  | left, right => unitsLe (memberText host left) (memberText host right)

/-- The members of a `Set`, in the order of their first insertion. -/
def distinct (members : List Member) : List Member := members.reverse.dedup.reverse

def canonicalArray (key : String) (values : List Member) : List Member :=
  (distinct (values.filterMap (canonicalMember host key))).mergeSort (membersLe host)

def numberScalar : Number → Json.Scalar
  | .finite value => .number value
  | _ => .null

def Member.scalar : Member → Json.Scalar
  | .number value => numberScalar value
  | .text value => .text value
  | .other => .null

/-- What `canonicalFilter` keeps of one property. -/
def canonicalField (key : String) : Field → Option Json.Flat
  | .missing => none
  | .list members =>
    let values := canonicalArray host key members
    if values = [] ∧ key ≠ "ids" then none else some (.array (values.map Member.scalar))
  | .number value => some (.scalar (numberScalar value))
  | .text value => some (.scalar (.text value))
  | .boolean value => some (.scalar (.boolean value))

/-- The index that a property name spells, if it spells one. -/
def arrayIndex? (key : String) : Option Nat :=
  let digits := key.toList
  if digits ≠ [] ∧ digits.all Char.isDigit ∧ (digits.head? = some '0' → digits = ['0']) then
    let index := digits.foldl (fun value digit => 10 * value + (digit.toNat - 48)) 0
    if index < 2 ^ 32 - 1 then some index else none
  else none

/-- The order in which an object lists properties that were set in sorted order:
indices first. -/
def ownKeys (keys : List String) : List String :=
  let sorted := keys.mergeSort unitsLe
  (sorted.filter fun key => (arrayIndex? key).isSome).mergeSort
      (fun left right => (arrayIndex? left).getD 0 ≤ (arrayIndex? right).getD 0) ++
    sorted.filter fun key => (arrayIndex? key).isNone

/-- The properties of the object that `canonicalFilter` stringifies.  Assigning
`__proto__` makes no property. -/
def canonicalFields (filter : Filter) : List (String × Json.Flat) :=
  (ownKeys filter.keys).filterMap fun key =>
    if key = "__proto__" then none
    else ((filter.lookup key).bind (canonicalField host key)).map fun value => (key, value)

def canonicalFilterText (filter : Filter) : List Char :=
  Json.objectText host.numbers (canonicalFields host filter)

def canonicalFilter (filter : Filter) : String := String.ofList (canonicalFilterText host filter)

def canonicalFilters (filters : List Filter) : String :=
  String.ofList
    (((filters.map (canonicalFilter host)).mergeSort unitsLe).flatMap String.toList)

/-- Per-relay live subscription key. -/
def subKey (url : String) (filters : List Filter) : Except String String := do
  return (← host.normalizeURL url) ++ "|" ++ canonicalFilters host filters

def queryKey (identityId : String) (relays : List String) (filters : List Filter) :
    Except String String := do
  let urls ← relays.mapM host.normalizeURL
  return identityId ++ "|" ++ ",".intercalate ((urls.reverse.dedup.reverse).mergeSort unitsLe) ++
    "|" ++ canonicalFilters host filters

/-! ## What a filter asks for -/

/-- An event as far as filters look at it. -/
structure Event where
  id : String
  pubkey : String
  kind : Rat
  created_at : Rat
  tags : List (List String)

def Listed (key : String) (members : List Member) (value : String) : Prop :=
  ∃ text, Member.text text ∈ members ∧ folded host key text = folded host key value

def Tagged (event : Event) (name value : String) : Prop :=
  ∃ rest, name :: value :: rest ∈ event.tags

/-- NIP-01; `found` is the relay's own search. -/
structure Matches (found : String → Event → Prop) (filter : Filter) (event : Event) : Prop where
  ids : ∀ members, filter.lookup "ids" = some (.list members) → Listed host "ids" members event.id
  authors : ∀ members, filter.lookup "authors" = some (.list members) →
    Listed host "authors" members event.pubkey
  kinds : ∀ members, filter.lookup "kinds" = some (.list members) →
    Member.number (.finite event.kind) ∈ members
  tags : ∀ name members, filter.lookup ("#" ++ name) = some (.list members) →
    ∃ value, Tagged event name value ∧ Listed host ("#" ++ name) members value
  since : ∀ time, filter.lookup "since" = some (.number time) →
    time.le (.finite event.created_at) = true
  until_ : ∀ time, filter.lookup "until" = some (.number time) →
    Number.le (.finite event.created_at) time = true
  search : ∀ text, filter.lookup "search" = some (.text text) → found text event

/-- A list without a string or a number in it. -/
def Field.isEmptyList : Field → Bool
  | .list members => members.all fun member => member = .other
  | _ => false

/-- The filter as the hub documents that it is read: an empty list is no
restriction, except for `ids`. -/
def Filter.read (filter : Filter) : Filter :=
  Record.filterMap (fun key field =>
    if field.isEmptyList ∧ key ≠ "ids" then none else some field) filter

def Field.plain? : Field → Option Field
  | .list _ | .missing => none
  | field => some field

/-- Two filters ask a relay for the same: the same events, and the same in every
property that is no list, `limit` among them. -/
structure SameMeaning (left right : Filter) : Prop where
  matched : ∀ found event, Matches host found left.read event ↔ Matches host found right.read event
  plain : ∀ key, key ≠ "__proto__" →
    (left.lookup key).bind Field.plain? = (right.lookup key).bind Field.plain?

def SameRequest (left right : List Filter) : Prop :=
  ∃ reordered, reordered.Perm right ∧ List.Forall₂ (SameMeaning host) left reordered

/-- No property of its own is `NaN` or infinite: JSON writes these as `null`. -/
def Field.Definite : Field → Prop
  | .number value => value.isFinite = true
  | _ => True

def Filter.Definite (filter : Filter) : Prop := Record.Forall Field.Definite filter

def Uniform (members : List Member) : Prop :=
  (∀ member ∈ members, ∃ text, member = .text text) ∨
    ∀ member ∈ members, ∃ value, member = .number (.finite value)

inductive Field.Reordered : Field → Field → Prop
  | same (field : Field) : Field.Reordered field field
  | list {left right : List Member} (uniform : Uniform left)
      (members : ∀ member, member ∈ left ↔ member ∈ right) :
      Field.Reordered (.list left) (.list right)

def Filter.Reordered (left right : Filter) : Prop :=
  ∀ key, Option.Rel Field.Reordered (left.lookup key) (right.lookup key)

/-! ## The key says what is asked for -/

section Sound

variable {host : Host} {left right : Filter}

variable {members : List Member}

theorem mem_distinct {member : Member} :
    member ∈ distinct members ↔ member ∈ members := by
  simp [distinct]

theorem nodup_distinct (members : List Member) : (distinct members).Nodup := by
  unfold distinct
  rw [List.nodup_reverse]
  exact List.nodup_dedup _

variable {key : String}

theorem mem_canonicalArray {member : Member} :
    member ∈ canonicalArray host key members ↔
      ∃ written ∈ members, canonicalMember host key written = some member := by
  rw [canonicalArray, List.mem_mergeSort, mem_distinct, List.mem_filterMap]

theorem canonicalArray_eq_nil :
    canonicalArray host key members = [] ↔ (Field.list members).isEmptyList = true := by
  rw [List.eq_nil_iff_forall_not_mem, Field.isEmptyList, List.all_eq_true]
  constructor
  · intro none member inside
    cases member with
    | other => rfl
    | number value => exact absurd (mem_canonicalArray.mpr ⟨_, inside, rfl⟩) (none _)
    | text value => exact absurd (mem_canonicalArray.mpr ⟨_, inside, rfl⟩) (none _)
  · intro others member inside
    obtain ⟨written, among, kept⟩ := mem_canonicalArray.mp inside
    rw [of_decide_eq_true (others written among)] at kept
    contradiction

theorem listed_iff {value : String} :
    Listed host key members value ↔
      Json.Scalar.text (folded host key value) ∈
        (canonicalArray host key members).map Member.scalar := by
  rw [List.mem_map]
  constructor
  · rintro ⟨text, among, same⟩
    exact ⟨_, mem_canonicalArray.mpr ⟨_, among, rfl⟩, congrArg Json.Scalar.text same⟩
  · rintro ⟨member, inside, same⟩
    obtain ⟨written, among, kept⟩ := mem_canonicalArray.mp inside
    cases written with
    | other => contradiction
    | number number =>
      cases kept
      cases number <;> contradiction
    | text text =>
      cases kept
      exact ⟨text, among, Json.Scalar.text.inj same⟩

theorem number_mem_iff {key : String} {members : List Member} {value : Rat} :
    Member.number (.finite value) ∈ members ↔
      Json.Scalar.number value ∈ (canonicalArray host key members).map Member.scalar := by
  rw [List.mem_map]
  constructor
  · intro among
    exact ⟨_, mem_canonicalArray.mpr ⟨_, among, rfl⟩, rfl⟩
  · rintro ⟨member, inside, same⟩
    obtain ⟨written, among, kept⟩ := mem_canonicalArray.mp inside
    cases written with
    | other => contradiction
    | text text =>
      cases kept
      contradiction
    | number number =>
      cases kept
      cases number with
      | finite found =>
        cases same
        exact among
      | infinity => contradiction
      | negInfinity => contradiction
      | nan => contradiction

def canonicalProperty (host : Host) (filter : Filter) (key : String) : Option Json.Flat :=
  (filter.lookup key).bind (canonicalField host key)

theorem mem_ownKeys {keys : List String} : key ∈ ownKeys keys ↔ key ∈ keys := by
  unfold ownKeys
  simp only [List.mem_append, List.mem_mergeSort, List.mem_filter]
  cases arrayIndex? key <;> simp

variable {filter : Filter}

theorem mem_canonicalFields {value : Json.Flat} :
    (key, value) ∈ canonicalFields host filter ↔
      key ≠ "__proto__" ∧ canonicalProperty host filter key = some value := by
  unfold canonicalFields
  rw [List.mem_filterMap]
  constructor
  · rintro ⟨name, among, found⟩
    split at found
    · contradiction
    · next proper =>
      obtain ⟨kept, stored, same⟩ := Option.map_eq_some_iff.mp found
      cases same
      exact ⟨proper, stored⟩
  · rintro ⟨proper, stored⟩
    refine ⟨key, ?_, ?_⟩
    · rw [mem_ownKeys, Record.mem_keys_iff]
      obtain ⟨field, found, -⟩ := Option.bind_eq_some_iff.mp stored
      exact ⟨field, found⟩
    · rw [if_neg proper]
      exact Option.map_eq_some_iff.mpr ⟨value, stored, rfl⟩

theorem canonicalFields_of_key (same : canonicalFilter host left = canonicalFilter host right) :
    canonicalFields host left = canonicalFields host right := by
  have texts := String.ofList_injective same
  have padded : canonicalFilterText host left ++ [] = canonicalFilterText host right ++ [] := by
    rw [List.append_nil, List.append_nil, texts]
  exact (Json.objectText_reads padded).1

theorem canonicalProperty_of_fields (same : canonicalFields host left = canonicalFields host right)
    (proper : key ≠ "__proto__") :
    canonicalProperty host left key = canonicalProperty host right key := by
  refine Option.ext fun value => ?_
  have either : (key, value) ∈ canonicalFields host left ↔ _ := mem_canonicalFields
  rw [same, mem_canonicalFields] at either
  simpa [proper] using either.symm

/-- A list of a filter is in the key, and only a list reads so. -/
theorem canonicalProperty_list :
    filter.read.lookup key = some (.list members) →
      canonicalProperty host filter key =
        some (.array ((canonicalArray host key members).map Member.scalar)) := by
  intro found
  rw [Filter.read, Record.lookup_filterMap] at found
  obtain ⟨field, stored, kept⟩ := Option.bind_eq_some_iff.mp found
  split at kept
  · contradiction
  · next nonempty =>
    cases kept
    rw [canonicalProperty, stored, Option.bind_some, canonicalField, if_neg]
    rw [canonicalArray_eq_nil]
    exact nonempty

theorem read_of_array {values : List Json.Scalar}
    (kept : canonicalProperty host filter key = some (.array values)) :
    ∃ members, filter.read.lookup key = some (.list members) ∧
      (canonicalArray host key members).map Member.scalar = values := by
  obtain ⟨field, stored, kept⟩ := Option.bind_eq_some_iff.mp kept
  cases field with
  | missing => contradiction
  | number value => simp [canonicalField] at kept
  | text value => simp [canonicalField] at kept
  | boolean value => simp [canonicalField] at kept
  | list members =>
    simp only [canonicalField] at kept
    split at kept
    · contradiction
    · next nonempty =>
      simp only [Option.some.injEq, Json.Flat.array.injEq] at kept
      refine ⟨members, ?_, kept⟩
      rw [Filter.read, Record.lookup_filterMap, stored, Option.bind_some, if_neg]
      rw [canonicalArray_eq_nil] at nonempty
      exact nonempty

/-- The property that a scalar of the key was written as. -/
def plainField : Json.Flat → Option Field
  | .scalar (.number value) => some (.number (.finite value))
  | .scalar (.text value) => some (.text value)
  | .scalar (.boolean value) => some (.boolean value)
  | _ => none

theorem plainField_canonicalField {field : Field} (definite : field.Definite) (key : String) :
    field.plain? = (canonicalField host key field).bind plainField := by
  cases field with
  | missing => rfl
  | text value => rfl
  | boolean value => rfl
  | list members =>
    simp only [canonicalField]
    split <;> rfl
  | number value =>
    cases value with
    | finite value => rfl
    | infinity => contradiction
    | negInfinity => contradiction
    | nan => contradiction

theorem plain_of_fields (definite : left.Definite) (definite' : right.Definite)
    (same : canonicalFields host left = canonicalFields host right) (proper : key ≠ "__proto__") :
    (left.lookup key).bind Field.plain? = (right.lookup key).bind Field.plain? := by
  have written : ∀ filter : Filter, filter.Definite →
      (filter.lookup key).bind Field.plain? =
        (canonicalProperty host filter key).bind plainField := by
    intro filter definite
    unfold canonicalProperty
    cases stored : filter.lookup key with
    | none => rfl
    | some field => exact plainField_canonicalField (definite key field stored) key
  rw [written left definite, written right definite', canonicalProperty_of_fields same proper]

theorem list_of_fields (same : canonicalFields host left = canonicalFields host right)
    (proper : key ≠ "__proto__") (found : left.read.lookup key = some (.list members)) :
    ∃ others, right.read.lookup key = some (.list others) ∧
      (canonicalArray host key others).map Member.scalar =
        (canonicalArray host key members).map Member.scalar := by
  have kept : canonicalProperty host left key = _ := canonicalProperty_list found
  rw [canonicalProperty_of_fields same proper] at kept
  exact read_of_array kept

theorem read_plain {field : Field} (plain : field.plain? = some field) :
    filter.read.lookup key = some field ↔ (filter.lookup key).bind Field.plain? = some field := by
  rw [Filter.read, Record.lookup_filterMap]
  cases filter.lookup key with
  | none => rfl
  | some stored =>
    rw [Option.bind_some, Option.bind_some]
    cases stored with
    | missing => cases field <;> simp_all [Field.isEmptyList, Field.plain?]
    | list members =>
      have other : field ≠ .list members := by
        rintro rfl
        contradiction
      simp only [Field.plain?]
      split <;> simp [other.symm]
    | number value => simp [Field.isEmptyList, Field.plain?]
    | text value => simp [Field.isEmptyList, Field.plain?]
    | boolean value => simp [Field.isEmptyList, Field.plain?]

theorem Matches.of_fields (definite : left.Definite) (definite' : right.Definite)
    (same : canonicalFields host left = canonicalFields host right)
    {found : String → Event → Prop} {event : Event} (matched : Matches host found left.read event) :
    Matches host found right.read event := by
  have listed : ∀ {key members}, key ≠ "__proto__" →
      right.read.lookup key = some (.list members) →
      ∃ others, left.read.lookup key = some (.list others) ∧
        ∀ scalar, scalar ∈ (canonicalArray host key others).map Member.scalar ↔
          scalar ∈ (canonicalArray host key members).map Member.scalar := by
    intro key members proper stored
    obtain ⟨others, there, equal⟩ := list_of_fields same.symm proper stored
    exact ⟨others, there, fun scalar => by rw [equal]⟩
  have plain : ∀ {key field}, key ≠ "__proto__" → field.plain? = some field →
      right.read.lookup key = some field → left.read.lookup key = some field := by
    intro key field proper shape stored
    rw [read_plain shape] at stored ⊢
    rw [plain_of_fields definite definite' same proper, stored]
  constructor
  · intro members stored
    obtain ⟨others, there, equal⟩ := listed (by decide) stored
    rw [listed_iff, ← equal, ← listed_iff]
    exact matched.ids others there
  · intro members stored
    obtain ⟨others, there, equal⟩ := listed (by decide) stored
    rw [listed_iff, ← equal, ← listed_iff]
    exact matched.authors others there
  · intro members stored
    obtain ⟨others, there, equal⟩ := listed (by decide) stored
    rw [@number_mem_iff host "kinds", ← equal, ← number_mem_iff]
    exact matched.kinds others there
  · intro name members stored
    have proper : "#" ++ name ≠ "__proto__" := by
      intro equal
      have head := congrArg (fun text => text.toList.head?) equal
      simp at head
    obtain ⟨others, there, equal⟩ := listed proper stored
    obtain ⟨value, tagged, inside⟩ := matched.tags name others there
    refine ⟨value, tagged, ?_⟩
    rw [listed_iff, ← equal, ← listed_iff]
    exact inside
  · intro time stored
    exact matched.since time (plain (by decide) rfl stored)
  · intro time stored
    exact matched.until_ time (plain (by decide) rfl stored)
  · intro text stored
    exact matched.search text (plain (by decide) rfl stored)

theorem SameMeaning.of_fields (definite : left.Definite) (definite' : right.Definite)
    (same : canonicalFields host left = canonicalFields host right) : SameMeaning host left right :=
  ⟨fun _ _ => ⟨.of_fields definite definite' same, .of_fields definite' definite same.symm⟩,
    fun _ proper => plain_of_fields definite definite' same proper⟩

theorem sameMeanings {filters others : List Filter}
    (definite : ∀ filter ∈ filters, Filter.Definite filter)
    (definite' : ∀ filter ∈ others, Filter.Definite filter)
    (same : filters.map (canonicalFields host) = others.map (canonicalFields host)) :
    List.Forall₂ (SameMeaning host) filters others := by
  induction filters generalizing others with
  | nil =>
    cases others with
    | nil => exact .nil
    | cons other rest => contradiction
  | cons filter filters ih =>
    cases others with
    | nil => contradiction
    | cons other rest =>
      rw [List.map_cons, List.map_cons, List.cons_eq_cons] at same
      refine .cons (.of_fields (definite _ List.mem_cons_self) (definite' _ List.mem_cons_self)
        same.1) (ih (fun filter member => definite filter (List.mem_cons_of_mem _ member))
          (fun filter member => definite' filter (List.mem_cons_of_mem _ member)) same.2)

/-- The filters in the order in which their texts are joined. -/
def sortedFilters (host : Host) (filters : List Filter) : List Filter :=
  filters.mergeSort fun left right => unitsLe (canonicalFilter host left) (canonicalFilter host right)

theorem canonicalFilters_eq (host : Host) (filters : List Filter) :
    canonicalFilters host filters = String.ofList
      (((sortedFilters host filters).map (canonicalFields host)).flatMap
        (Json.objectText host.numbers)) := by
  have sorted : (filters.map (canonicalFilter host)).mergeSort unitsLe =
      (sortedFilters host filters).map (canonicalFilter host) :=
    (List.map_mergeSort (f := canonicalFilter host) (s := unitsLe) fun _ _ _ _ => rfl).symm
  unfold canonicalFilters
  rw [sorted, List.flatMap_map, List.flatMap_map]
  refine congrArg String.ofList (List.flatMap_congr fun filter _ => ?_)
  exact String.toList_ofList

theorem SameRequest.of_key {filters others : List Filter}
    (definite : ∀ filter ∈ filters, Filter.Definite filter)
    (definite' : ∀ filter ∈ others, Filter.Definite filter)
    (same : canonicalFilters host filters = canonicalFilters host others) :
    SameRequest host filters others := by
  rw [canonicalFilters_eq, canonicalFilters_eq] at same
  have fields := Json.objectTexts_injective (String.ofList_injective same)
  have perm : (sortedFilters host filters).Perm filters := List.mergeSort_perm _ _
  have perm' : (sortedFilters host others).Perm others := List.mergeSort_perm _ _
  have sorted : List.Forall₂ (SameMeaning host) (sortedFilters host filters)
      (sortedFilters host others) :=
    sameMeanings (fun filter member => definite filter (perm.mem_iff.mp member))
      (fun filter member => definite' filter (perm'.mem_iff.mp member)) fields
  obtain ⟨reordered, here, there⟩ := List.perm_comp_forall₂ perm.symm sorted
  exact ⟨reordered, there.trans perm', here⟩

theorem subKey_filters {url : String} {filters others : List Filter}
    (first : subKey host url filters = .ok key) (second : subKey host url others = .ok key) :
    canonicalFilters host filters = canonicalFilters host others := by
  unfold subKey at first second
  cases normal : host.normalizeURL url with
  | error message => rw [normal] at first; contradiction
  | ok address =>
    rw [normal] at first second
    simp only [bind, Except.bind, pure, Except.pure, Except.ok.injEq] at first second
    rw [← second] at first
    exact (String.append_right_inj _).mp first

theorem queryKey_filters {identityId : String} {relays : List String} {filters others : List Filter}
    (first : queryKey host identityId relays filters = .ok key)
    (second : queryKey host identityId relays others = .ok key) :
    canonicalFilters host filters = canonicalFilters host others := by
  unfold queryKey at first second
  cases normal : relays.mapM host.normalizeURL with
  | error message => rw [normal] at first; contradiction
  | ok urls =>
    rw [normal] at first second
    simp only [bind, Except.bind, pure, Except.pure, Except.ok.injEq] at first second
    rw [← second] at first
    exact (String.append_right_inj _).mp first

end Sound

/-! ## Reordering and repeating -/

section Stable

variable {host : Host}

theorem distinct_perm {left right : List Member}
    (same : ∀ member, member ∈ left ↔ member ∈ right) : (distinct left).Perm (distinct right) := by
  refine (List.perm_ext_iff_of_nodup (nodup_distinct left) (nodup_distinct right)).mpr ?_
  intro member
  rw [mem_distinct, mem_distinct, same]

theorem mergeSort_of_perm {α : Type} {order : α → α → Bool}
    (trans : ∀ a b c, order a b = true → order b c = true → order a c = true)
    (total : ∀ a b, (order a b || order b a) = true)
    (antisymm : ∀ a b, order a b = true → order b a = true → a = b) {left right : List α}
    (perm : left.Perm right) : left.mergeSort order = right.mergeSort order :=
  List.Perm.eq_of_pairwise (fun a b _ _ => antisymm a b)
    (List.pairwise_mergeSort trans total left) (List.pairwise_mergeSort trans total right)
    (((List.mergeSort_perm _ _).trans perm).trans (List.mergeSort_perm _ _).symm)

theorem sort_texts {left right : List String} (perm : left.Perm right) :
    left.mergeSort unitsLe = right.mergeSort unitsLe := by
  refine mergeSort_of_perm ?_ unitsLe_total ?_ perm
  · intro a b c first second
    exact unitsLe_trans first second
  · intro a b first second
    exact unitsLe_antisymm first second

theorem sort_numbers {left right : List Rat} (perm : left.Perm right) :
    left.mergeSort (fun a b => !decide (b < a)) = right.mergeSort (fun a b => !decide (b < a)) := by
  have ordered : ∀ a b : Rat, (!decide (b < a)) = true ↔ a ≤ b := by
    intro a b
    rw [Bool.not_eq_true', decide_eq_false_iff_not, Rat.not_lt]
  refine mergeSort_of_perm ?_ ?_ ?_ perm
  · intro a b c first second
    rw [ordered] at first second ⊢
    exact Rat.le_trans first second
  · intro a b
    rw [Bool.or_eq_true, ordered, ordered]
    exact Rat.le_total
  · intro a b first second
    rw [ordered] at first second
    exact Rat.le_antisymm first second

theorem exists_values {α : Type} {wrap : α → Member} {members : List Member}
    (all : ∀ member ∈ members, ∃ value, member = wrap value) :
    ∃ values : List α, members = values.map wrap := by
  induction members with
  | nil => exact ⟨[], rfl⟩
  | cons member rest ih =>
    obtain ⟨value, here⟩ := all member List.mem_cons_self
    obtain ⟨values, there⟩ := ih fun member inside => all member (List.mem_cons_of_mem _ inside)
    exact ⟨value :: values, by rw [here, there, List.map_cons]⟩

theorem sort_wrapped {α : Type} {wrap : α → Member} {order : α → α → Bool}
    (injective : Function.Injective wrap)
    (agrees : ∀ a b, order a b = membersLe host (wrap a) (wrap b))
    (sorts : ∀ {left right : List α}, left.Perm right → left.mergeSort order = right.mergeSort order)
    {left right : List Member} (all : ∀ member ∈ left, ∃ value, member = wrap value)
    (perm : left.Perm right) :
    left.mergeSort (membersLe host) = right.mergeSort (membersLe host) := by
  obtain ⟨values, rfl⟩ := exists_values all
  obtain ⟨others, rfl⟩ := exists_values fun member inside => all member (perm.mem_iff.mpr inside)
  have unwrapped := sorts ((List.map_perm_map_iff injective).mp perm)
  rw [← List.map_mergeSort (r := order) fun a _ b _ => agrees a b,
    ← List.map_mergeSort (r := order) fun a _ b _ => agrees a b, unwrapped]

theorem sort_members {left right : List Member} (uniform : Uniform left) (perm : left.Perm right) :
    left.mergeSort (membersLe host) = right.mergeSort (membersLe host) := by
  rcases uniform with texts | numbers
  · exact sort_wrapped (fun _ _ => Member.text.inj) (fun _ _ => rfl) sort_texts texts perm
  · have injective : Function.Injective fun value : Rat => Member.number (.finite value) :=
      fun _ _ same => Number.finite.inj (Member.number.inj same)
    exact sort_wrapped injective (fun _ _ => rfl) sort_numbers numbers perm

theorem uniform_canonical {key : String} {members : List Member} (uniform : Uniform members) :
    Uniform (distinct (members.filterMap (canonicalMember host key))) := by
  rcases uniform with texts | numbers
  · refine .inl fun member inside => ?_
    obtain ⟨written, among, kept⟩ := List.mem_filterMap.mp (mem_distinct.mp inside)
    obtain ⟨text, rfl⟩ := texts written among
    cases kept
    exact ⟨_, rfl⟩
  · refine .inr fun member inside => ?_
    obtain ⟨written, among, kept⟩ := List.mem_filterMap.mp (mem_distinct.mp inside)
    obtain ⟨value, rfl⟩ := numbers written among
    cases kept
    exact ⟨_, rfl⟩

theorem canonicalArray_reordered {key : String} {left right : List Member} (uniform : Uniform left)
    (same : ∀ member, member ∈ left ↔ member ∈ right) :
    canonicalArray host key left = canonicalArray host key right := by
  refine sort_members (uniform_canonical uniform) (distinct_perm fun member => ?_)
  simp only [List.mem_filterMap, same]

theorem canonicalField_reordered {key : String} {left right : Field}
    (reordered : left.Reordered right) :
    canonicalField host key left = canonicalField host key right := by
  cases reordered with
  | same => rfl
  | list uniform members => simp only [canonicalField, canonicalArray_reordered uniform members]

theorem ownKeys_perm {left right : List String} (perm : left.Perm right) :
    ownKeys left = ownKeys right := by
  unfold ownKeys
  rw [sort_texts perm]

theorem canonicalFilter_reordered {left right : Filter} (reordered : left.Reordered right) :
    canonicalFilter host left = canonicalFilter host right := by
  have keys : left.keys.Perm right.keys := by
    refine (List.perm_ext_iff_of_nodup left.keys_nodup right.keys_nodup).mpr fun key => ?_
    rw [Record.mem_keys_iff, Record.mem_keys_iff]
    have fields := reordered key
    generalize left.lookup key = here at fields ⊢
    generalize right.lookup key = there at fields ⊢
    cases fields with
    | some same => simp
    | none => rfl
  have fields : canonicalFields host left = canonicalFields host right := by
    unfold canonicalFields
    rw [ownKeys_perm keys]
    refine List.filterMap_congr fun key _ => ?_
    have fields := reordered key
    generalize left.lookup key = here at fields ⊢
    generalize right.lookup key = there at fields ⊢
    cases fields with
    | some same => rw [Option.bind_some, Option.bind_some, canonicalField_reordered same]
    | none => rfl
  rw [canonicalFilter, canonicalFilterText, fields, canonicalFilter, canonicalFilterText]

end Stable

/-- One key is one meaning, for single filters and for the requests that are
shared on their keys, and the order and the repetition of list members never
show in a key. -/
theorem canonicalFilter_faithful (host : Host) :
    (∀ left right : Filter, left.Definite → right.Definite →
      canonicalFilter host left = canonicalFilter host right → SameMeaning host left right) ∧
    (∀ (url key : String) (filters others : List Filter),
      (∀ filter ∈ filters, Filter.Definite filter) → (∀ filter ∈ others, Filter.Definite filter) →
      subKey host url filters = .ok key → subKey host url others = .ok key →
      SameRequest host filters others) ∧
    (∀ (identityId key : String) (relays : List String) (filters others : List Filter),
      (∀ filter ∈ filters, Filter.Definite filter) → (∀ filter ∈ others, Filter.Definite filter) →
      queryKey host identityId relays filters = .ok key →
      queryKey host identityId relays others = .ok key → SameRequest host filters others) ∧
    (∀ left right : Filter, left.Reordered right →
      canonicalFilter host left = canonicalFilter host right) := by
  refine ⟨?_, ?_, ?_, ?_⟩
  · intro left right definite definite' same
    exact .of_fields definite definite' (canonicalFields_of_key same)
  · intro url key filters others definite definite' first second
    exact .of_key definite definite' (subKey_filters first second)
  · intro identityId key relays filters others definite definite' first second
    exact .of_key definite definite' (queryKey_filters first second)
  · intro left right reordered
    exact canonicalFilter_reordered reordered

section Example

/-- A host for small inputs: ASCII letters, and URLs as they are. -/
def plainHost : Host where
  numbers := Json.plainNumbers
  toLowerCase := fun text => text.map Char.toLower
  normalizeURL := fun url => if url = "" then .error "Invalid URL: " else .ok url

def oneProperty (key : String) (field : Field) : Filter := AList.singleton key field

/-- `{ kinds: [] }` matches nothing and shares the key of `{}`. -/
theorem emptyKinds_shares_key :
    ¬ ∀ (host : Host) (left right : Filter), left.Definite → right.Definite →
      canonicalFilter host left = canonicalFilter host right →
      ∀ found event, Matches host found left event ↔ Matches host found right event := by
  intro claim
  have definite : (oneProperty "kinds" (.list [])).Definite := Record.Forall.of_singleton trivial
  have key : canonicalFilter plainHost (oneProperty "kinds" (.list [])) =
      canonicalFilter plainHost ∅ := by decide +kernel
  have every : Matches plainHost (fun _ _ => True) ∅ ⟨"", "", 1, 0, []⟩ := by
    constructor <;> intros <;> simp_all
  have none := ((claim plainHost _ _ definite Record.Forall.empty key (fun _ _ => True)
    ⟨"", "", 1, 0, []⟩).mpr every).kinds [] (by decide +kernel)
  exact absurd none List.not_mem_nil

theorem definite_oneProperty {key : String} {field : Field} (definite : field.Definite) :
    ∀ filter ∈ [oneProperty key field], Filter.Definite filter := by
  intro filter member
  rw [List.mem_singleton.mp member]
  exact Record.Forall.of_singleton definite

theorem reordered_oneProperty {key : String} {left right : Field} (reordered : left.Reordered right) :
    (oneProperty key left).Reordered (oneProperty key right) := by
  intro other
  rw [oneProperty, oneProperty, ← AList.insert_empty, ← AList.insert_empty, Record.lookup_insert,
    Record.lookup_insert]
  split
  · exact .some reordered
  · rw [AList.lookup_empty]
    exact .none

def sortedKinds : Field := .list [.number 1, .number 7]

/-- The same kinds in another order and one of them twice. -/
def repeatedKinds : Field := .list [.number 7, .number 1, .number 7]

theorem sortedKinds_reordered : sortedKinds.Reordered repeatedKinds := by
  refine .list (.inr ?_) ?_
  · intro member inside
    simp only [List.mem_cons, List.not_mem_nil, or_false] at inside
    rcases inside with rfl | rfl
    · exact ⟨1, rfl⟩
    · exact ⟨7, rfl⟩
  · intro member
    simp only [List.mem_cons, List.not_mem_nil, or_false]
    constructor
    · rintro (one | seven)
      · exact .inr (.inl one)
      · exact .inl seven
    · rintro (seven | one | seven)
      · exact .inr seven
      · exact .inl one
      · exact .inr seven

theorem canonicalFilter_faithful_kinds :
    SameMeaning plainHost (oneProperty "authors" (.list [.text "AB"]))
        (oneProperty "authors" (.list [.text "ab"])) ∧
      SameRequest plainHost [oneProperty "kinds" sortedKinds] [oneProperty "kinds" repeatedKinds] ∧
      SameRequest plainHost [oneProperty "kinds" repeatedKinds] [oneProperty "kinds" sortedKinds] ∧
      canonicalFilter plainHost (oneProperty "kinds" sortedKinds) =
        canonicalFilter plainHost (oneProperty "kinds" repeatedKinds) := by
  obtain ⟨single, live, once, stable⟩ := canonicalFilter_faithful plainHost
  have shared : canonicalFilters plainHost [oneProperty "kinds" sortedKinds] =
      canonicalFilters plainHost [oneProperty "kinds" repeatedKinds] := by
    unfold canonicalFilters
    rw [List.map_singleton, List.map_singleton,
      canonicalFilter_reordered (reordered_oneProperty sortedKinds_reordered)]
  refine ⟨?_, ?_, ?_, ?_⟩
  · exact single _ _ (Record.Forall.of_singleton trivial) (Record.Forall.of_singleton trivial)
      (by decide +kernel)
  · refine live "wss://relay.example" _ _ _ (definite_oneProperty trivial)
      (definite_oneProperty trivial) rfl ?_
    rw [shared]
    rfl
  · refine once "session" _ ["wss://relay.example"] _ _ (definite_oneProperty trivial)
      (definite_oneProperty trivial) rfl ?_
    rw [← shared]
    rfl
  · exact stable _ _ (reordered_oneProperty sortedKinds_reordered)

end Example

end NostrWot.Hub
