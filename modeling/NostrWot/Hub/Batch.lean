import NostrWot.Relay.Filter
import Mathlib.Data.List.Dedup
import Mathlib.Algebra.BigOperators.Ring.Finset

namespace NostrWot.Hub.Batch

open NostrWot.Data NostrWot.Relay

/-! # Author lists in one request

Filters that ask only for authors of the same kinds share filters on the wire, and each caller
picks its own events out of the answer.
-/

structure BatchOptions where
  authorsPerChunk : Nat
  maxMergedLimit : Nat

def DEFAULT_BATCH_OPTIONS : BatchOptions := ⟨100, 500⟩

structure Candidate where
  index : Nat
  kinds : List Int
  authors : List String
  limit : Option Nat

structure Chunk where
  kinds : List Int
  authors : List String
  limit : Option Nat
  members : List Nat

structure BatchPlan where
  filters : List NostrFilter
  /-- `none` is the `-1` that the array is filled with. -/
  placement : List (Option Nat)
  merged : Nat

/-- `Array.from(new Set(values))`. -/
def distinct {α : Type} [DecidableEq α] (values : List α) : List α := values.reverse.dedup.reverse

section Plan

variable (toLowerCase : String → String) (numbers : Json.NumberText) (opts : BatchOptions)

/-- Only `kinds`, `authors` and `limit` are there. -/
def hasCandidateKeys (filter : NostrFilter) : Bool :=
  filter.ids.join.isNone && filter.since.join.isNone && filter.until_.join.isNone &&
    filter.search.join.isNone && filter.tags.entries.all fun tag => tag.2.isNone

def asCandidate (filter : NostrFilter) (index : Nat) : Option Candidate :=
  if !hasCandidateKeys filter then none
  else
    let kinds := filter.kinds.join.getD []
    let authors := filter.authors.join.getD []
    if kinds = [] || authors = [] then none
    else
      let uniqueAuthors := distinct (authors.map toLowerCase)
      if opts.authorsPerChunk < uniqueAuthors.length then none
      else if filter.limit.join.any (· ≤ 0) then none
      else some {
        index := index
        kinds := (distinct kinds).insertionSort (· ≤ ·)
        authors := uniqueAuthors
        limit := filter.limit.join.map Int.toNat }

/-- `canonicalFilter({ kinds })` of kinds that are sorted, and whether there is a limit. -/
def groupKey (candidate : Candidate) : List Char :=
  Json.objectText numbers
      [("kinds", .array (candidate.kinds.map fun kind : Int => Json.Scalar.number (kind : Rat)))] ++
    (if candidate.limit.isNone then "|unbounded" else "|bounded").toList

def fits (chunk : Chunk) (candidate : Candidate) : Bool :=
  let added := candidate.authors.filter (· ∉ chunk.authors)
  if opts.authorsPerChunk < chunk.authors.length + added.length then false
  else match chunk.limit, candidate.limit with
    | some held, some limit => held + limit ≤ opts.maxMergedLimit
    | _, _ => true

def Chunk.grow (chunk : Chunk) (candidate : Candidate) : Chunk where
  kinds := chunk.kinds
  authors := chunk.authors ++ candidate.authors.filter (· ∉ chunk.authors)
  limit := match chunk.limit, candidate.limit with
    | some held, some limit => some (held + limit)
    | held, _ => held
  members := chunk.members ++ [candidate.index]

def Chunk.of (candidate : Candidate) : Chunk :=
  ⟨candidate.kinds, candidate.authors, candidate.limit, [candidate.index]⟩

/-- The first chunk with room takes the candidate, else a new one does; and how many more filters
are merged then. -/
def admit_ (candidate : Candidate) : List Chunk → List Chunk × Nat
  | [] => ([.of candidate], 0)
  | chunk :: rest =>
    if fits opts chunk candidate then
      (chunk.grow candidate :: rest, if chunk.members.length + 1 = 2 then 2 else 1)
    else (chunk :: (admit_ candidate rest).1, (admit_ candidate rest).2)

structure Sorting where
  groups : OrderedMap (List Char) (List Chunk)
  passthrough : List Nat
  merged : Nat

def sortOne (state : Sorting) (entry : NostrFilter × Nat) : Sorting :=
  match asCandidate toLowerCase opts entry.1 entry.2 with
  | none => { state with passthrough := state.passthrough ++ [entry.2] }
  | some candidate =>
    let key := groupKey numbers candidate
    let (chunks, more) := admit_ opts candidate ((state.groups.get key).getD [])
    { state with groups := state.groups.set key chunks, merged := state.merged + more }

def sortAll (filters : List NostrFilter) : Sorting :=
  filters.zipIdx.foldl (sortOne toLowerCase numbers opts) ⟨∅, [], 0⟩

def Chunk.filter (chunk : Chunk) : NostrFilter where
  kinds := some (some chunk.kinds)
  authors := some (some (sortTexts chunk.authors))
  limit := chunk.limit.map fun limit => some (limit : Int)

def place (placement : List (Option Nat)) (entry : List Nat × Nat) : List (Option Nat) :=
  entry.1.foldl (fun placement member => placement.set member (some entry.2)) placement

def planAuthorBatches (filters : List NostrFilter) : BatchPlan :=
  let sorting := sortAll toLowerCase numbers opts filters
  let chunks := sorting.groups.values.flatten
  let owners := chunks.map Chunk.members ++ sorting.passthrough.map fun index => [index]
  { filters := chunks.map Chunk.filter ++ sorting.passthrough.map fun index => filters[index]?.getD {}
    placement := owners.zipIdx.foldl place (List.replicate filters.length none)
    merged := sorting.merged }

end Plan

/-- `matchFilter` of the package, for which a time of zero is no bound. -/
def matchOriginal (filter : NostrFilter) (event : NostrEvent) : Bool :=
  filter.ids.join.all (event.id ∈ ·) && filter.kinds.join.all (event.kind ∈ ·) &&
    filter.authors.join.all (event.pubkey ∈ ·) &&
    filter.since.join.all (fun since => since = 0 || since ≤ event.created_at) &&
    filter.until_.join.all (fun until_ => until_ = 0 || event.created_at ≤ until_) &&
    filter.tags.entries.all fun tag => tag.2.all (tagged event tag.1)

def demuxByFilter (events : List NostrEvent) (filters : List NostrFilter) : List (List NostrEvent) :=
  filters.map fun filter => events.filter (matchOriginal filter)

/-! ## Groups -/

section Groups

variable {toLowerCase : String → String} {numbers : Json.NumberText} {opts : BatchOptions}
variable {filters : List NostrFilter}

theorem mem_distinct {α : Type} [DecidableEq α] {value : α} {values : List α} :
    value ∈ distinct values ↔ value ∈ values := by
  simp [distinct]

theorem nodup_distinct {α : Type} [DecidableEq α] (values : List α) : (distinct values).Nodup :=
  List.nodup_reverse.mpr (List.nodup_dedup _)

variable {candidate : Candidate}

theorem asCandidate_spec {filter : NostrFilter} {index : Nat}
    (is : asCandidate toLowerCase opts filter index = some candidate) :
    candidate.index = index ∧ hasCandidateKeys filter = true ∧
      (∃ kinds, filter.kinds.join = some kinds ∧ ∀ kind, kind ∈ candidate.kinds ↔ kind ∈ kinds) ∧
      (∃ authors, filter.authors.join = some authors ∧
        ∀ author, author ∈ candidate.authors ↔ author ∈ authors.map toLowerCase) ∧
      candidate.authors.Nodup ∧ candidate.authors.length ≤ opts.authorsPerChunk ∧
      filter.limit.join = candidate.limit.map fun limit : Nat => (limit : Int) := by
  unfold asCandidate at is
  split at is
  · contradiction
  next keys =>
  dsimp only at is
  split at is
  · contradiction
  next some_ =>
  split at is
  · contradiction
  next few =>
  split at is
  · contradiction
  next positive =>
  cases is
  have filled : filter.kinds.join.getD [] ≠ [] ∧ filter.authors.join.getD [] ≠ [] := by
    simpa using some_
  refine ⟨rfl, by simpa using keys, ?_, ?_, nodup_distinct _, Nat.le_of_not_lt few, ?_⟩
  · cases held : filter.kinds.join with
    | none =>
      rw [held] at filled
      exact absurd rfl filled.1
    | some kinds =>
      refine ⟨kinds, rfl, fun kind => ?_⟩
      rw [List.mem_insertionSort, mem_distinct]
      rfl
  · cases held : filter.authors.join with
    | none =>
      rw [held] at filled
      exact absurd rfl filled.2
    | some authors => exact ⟨authors, rfl, fun author => mem_distinct⟩
  · cases held : filter.limit.join with
    | none => rfl
    | some limit =>
      rw [held] at positive
      have above : 0 < limit := by simpa using positive
      simp [Int.toNat_of_nonneg (Int.le_of_lt above)]

theorem groupKey_injective {left right : Candidate}
    (same : groupKey numbers left = groupKey numbers right) :
    left.kinds = right.kinds ∧ left.limit.isNone = right.limit.isNone := by
  obtain ⟨fields, ends⟩ := Json.objectText_reads same
  constructor
  · have values := Json.Flat.array.inj (congrArg Prod.snd (List.cons.inj fields).1)
    refine List.map_injective_iff.mpr (fun one other equal => ?_) values
    exact Rat.intCast_inj.mp (Json.Scalar.number.inj equal)
  · cases one : left.limit.isNone with
    | true =>
      cases other : right.limit.isNone with
      | true => rfl
      | false =>
        rw [one, other] at ends
        exact absurd ends (by decide)
    | false =>
      cases other : right.limit.isNone with
      | true =>
        rw [one, other] at ends
        exact absurd ends (by decide)
      | false => rfl

def candidateAt (toLowerCase : String → String) (opts : BatchOptions) (filters : List NostrFilter)
    (index : Nat) : Option Candidate :=
  filters[index]?.bind fun filter => asCandidate toLowerCase opts filter index

def limitAt (toLowerCase : String → String) (opts : BatchOptions) (filters : List NostrFilter)
    (index : Nat) : Nat :=
  ((candidateAt toLowerCase opts filters index).bind Candidate.limit).getD 0

/-- A chunk asks what its members ask, within the bounds. -/
structure Sharing (toLowerCase : String → String) (numbers : Json.NumberText) (opts : BatchOptions)
    (filters : List NostrFilter) (key : List Char) (chunk : Chunk) : Prop where
  some_ : chunk.members ≠ []
  member : ∀ index ∈ chunk.members, ∃ candidate,
    candidateAt toLowerCase opts filters index = some candidate ∧
      groupKey numbers candidate = key ∧ candidate.kinds = chunk.kinds ∧
      candidate.authors ⊆ chunk.authors ∧ candidate.limit.isNone = chunk.limit.isNone
  few : chunk.authors.length ≤ opts.authorsPerChunk
  sum : ∀ limit, chunk.limit = some limit →
    limit = (chunk.members.map (limitAt toLowerCase opts filters)).sum
  bounded : 2 ≤ chunk.members.length → ∀ limit, chunk.limit = some limit →
    limit ≤ opts.maxMergedLimit

theorem Sharing.of (is : candidateAt toLowerCase opts filters candidate.index = some candidate)
    (few : candidate.authors.length ≤ opts.authorsPerChunk) :
    Sharing toLowerCase numbers opts filters (groupKey numbers candidate) (.of candidate) := by
  constructor
  · exact List.cons_ne_nil _ _
  · intro index among
    rw [List.mem_singleton.mp among]
    exact ⟨candidate, is, rfl, rfl, List.Subset.refl _, rfl⟩
  · exact few
  · intro limit held
    have held : candidate.limit = some limit := held
    simp [Chunk.of, limitAt, is, held]
  · intro two
    exact absurd two (by simp [Chunk.of])

theorem Sharing.grow {chunk : Chunk}
    (sharing : Sharing toLowerCase numbers opts filters (groupKey numbers candidate) chunk)
    (is : candidateAt toLowerCase opts filters candidate.index = some candidate)
    (room : fits opts chunk candidate = true) :
    Sharing toLowerCase numbers opts filters (groupKey numbers candidate) (chunk.grow candidate) := by
  obtain ⟨some_, member, few, sum, bounded⟩ := sharing
  have alike : candidate.kinds = chunk.kinds ∧ candidate.limit.isNone = chunk.limit.isNone := by
    obtain ⟨index, among⟩ := List.exists_mem_of_ne_nil _ some_
    obtain ⟨other, -, key, kinds, -, limits⟩ := member index among
    obtain ⟨sameKinds, sameLimits⟩ := groupKey_injective key
    exact ⟨sameKinds.symm.trans kinds, sameLimits.symm.trans limits⟩
  have grown : (chunk.grow candidate).limit.isNone = chunk.limit.isNone := by
    unfold Chunk.grow
    cases chunk.limit <;> cases candidate.limit <;> rfl
  unfold fits at room
  dsimp only at room
  split at room
  · contradiction
  next enough =>
  constructor
  · exact List.append_ne_nil_of_right_ne_nil _ (List.cons_ne_nil _ _)
  · intro index among
    rcases List.mem_append.mp among with before | now
    · obtain ⟨other, found, key, kinds, authors, limits⟩ := member index before
      exact ⟨other, found, key, kinds, List.Subset.trans authors (List.subset_append_left _ _),
        limits.trans grown.symm⟩
    · rw [List.mem_singleton.mp now]
      refine ⟨candidate, is, rfl, alike.1, fun author own => ?_, alike.2.trans grown.symm⟩
      by_cases there : author ∈ chunk.authors
      · exact List.mem_append_left _ there
      · exact List.mem_append_right _ (List.mem_filter.mpr ⟨own, decide_eq_true there⟩)
  · unfold Chunk.grow
    dsimp only
    rw [List.length_append]
    exact Nat.le_of_not_lt enough
  · intro limit held
    cases before : chunk.limit with
    | none =>
      have none_ : (chunk.grow candidate).limit.isNone = true := by rw [grown, before]; rfl
      rw [held] at none_
      contradiction
    | some old =>
      cases own : candidate.limit with
      | none =>
        rw [own, before] at alike
        exact absurd alike.2.symm Bool.false_ne_true
      | some new =>
        have total : old + new = limit := by
          unfold Chunk.grow at held
          rw [before, own] at held
          exact Option.some.inj held
        have mine : limitAt toLowerCase opts filters candidate.index = new := by
          simp [limitAt, is, own]
        unfold Chunk.grow
        dsimp only
        rw [List.map_append, List.sum_append, ← sum old before, List.map_singleton,
          List.sum_singleton, mine]
        exact total.symm
  · intro _ limit held
    cases before : chunk.limit with
    | none =>
      have none_ : (chunk.grow candidate).limit.isNone = true := by rw [grown, before]; rfl
      rw [held] at none_
      contradiction
    | some old =>
      cases own : candidate.limit with
      | none =>
        rw [own, before] at alike
        exact absurd alike.2.symm Bool.false_ne_true
      | some new =>
        rw [before, own] at room
        have total : old + new = limit := by
          unfold Chunk.grow at held
          rw [before, own] at held
          exact Option.some.inj held
        exact total ▸ of_decide_eq_true room

theorem admit_spec (candidate : Candidate) (chunks : List Chunk) :
    (∃ before chunk after, chunks = before ++ chunk :: after ∧ fits opts chunk candidate = true ∧
        (admit_ opts candidate chunks).1 = before ++ chunk.grow candidate :: after) ∨
      (admit_ opts candidate chunks).1 = chunks ++ [.of candidate] := by
  induction chunks with
  | nil => exact .inr rfl
  | cons chunk rest ih =>
    unfold admit_
    split
    · next room => exact .inl ⟨[], chunk, rest, rfl, room, rfl⟩
    · rcases ih with ⟨before, found, after, split, room, is⟩ | is
      · exact .inl ⟨chunk :: before, found, after, by rw [split]; rfl, room, by rw [is]; rfl⟩
      · exact .inr (by rw [is]; rfl)

theorem admit_members (candidate : Candidate) (chunks : List Chunk) :
    ((admit_ opts candidate chunks).1.flatMap Chunk.members).Perm
      (candidate.index :: chunks.flatMap Chunk.members) := by
  rcases admit_spec candidate chunks with ⟨before, chunk, after, rfl, -, is⟩ | is
  · rw [is, List.flatMap_append, List.flatMap_append, List.flatMap_cons, List.flatMap_cons]
    have grown : (chunk.grow candidate).members = chunk.members ++ [candidate.index] := rfl
    rw [grown, List.append_assoc, List.singleton_append]
    exact ((List.perm_middle).append_left _).trans List.perm_middle
  · rw [is, List.flatMap_append]
    exact List.perm_append_comm

/-- The first `count` filters are each in one chunk of their group, or passed through. -/
structure Sorted (toLowerCase : String → String) (numbers : Json.NumberText) (opts : BatchOptions)
    (filters : List NostrFilter) (count : Nat) (state : Sorting) : Prop where
  chunks : ∀ entry ∈ state.groups.entries, ∀ chunk ∈ entry.2,
    Sharing toLowerCase numbers opts filters entry.1 chunk
  members : (state.groups.values.flatten.flatMap Chunk.members ++ state.passthrough).Perm
    (List.range count)

theorem Sorted.next {count : Nat} {state : Sorting} {filter : NostrFilter}
    (sorted : Sorted toLowerCase numbers opts filters count state)
    (found : filters[count]? = some filter) :
    Sorted toLowerCase numbers opts filters (count + 1)
      (sortOne toLowerCase numbers opts state (filter, count)) := by
  obtain ⟨chunks, members⟩ := sorted
  have here : candidateAt toLowerCase opts filters count =
      asCandidate toLowerCase opts filter count := by
    rw [candidateAt, found, Option.bind_some]
  have grown : (List.range (count + 1)).Perm (count :: List.range count) := by
    rw [List.range_succ]
    exact List.perm_append_comm
  unfold sortOne
  cases is : asCandidate toLowerCase opts filter count with
  | none =>
    refine ⟨chunks, ?_⟩
    dsimp only
    rw [← List.append_assoc]
    exact (List.perm_append_comm).trans ((members.cons count).trans grown.symm)
  | some candidate =>
    obtain ⟨index, -, -, -, -, few, -⟩ := asCandidate_spec is
    have own : candidateAt toLowerCase opts filters candidate.index = some candidate := by
      rw [index, here, is]
    dsimp only
    -- What the group of the candidate holds then.
    have good : ∀ old, (∀ chunk ∈ old,
        Sharing toLowerCase numbers opts filters (groupKey numbers candidate) chunk) →
          ∀ chunk ∈ (admit_ opts candidate old).1,
            Sharing toLowerCase numbers opts filters (groupKey numbers candidate) chunk := by
      intro old shares chunk among
      rcases admit_spec candidate old with ⟨before, held, after, rfl, room, is⟩ | is
      · rw [is] at among
        rcases List.mem_append.mp among with first | rest
        · exact shares chunk (List.mem_append_left _ first)
        · rcases List.mem_cons.mp rest with rfl | last
          · exact (shares held (List.mem_append_right _ List.mem_cons_self)).grow own room
          · exact shares chunk (List.mem_append_right _ (List.mem_cons_of_mem _ last))
      · rw [is] at among
        rcases List.mem_append.mp among with first | last
        · exact shares chunk first
        · rw [List.mem_singleton.mp last]
          exact .of own few
    have old : ∀ chunk ∈ (state.groups.get (groupKey numbers candidate)).getD [],
        Sharing toLowerCase numbers opts filters (groupKey numbers candidate) chunk := by
      intro chunk among
      cases held : state.groups.get (groupKey numbers candidate) with
      | none =>
        rw [held] at among
        contradiction
      | some group =>
        rw [held] at among
        exact chunks _ (OrderedMap.get_eq_some.mp held) chunk among
    constructor
    · intro entry among chunk inside
      rcases OrderedMap.mem_set.mp among with ⟨key, value⟩ | ⟨-, before⟩
      · rw [value] at inside
        exact key ▸ good _ old chunk inside
      · exact chunks entry before chunk inside
    · have added : ((state.groups.set (groupKey numbers candidate)
          (admit_ opts candidate
            ((state.groups.get (groupKey numbers candidate)).getD [])).1).values.flatten.flatMap
              Chunk.members).Perm
          (count :: state.groups.values.flatten.flatMap Chunk.members) := by
        cases held : state.groups.get (groupKey numbers candidate) with
        | none =>
          have joined := @admit_members opts candidate []
          rw [index] at joined
          unfold OrderedMap.values
          rw [OrderedMap.entries_set_of_none held, List.map_append, List.flatten_append,
            List.flatMap_append]
          refine List.perm_append_comm.trans ?_
          simpa using joined.append_right
            ((state.groups.entries.map Prod.snd).flatten.flatMap Chunk.members)
        | some group =>
          have joined := @admit_members opts candidate group
          rw [index] at joined
          obtain ⟨before, after, split, changed⟩ := OrderedMap.entries_set_of_some held
            (admit_ opts candidate group).1
          unfold OrderedMap.values
          rw [Option.getD_some, changed, split]
          simp only [List.map_append, List.map_cons, List.flatten_append, List.flatten_cons,
            List.flatMap_append]
          exact ((joined.append_right _).append_left _).trans List.perm_middle
      exact (added.append_right _).trans ((members.cons count).trans grown.symm)

theorem sorted_from (rest : List NostrFilter) : ∀ (count : Nat) (state : Sorting),
    filters.drop count = rest → count ≤ filters.length →
      Sorted toLowerCase numbers opts filters count state →
        Sorted toLowerCase numbers opts filters filters.length
          ((rest.zipIdx count).foldl (sortOne toLowerCase numbers opts) state) := by
  induction rest with
  | nil =>
    intro count state ends within sorted
    have all : count = filters.length := by
      have := List.drop_eq_nil_iff.mp ends
      omega
    exact all ▸ sorted
  | cons filter rest ih =>
    intro count state ends within sorted
    have less : count < filters.length := by
      by_contra late
      rw [List.drop_eq_nil_of_le (Nat.le_of_not_lt late)] at ends
      contradiction
    rw [List.drop_eq_getElem_cons less, List.cons.injEq] at ends
    have found : filters[count]? = some filter := by
      rw [List.getElem?_eq_getElem less, ends.1]
    rw [List.zipIdx_cons, List.foldl_cons]
    exact ih (count + 1) _ ends.2 less (sorted.next found)

theorem sorted_all : Sorted toLowerCase numbers opts filters filters.length
    (sortAll toLowerCase numbers opts filters) := by
  apply sorted_from filters 0 _ List.drop_zero (Nat.zero_le _)
  exact ⟨fun _ among => absurd among List.not_mem_nil, List.Perm.refl _⟩

end Groups

/-! ## Placement -/

theorem length_place (placement : List (Option Nat)) (entry : List Nat × Nat) :
    (place placement entry).length = placement.length := by
  unfold place
  induction entry.1 generalizing placement with
  | nil => rfl
  | cons member rest ih => rw [List.foldl_cons, ih, List.length_set]

theorem place_other {placement : List (Option Nat)} {entry : List Nat × Nat} {index : Nat}
    (outside : index ∉ entry.1) : (place placement entry)[index]? = placement[index]? := by
  unfold place
  obtain ⟨members, at_⟩ := entry
  dsimp only at outside ⊢
  induction members generalizing placement with
  | nil => rfl
  | cons member rest ih =>
    rw [List.mem_cons, not_or] at outside
    obtain ⟨differs, outside⟩ := outside
    rw [List.foldl_cons, ih outside, List.getElem?_set_ne (Ne.symm differs)]

theorem place_member {placement : List (Option Nat)} {entry : List Nat × Nat} {index : Nat}
    (inside : index ∈ entry.1) (less : index < placement.length) :
    (place placement entry)[index]? = some (some entry.2) := by
  unfold place
  obtain ⟨members, at_⟩ := entry
  dsimp only at inside ⊢
  induction members generalizing placement with
  | nil => contradiction
  | cons member rest ih =>
    rw [List.foldl_cons]
    by_cases later : index ∈ rest
    · exact ih (by rwa [List.length_set]) later
    · have here : index = member := (List.mem_cons.mp inside).resolve_right later
      subst here
      have kept := @place_other (placement.set index (some at_)) (rest, at_) index later
      unfold place at kept
      rw [kept, List.getElem?_set_self less]

theorem place_all {owners : List (List Nat)} (apart : owners.flatten.Nodup) :
    ∀ (start : Nat) (placement : List (Option Nat)),
      ((owners.zipIdx start).foldl place placement).length = placement.length ∧
      ∀ index, (index ∉ owners.flatten →
          ((owners.zipIdx start).foldl place placement)[index]? = placement[index]?) ∧
        ∀ at_ members, owners[at_]? = some members → index ∈ members → index < placement.length →
          ((owners.zipIdx start).foldl place placement)[index]? = some (some (start + at_)) := by
  induction owners with
  | nil =>
    intro start placement
    exact ⟨rfl, fun index => ⟨fun _ => rfl, fun at_ members found => by simp at found⟩⟩
  | cons first rest ih =>
    intro start placement
    rw [List.flatten_cons, List.nodup_append] at apart
    obtain ⟨-, apart, disjoint⟩ := apart
    obtain ⟨length, each⟩ := ih apart (start + 1) (place placement (first, start))
    rw [List.zipIdx_cons, List.foldl_cons]
    refine ⟨length.trans (length_place _ _), fun index => ⟨fun outside => ?_, ?_⟩⟩
    · rw [List.flatten_cons, List.mem_append, not_or] at outside
      rw [(each index).1 outside.2, place_other outside.1]
    · intro at_ members found inside less
      cases at_ with
      | zero =>
        have same : first = members := Option.some.inj found
        subst same
        have outside : index ∉ rest.flatten := fun later => disjoint index inside index later rfl
        rw [(each index).1 outside, place_member inside less]
        rfl
      | succ at_ =>
        have placed := (each index).2 at_ members found inside (by rwa [length_place])
        rw [placed]
        congr 2
        omega

/-! ## The plan -/

def BatchPlan.sharers (plan : BatchPlan) (at_ : Nat) : List Nat :=
  (List.range plan.placement.length).filter fun index => plan.placement[index]? = some (some at_)

def Carries (toLowerCase : String → String) (wire filter : NostrFilter) : Prop :=
  wire = filter ∨ ∃ kinds authors wireKinds wireAuthors, filter.kinds.join = some kinds ∧
    filter.authors.join = some authors ∧ wire.kinds.join = some wireKinds ∧
    wire.authors.join = some wireAuthors ∧ (∀ kind, kind ∈ wireKinds ↔ kind ∈ kinds) ∧
    ∀ author ∈ authors, toLowerCase author ∈ wireAuthors

def limitOf (filters : List NostrFilter) (index : Nat) : Int :=
  (filters[index]?.bind fun filter => filter.limit.join).getD 0

structure Planned (toLowerCase : String → String) (opts : BatchOptions) (filters : List NostrFilter)
    (plan : BatchPlan) : Prop where
  length : plan.placement.length = filters.length
  placed : ∀ (index : Nat) (filter : NostrFilter), filters[index]? = some filter →
    ∃ (at_ : Nat) (wire : NostrFilter), plan.placement[index]? = some (some at_) ∧
      plan.filters[at_]? = some wire ∧ Carries toLowerCase wire filter
  few : ∀ (at_ : Nat) (wire : NostrFilter), plan.filters[at_]? = some wire →
    2 ≤ (plan.sharers at_).length →
    ∃ authors, wire.authors.join = some authors ∧ authors.length ≤ opts.authorsPerChunk
  bounded : ∀ (at_ : Nat) (wire : NostrFilter), plan.filters[at_]? = some wire →
    2 ≤ (plan.sharers at_).length →
    ∀ limit, wire.limit.join = some limit → limit ≤ opts.maxMergedLimit
  apart : ∀ (at_ : Nat) (wire : NostrFilter), plan.filters[at_]? = some wire →
    ∀ index ∈ plan.sharers at_, ∀ filter : NostrFilter, filters[index]? = some filter →
      (filter.limit.join = none ↔ wire.limit.join = none)
  sum : ∀ (at_ : Nat) (wire : NostrFilter), plan.filters[at_]? = some wire →
    ∀ limit, wire.limit.join = some limit →
      limit = ((plan.sharers at_).map (limitOf filters)).sum

section Plans

variable {toLowerCase : String → String} {numbers : Json.NumberText} {opts : BatchOptions}
variable {filters : List NostrFilter}

/-- Who shares each filter on the wire. -/
def ownersOf (toLowerCase : String → String) (numbers : Json.NumberText) (opts : BatchOptions)
    (filters : List NostrFilter) : List (List Nat) :=
  (sortAll toLowerCase numbers opts filters).groups.values.flatten.map Chunk.members ++
    (sortAll toLowerCase numbers opts filters).passthrough.map fun index => [index]

theorem owners_perm : (ownersOf toLowerCase numbers opts filters).flatten.Perm
    (List.range filters.length) := by
  have members := (@sorted_all toLowerCase numbers opts filters).members
  have single : ∀ indices : List Nat, (indices.map fun index => [index]).flatten = indices := by
    intro indices
    rw [← List.flatMap_def]
    exact List.flatMap_singleton' indices
  unfold ownersOf
  rw [List.flatten_append, single, ← List.flatMap_def]
  exact members

theorem owners_nodup : (ownersOf toLowerCase numbers opts filters).flatten.Nodup :=
  owners_perm.nodup_iff.mpr List.nodup_range

theorem length_placement :
    (planAuthorBatches toLowerCase numbers opts filters).placement.length = filters.length :=
  (place_all owners_nodup 0 _).1.trans List.length_replicate

theorem placement_iff {index at_ : Nat} (less : index < filters.length) :
    (planAuthorBatches toLowerCase numbers opts filters).placement[index]? = some (some at_) ↔
      ∃ members, (ownersOf toLowerCase numbers opts filters)[at_]? = some members ∧
        index ∈ members := by
  have placed : ∀ at_ members, (ownersOf toLowerCase numbers opts filters)[at_]? = some members →
      index ∈ members → (planAuthorBatches toLowerCase numbers opts filters).placement[index]? =
        some (some at_) := by
    intro at_ members found inside
    have here := ((place_all (@owners_nodup toLowerCase numbers opts filters) 0
      (List.replicate filters.length none)).2 index).2 at_ members found inside (by simpa using less)
    rw [Nat.zero_add] at here
    exact here
  constructor
  · intro is
    have among : index ∈ (ownersOf toLowerCase numbers opts filters).flatten :=
      owners_perm.mem_iff.mpr (List.mem_range.mpr less)
    obtain ⟨members, listed, inside⟩ := List.mem_flatten.mp among
    obtain ⟨other, found⟩ := List.getElem?_of_mem listed
    have there := placed other members found inside
    rw [is] at there
    have same : at_ = other := Option.some.inj (Option.some.inj there)
    exact ⟨members, same ▸ found, inside⟩
  · rintro ⟨members, found, inside⟩
    exact placed at_ members found inside

theorem sharers_perm {at_ : Nat} {members : List Nat}
    (found : (ownersOf toLowerCase numbers opts filters)[at_]? = some members) :
    ((planAuthorBatches toLowerCase numbers opts filters).sharers at_).Perm members := by
  have listed := List.mem_of_getElem? found
  have within : ∀ index ∈ members, index < filters.length := by
    intro index inside
    exact List.mem_range.mp (owners_perm.mem_iff.mp (List.mem_flatten.mpr ⟨members, listed, inside⟩))
  have single : members.Nodup := by
    have apart := @owners_nodup toLowerCase numbers opts filters
    exact (List.nodup_flatten.mp apart).1 members listed
  apply (List.perm_ext_iff_of_nodup (List.nodup_range.filter _) single).mpr
  intro index
  rw [List.mem_filter, List.mem_range, length_placement, decide_eq_true_eq]
  constructor
  · rintro ⟨less, is⟩
    obtain ⟨others, same, inside⟩ := (placement_iff less).mp is
    rw [found] at same
    exact Option.some.inj same ▸ inside
  · intro inside
    exact ⟨within index inside, (placement_iff (within index inside)).mpr ⟨members, found, inside⟩⟩

theorem wire_cases {at_ : Nat} {wire : NostrFilter}
    (found : (planAuthorBatches toLowerCase numbers opts filters).filters[at_]? = some wire) :
    ∃ members, (ownersOf toLowerCase numbers opts filters)[at_]? = some members ∧
      ((∃ key chunk, Sharing toLowerCase numbers opts filters key chunk ∧ members = chunk.members ∧
          wire = chunk.filter) ∨
        ∃ index, members = [index] ∧ filters[index]? = some wire) := by
  have sorted := @sorted_all toLowerCase numbers opts filters
  unfold planAuthorBatches at found
  unfold ownersOf
  dsimp only at found
  rcases Nat.lt_or_ge at_
    ((sortAll toLowerCase numbers opts filters).groups.values.flatten.length) with early | late
  · rw [List.getElem?_append_left (by rwa [List.length_map]), List.getElem?_map] at found
    obtain ⟨chunk, here, is⟩ := Option.map_eq_some_iff.mp found
    refine ⟨chunk.members, ?_, .inl ?_⟩
    · rw [List.getElem?_append_left (by rwa [List.length_map]), List.getElem?_map, here]
      rfl
    · obtain ⟨group, listed, inside⟩ := List.mem_flatten.mp (List.mem_of_getElem? here)
      obtain ⟨entry, among, same⟩ := List.mem_map.mp listed
      exact ⟨entry.1, chunk, sorted.chunks entry among chunk (same ▸ inside), rfl, is.symm⟩
  · rw [List.getElem?_append_right (by rwa [List.length_map]), List.length_map,
      List.getElem?_map] at found
    obtain ⟨index, here, is⟩ := Option.map_eq_some_iff.mp found
    refine ⟨[index], ?_, .inr ⟨index, rfl, ?_⟩⟩
    · rw [List.getElem?_append_right (by rwa [List.length_map]), List.length_map,
        List.getElem?_map, here]
      rfl
    · have among : index ∈ List.range filters.length :=
        sorted.members.mem_iff.mp (List.mem_append_right _ (List.mem_of_getElem? here))
      have less := List.mem_range.mp among
      rw [List.getElem?_eq_getElem less] at is ⊢
      exact congrArg some is

theorem owners_wire {at_ : Nat} {members : List Nat}
    (found : (ownersOf toLowerCase numbers opts filters)[at_]? = some members) :
    ∃ wire, (planAuthorBatches toLowerCase numbers opts filters).filters[at_]? = some wire := by
  have less := (List.getElem?_eq_some_iff.mp found).1
  have same : (planAuthorBatches toLowerCase numbers opts filters).filters.length =
      (ownersOf toLowerCase numbers opts filters).length := by
    unfold planAuthorBatches ownersOf
    dsimp only
    rw [List.length_append, List.length_append, List.length_map, List.length_map, List.length_map,
      List.length_map]
  exact ⟨_, List.getElem?_eq_getElem (same ▸ less)⟩

theorem limitOf_candidate {index : Nat} {candidate : Candidate}
    (is : candidateAt toLowerCase opts filters index = some candidate) :
    limitOf filters index = limitAt toLowerCase opts filters index := by
  obtain ⟨filter, found, asked⟩ := Option.bind_eq_some_iff.mp is
  obtain ⟨-, -, -, -, -, -, limit⟩ := asCandidate_spec asked
  rw [limitOf, limitAt, is, found, Option.bind_some, Option.bind_some, limit]
  cases candidate.limit <;> rfl

theorem planned : Planned toLowerCase opts filters
    (planAuthorBatches toLowerCase numbers opts filters) := by
  constructor
  · exact length_placement
  · intro index filter held
    have less := (List.getElem?_eq_some_iff.mp held).1
    have among : index ∈ (ownersOf toLowerCase numbers opts filters).flatten :=
      owners_perm.mem_iff.mpr (List.mem_range.mpr less)
    obtain ⟨members, listed, inside⟩ := List.mem_flatten.mp among
    obtain ⟨at_, found⟩ := List.getElem?_of_mem listed
    obtain ⟨wire, onWire⟩ := owners_wire found
    refine ⟨at_, wire, (placement_iff less).mpr ⟨members, found, inside⟩, onWire, ?_⟩
    obtain ⟨same, here, chunk | alone⟩ := wire_cases onWire
    · obtain ⟨key, chunk, sharing, rfl, rfl⟩ := chunk
      rw [found] at here
      cases here
      obtain ⟨candidate, is, -, sameKinds, more, -⟩ := sharing.member index inside
      obtain ⟨other, there, asked⟩ := Option.bind_eq_some_iff.mp is
      rw [held] at there
      cases there
      obtain ⟨-, -, ⟨kinds, isKinds, kind⟩, ⟨authors, isAuthors, author⟩, -⟩ := asCandidate_spec asked
      refine .inr ⟨kinds, authors, chunk.kinds, sortTexts chunk.authors, isKinds, isAuthors, rfl, rfl,
        sameKinds ▸ kind, fun name own => ?_⟩
      apply (List.mem_insertionSort _).mpr
      exact more ((author _).mpr (List.mem_map_of_mem own))
    · obtain ⟨only, rfl, is⟩ := alone
      rw [found] at here
      cases here
      rw [List.mem_singleton.mp inside, is] at held
      exact .inl (Option.some.inj held)
  · intro at_ wire found two
    obtain ⟨members, here, chunk | alone⟩ := wire_cases found
    · obtain ⟨key, chunk, sharing, rfl, rfl⟩ := chunk
      refine ⟨sortTexts chunk.authors, rfl, ?_⟩
      rw [sortTexts, List.length_insertionSort]
      exact sharing.few
    · obtain ⟨only, rfl, -⟩ := alone
      rw [(sharers_perm here).length_eq] at two
      exact absurd two (by simp)
  · intro at_ wire found two limit held
    obtain ⟨members, here, chunk | alone⟩ := wire_cases found
    · obtain ⟨key, chunk, sharing, rfl, rfl⟩ := chunk
      rw [(sharers_perm here).length_eq] at two
      cases own : chunk.limit with
      | none => simp [Chunk.filter, own] at held
      | some most =>
        have same : (most : Int) = limit := by simpa [Chunk.filter, own] using held
        exact same ▸ Int.ofNat_le.mpr (sharing.bounded two most own)
    · obtain ⟨only, rfl, -⟩ := alone
      rw [(sharers_perm here).length_eq] at two
      exact absurd two (by simp)
  · intro at_ wire found index among filter held
    obtain ⟨members, here, chunk | alone⟩ := wire_cases found
    · obtain ⟨key, chunk, sharing, rfl, rfl⟩ := chunk
      obtain ⟨candidate, is, -, -, -, limits⟩ :=
        sharing.member index ((sharers_perm here).mem_iff.mp among)
      obtain ⟨other, there, asked⟩ := Option.bind_eq_some_iff.mp is
      rw [held] at there
      cases there
      obtain ⟨-, -, -, -, -, -, limit⟩ := asCandidate_spec asked
      rw [limit]
      cases own : candidate.limit <;> cases chunks : chunk.limit <;> rw [own, chunks] at limits <;>
        simp_all [Chunk.filter]
    · obtain ⟨only, rfl, is⟩ := alone
      have same := List.mem_singleton.mp ((sharers_perm here).mem_iff.mp among)
      rw [same, is] at held
      rw [Option.some.inj held]
  · intro at_ wire found limit held
    obtain ⟨members, here, chunk | alone⟩ := wire_cases found
    · obtain ⟨key, chunk, sharing, rfl, rfl⟩ := chunk
      cases own : chunk.limit with
      | none => simp [Chunk.filter, own] at held
      | some most =>
        have same : (most : Int) = limit := by simpa [Chunk.filter, own] using held
        have each : chunk.members.map (limitOf filters) =
            chunk.members.map fun index => (limitAt toLowerCase opts filters index : Int) := by
          apply List.map_congr_left
          intro index inside
          obtain ⟨candidate, is, -⟩ := sharing.member index inside
          exact limitOf_candidate is
        rw [((sharers_perm here).map _).sum_eq, each, ← same, sharing.sum most own,
          Nat.cast_list_sum, List.map_map]
        rfl
    · obtain ⟨only, rfl, is⟩ := alone
      rw [((sharers_perm here).map _).sum_eq, List.map_singleton, List.sum_singleton, limitOf, is,
        Option.bind_some, held]
      rfl

end Plans

/-! ## The answer -/

theorem mem_take_iff {α : Type} {before : α → α → Bool} (irreflexive : ∀ entry, before entry entry = false)
    {entries : List α}
    (sorted : entries.Pairwise fun left right => before left right = true ∧ before right left = false)
    {entry : α} (among : entry ∈ entries) {count : Nat} :
    entry ∈ entries.take count ↔ (entries.filter (before · entry)).length < count := by
  induction entries generalizing count with
  | nil => exact absurd among (List.not_mem_nil)
  | cons first rest ih =>
    obtain ⟨least, sorted⟩ := List.pairwise_cons.mp sorted
    cases count with
    | zero => simp
    | succ count =>
      rw [List.take_succ_cons, List.mem_cons]
      rcases List.mem_cons.mp among with rfl | later
      · have none_ : rest.filter (before · entry) = [] := by
          apply List.filter_eq_nil_iff.mpr
          intro other inside
          rw [(least other inside).2]
          exact Bool.false_ne_true
        rw [List.filter_cons_of_neg (by rw [irreflexive]; exact Bool.false_ne_true), none_]
        simp
      · have apart : entry ≠ first := by
          intro same
          have this := (least entry later).1
          rw [same, irreflexive] at this
          exact Bool.false_ne_true this
        have passed := (least entry later).1
        rw [@List.filter_cons_of_pos _ (before · entry) _ _ passed, List.length_cons,
          Nat.succ_lt_succ_iff, ← ih sorted later]
        simp [apart]

def newer (other event : NostrEvent) : Bool := !newestFirst event other

def inReach (relay : RelayStore) (filter : NostrFilter) (event : NostrEvent) : Bool :=
  matchFilter relay.found filter event && filter.limit.join.all fun limit =>
    (relay.events.filter fun other =>
      matchFilter relay.found filter other && newer other event).length < limit.toNat

structure Answered (relay : RelayStore) (wire : List NostrFilter) (events : List NostrEvent) :
    Prop where
  once : events.Nodup
  all : ∀ event, event ∈ events ↔ ∃ filter ∈ wire, event ∈ relay.answer filter

/-- What rule 4 promises the caller whose filter this is. -/
structure Kept (relay : RelayStore) (filter : NostrFilter) (own : List NostrEvent) : Prop where
  enough : ∀ limit, filter.limit.join = some limit →
    min limit.toNat (relay.events.filter (matchFilter relay.found filter)).length ≤ own.length
  all : filter.limit.join = none → ∀ event ∈ relay.events,
    matchFilter relay.found filter event = true → event ∈ own

structure Uncrowded (relay : RelayStore) (wire : List NostrFilter) (filter : NostrFilter) :
    Prop where
  enough : ∀ limit, filter.limit.join = some limit →
    min limit.toNat (relay.events.filter (matchFilter relay.found filter)).length ≤
      (relay.events.filter fun event =>
        wire.any (inReach relay · event) && matchOriginal filter event).length
  all : filter.limit.join = none → ∀ event ∈ relay.events,
    matchFilter relay.found filter event = true → ∃ asked ∈ wire, inReach relay asked event = true

section Answers

variable {relay : RelayStore}

theorem newestFirst_refl (event : NostrEvent) : newestFirst event event = true := by
  have same := unitsLe_total event.id event.id
  rw [Bool.or_self] at same
  simp [newestFirst, same]

theorem newestFirst_total (left right : NostrEvent) :
    newestFirst left right = true ∨ newestFirst right left = true := by
  have ids := unitsLe_total left.id right.id
  simp only [newestFirst, Bool.or_eq_true, Bool.and_eq_true, decide_eq_true_eq] at ids ⊢
  rcases lt_trichotomy left.created_at right.created_at with less | same | more
  · exact .inr (.inl less)
  · exact ids.imp (fun le => .inr ⟨same, le⟩) fun le => .inr ⟨same.symm, le⟩
  · exact .inl (.inl more)

theorem newestFirst_trans {left middle right : NostrEvent} (first : newestFirst left middle = true)
    (second : newestFirst middle right = true) : newestFirst left right = true := by
  simp only [newestFirst, Bool.or_eq_true, Bool.and_eq_true, decide_eq_true_eq] at first second ⊢
  rcases first with later | ⟨same, ids⟩
  · left
    omega
  · rcases second with later | ⟨same', ids'⟩
    · left
      omega
    · exact .inr ⟨same.trans same', unitsLe_trans ids ids'⟩

theorem newestFirst_antisymm {left right : NostrEvent} (first : newestFirst left right = true)
    (second : newestFirst right left = true) : left.id = right.id := by
  simp only [newestFirst, Bool.or_eq_true, Bool.and_eq_true, decide_eq_true_eq] at first second
  rcases first with later | ⟨same, ids⟩
  · omega
  · rcases second with later | ⟨same', ids'⟩
    · omega
    · exact unitsLe_antisymm ids ids'

theorem mem_answer_iff {filter : NostrFilter} {event : NostrEvent}
    (apart : relay.events.Pairwise fun left right => left.id ≠ right.id) :
    event ∈ relay.answer filter ↔ event ∈ relay.events ∧ inReach relay filter event = true := by
  have total : Std.Total fun left right => newestFirst left right = true := ⟨newestFirst_total⟩
  have trans : IsTrans NostrEvent fun left right => newestFirst left right = true :=
    ⟨fun _ _ _ => newestFirst_trans⟩
  have asked : ∀ other, other ∈ (relay.events.filter (matchFilter relay.found filter)).insertionSort
      (fun left right => newestFirst left right = true) ↔
        other ∈ relay.events ∧ matchFilter relay.found filter other = true := by
    intro other
    rw [List.mem_insertionSort, List.mem_filter]
  unfold RelayStore.answer inReach
  dsimp only
  rw [Bool.and_eq_true]
  cases limited : filter.limit.join with
  | none =>
    rw [asked event]
    simp
  | some limit =>
    have sorted := List.pairwise_insertionSort
      (fun left right => newestFirst left right = true)
      (relay.events.filter (matchFilter relay.found filter))
    have perm := List.perm_insertionSort (fun left right => newestFirst left right = true)
      (relay.events.filter (matchFilter relay.found filter))
    have ids : ((relay.events.filter (matchFilter relay.found filter)).insertionSort
        fun left right => newestFirst left right = true).Pairwise
          fun left right => left.id ≠ right.id :=
      (perm.pairwise_iff (fun different => different.symm)).mpr (apart.filter _)
    have strict : ((relay.events.filter (matchFilter relay.found filter)).insertionSort
        fun left right => newestFirst left right = true).Pairwise
          fun left right => newer left right = true ∧ newer right left = false := by
      apply (sorted.and ids).imp
      rintro left right ⟨first, different⟩
      have back : newestFirst right left = false := by
        apply Bool.eq_false_iff.mpr
        exact fun second => different (newestFirst_antisymm first second)
      simp [newer, first, back]
    have irreflexive : ∀ entry, newer entry entry = false := by
      intro entry
      simp [newer, newestFirst_refl]
    have counted : (((relay.events.filter (matchFilter relay.found filter)).insertionSort
        fun left right => newestFirst left right = true).filter (newer · event)).length =
          (relay.events.filter fun other =>
            matchFilter relay.found filter other && newer other event).length := by
      rw [(perm.filter _).length_eq, List.filter_filter]
      simp only [Bool.and_comm]
    constructor
    · intro answered
      obtain ⟨stored, passed⟩ := (asked event).mp (List.mem_of_mem_take answered)
      have few := (mem_take_iff irreflexive strict ((asked event).mpr ⟨stored, passed⟩)).mp answered
      rw [counted] at few
      exact ⟨stored, passed, decide_eq_true few⟩
    · rintro ⟨stored, passed, few⟩
      apply (mem_take_iff irreflexive strict ((asked event).mpr ⟨stored, passed⟩)).mpr
      rw [counted]
      exact of_decide_eq_true few

theorem matchOriginal_of_matchFilter {filter : NostrFilter} {event : NostrEvent}
    (asked : matchFilter relay.found filter event = true) : matchOriginal filter event = true := by
  simp only [matchFilter, Bool.and_eq_true] at asked
  obtain ⟨⟨⟨⟨⟨⟨ids, kinds⟩, authors⟩, since⟩, until_⟩, -⟩, tags⟩ := asked
  have after : filter.since.join.all (fun since => since = 0 || since ≤ event.created_at) = true := by
    cases held : filter.since.join with
    | none => rfl
    | some bound =>
      rw [held] at since
      simpa using .inr (of_decide_eq_true since)
  have before : filter.until_.join.all (fun until_ => until_ = 0 || event.created_at ≤ until_) = true := by
    cases held : filter.until_.join with
    | none => rfl
    | some bound =>
      rw [held] at until_
      simpa using .inr (of_decide_eq_true until_)
  simp only [matchOriginal, Bool.and_eq_true]
  exact ⟨⟨⟨⟨⟨ids, kinds⟩, authors⟩, after⟩, before⟩, tags⟩

variable {wire : List NostrFilter} {events : List NostrEvent}

theorem Answered.perm (answered : Answered relay wire events)
    (apart : relay.events.Pairwise fun left right => left.id ≠ right.id) :
    events.Perm (relay.events.filter fun event => wire.any (inReach relay · event)) := by
  have single : relay.events.Nodup :=
    apart.imp fun different same => different (congrArg NostrEvent.id same)
  apply (List.perm_ext_iff_of_nodup answered.once (single.filter _)).mpr
  intro event
  rw [answered.all, List.mem_filter, List.any_eq_true]
  constructor
  · rintro ⟨filter, among, is⟩
    obtain ⟨stored, reached⟩ := (mem_answer_iff apart).mp is
    exact ⟨stored, filter, among, reached⟩
  · rintro ⟨stored, filter, among, reached⟩
    exact ⟨filter, among, (mem_answer_iff apart).mpr ⟨stored, reached⟩⟩

theorem kept_iff (answered : Answered relay wire events)
    (apart : relay.events.Pairwise fun left right => left.id ≠ right.id) (filter : NostrFilter) :
    Kept relay filter (events.filter (matchOriginal filter)) ↔ Uncrowded relay wire filter := by
  have perm := answered.perm apart
  have counted : (events.filter (matchOriginal filter)).length =
      (relay.events.filter fun event =>
        wire.any (inReach relay · event) && matchOriginal filter event).length := by
    rw [(perm.filter _).length_eq, List.filter_filter]
    simp only [Bool.and_comm]
  have reached : ∀ event ∈ relay.events, matchFilter relay.found filter event = true →
      (event ∈ events.filter (matchOriginal filter) ↔
        ∃ asked ∈ wire, inReach relay asked event = true) := by
    intro event stored passed
    rw [List.mem_filter, perm.mem_iff, List.mem_filter, List.any_eq_true]
    exact ⟨fun both => both.1.2, fun some_ => ⟨⟨stored, some_⟩, matchOriginal_of_matchFilter passed⟩⟩
  constructor
  · rintro ⟨enough, all⟩
    refine ⟨fun limit limited => counted ▸ enough limit limited, ?_⟩
    intro unlimited event stored passed
    exact (reached event stored passed).mp (all unlimited event stored passed)
  · rintro ⟨enough, all⟩
    refine ⟨fun limit limited => counted ▸ enough limit limited, ?_⟩
    intro unlimited event stored passed
    exact (reached event stored passed).mpr (all unlimited event stored passed)

end Answers

def byOne (author : String) : NostrFilter where
  kinds := some (some [1])
  authors := some (some [author])
  limit := some (some 1)

def byBoth : NostrFilter where
  kinds := some (some [1])
  authors := some (some ["a", "b"])
  limit := some (some 2)

/-- One author wrote twice since the other one did. -/
def twoAuthors : RelayStore where
  events := [⟨"1", "a", 1, 30, []⟩, ⟨"2", "a", 1, 20, []⟩, ⟨"3", "b", 1, 10, []⟩]
  found := fun _ _ => false

theorem planned_both : (planAuthorBatches id Json.plainNumbers DEFAULT_BATCH_OPTIONS
    [byOne "a", byOne "b"]).filters = [byBoth] := by
  decide

theorem answered_both : Answered twoAuthors
    (planAuthorBatches id Json.plainNumbers DEFAULT_BATCH_OPTIONS [byOne "a", byOne "b"]).filters
    [⟨"1", "a", 1, 30, []⟩, ⟨"2", "a", 1, 20, []⟩] := by
  have sent : twoAuthors.answer byBoth = [⟨"1", "a", 1, 30, []⟩, ⟨"2", "a", 1, 20, []⟩] := by decide
  rw [planned_both, ← sent]
  constructor
  · decide
  · simp

end NostrWot.Hub.Batch
