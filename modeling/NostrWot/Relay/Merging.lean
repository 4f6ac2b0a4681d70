import NostrWot.Relay.Filter
import Mathlib.Data.List.Basic

namespace NostrWot.Relay

open NostrWot.Data

/-! # Merging filters and taking the results apart -/

/-- An optional number as a condition. -/
def truthy (value : Own Int) : Bool := value.join.any (· ≠ 0)

def isMultiKindMergeable (filter : NostrFilter) : Bool :=
  filter.kinds.join.any (fun kinds => !kinds.isEmpty) &&
    filter.authors.join.any (fun authors => !authors.isEmpty) &&
    !(truthy filter.limit || truthy filter.since || truthy filter.until_) &&
    filter.keys.all (· ∈ ["kinds", "authors"])

def isKindAuthorWithLimit (filter : NostrFilter) : Bool :=
  (filter.keys.filter (· ≠ "limit")).length = 2 && filter.kinds.join.any (·.length = 1) &&
    filter.authors.join.any (fun authors => !authors.isEmpty) && !truthy filter.since &&
    !truthy filter.until_

def isIdsOnlyFilter (filter : NostrFilter) : Bool :=
  filter.keys = ["ids"] && filter.ids.join.isSome

def addAll {α : Type} [DecidableEq α] (set values : List α) : List α :=
  values.foldl (fun set value => if value ∈ set then set else set ++ [value]) set

structure MultiKindGroup where
  kinds : List Int
  authors : List String
  queryIndices : List Nat

structure KindAuthorGroup where
  authors : List String
  queryIndices : List Nat

structure IdGroup where
  ids : List String
  queryIndices : List Nat

/-- The groups that `_mergeFilters` sorts its queries into. -/
structure Sorted where
  multiKindGroups : OrderedMap (List Char) MultiKindGroup
  kindAuthorGroups : OrderedMap Int KindAuthorGroup
  idGroup : IdGroup
  unmergeable : List (NostrFilter × Nat)

def Sorted.empty : Sorted := ⟨∅, ∅, ⟨[], []⟩, []⟩

def MultiKindGroup.add (group : MultiKindGroup) (kinds : List Int) (authors : List String)
    (indices : List Nat) : MultiKindGroup where
  kinds := addAll group.kinds kinds
  authors := addAll group.authors authors
  queryIndices := group.queryIndices ++ indices

/-- One round of the loop over the queries. -/
def Sorted.sort (sorted : Sorted) (filter : NostrFilter) (index : Nat) : Sorted :=
  let kinds := filter.kinds.join.getD []
  let authors := filter.authors.join.getD []
  if isMultiKindMergeable filter then
    let authorKey := sortedJoin authors
    let existing := (sorted.multiKindGroups.get authorKey).getD ⟨[], [], []⟩
    { sorted with
      multiKindGroups := sorted.multiKindGroups.set authorKey (existing.add kinds authors [index]) }
  else if isKindAuthorWithLimit filter then
    let kind := kinds.headD 0
    let existing := (sorted.kindAuthorGroups.get kind).getD ⟨[], []⟩
    { sorted with
      kindAuthorGroups := sorted.kindAuthorGroups.set kind
        ⟨existing.authors ++ authors, existing.queryIndices ++ [index]⟩ }
  else if isIdsOnlyFilter filter then
    { sorted with
      idGroup := ⟨sorted.idGroup.ids ++ filter.ids.join.getD [],
        sorted.idGroup.queryIndices ++ [index]⟩ }
  else { sorted with unmergeable := sorted.unmergeable ++ [(filter, index)] }

def absorb (group : MultiKindGroup) :
    List MultiKindGroup → Option (MultiKindGroup × List MultiKindGroup)
  | [] => none
  | other :: rest =>
    if other.authors.any (· ∈ group.authors) then
      some (group.add other.kinds other.authors other.queryIndices, rest)
    else (absorb group rest).map fun found => (found.1, other :: found.2)

/-- The first two groups with an author in common become one. -/
def mergeFirst : List MultiKindGroup → Option (List MultiKindGroup)
  | [] => none
  | group :: rest =>
    match absorb group rest with
    | some found => some (found.1 :: found.2)
    | none => (mergeFirst rest).map (group :: ·)

/-- `while (didMerge)`, at most as often as there are groups. -/
def mergeOverlapping : Nat → List MultiKindGroup → List MultiKindGroup
  | 0, groups => groups
  | fuel + 1, groups =>
    match mergeFirst groups with
    | some merged => mergeOverlapping fuel merged
    | none => groups

structure Merged where
  filter : NostrFilter
  originalIndices : List Nat

def Sorted.merged (sorted : Sorted) : List Merged :=
  let mkGroups := sorted.multiKindGroups.values
  (mergeOverlapping mkGroups.length mkGroups).map (fun group =>
      ⟨{ kinds := some (some group.kinds), authors := some (some group.authors) },
        group.queryIndices⟩) ++
    sorted.kindAuthorGroups.entries.map (fun entry =>
      ⟨{ kinds := some (some [entry.1]), authors := some (some (addAll [] entry.2.authors)) },
        entry.2.queryIndices⟩) ++
    (if sorted.idGroup.ids.isEmpty then []
      else [⟨{ ids := some (some (addAll [] sorted.idGroup.ids)) }, sorted.idGroup.queryIndices⟩]) ++
    sorted.unmergeable.map fun item => ⟨item.1, [item.2]⟩

/-- The queries from the `index`-th on, sorted in turn. -/
def sortAll (sorted : Sorted) (index : Nat) : List NostrFilter → Sorted
  | [] => sorted
  | filter :: rest => sortAll (sorted.sort filter index) (index + 1) rest

def mergeFilters (filters : List NostrFilter) : List Merged := (sortAll .empty 0 filters).merged

def eventMatchesFilter (event : NostrEvent) (filter : NostrFilter) : Bool :=
  filter.ids.join.all (event.id ∈ ·) && filter.kinds.join.all (event.kind ∈ ·) &&
    filter.authors.join.all (event.pubkey ∈ ·) &&
    filter.since.join.all (fun since => since = 0 || since ≤ event.created_at) &&
    filter.until_.join.all (fun until_ => until_ = 0 || event.created_at ≤ until_) &&
    filter.tags.entries.all fun tag =>
      (codeUnits tag.1).length ≠ 1 || tag.2.all (tagged event tag.1)

/-! ## Sets -/

theorem mem_addAll {α : Type} [DecidableEq α] {set values : List α} {value : α} :
    value ∈ addAll set values ↔ value ∈ set ∨ value ∈ values := by
  induction values generalizing set with
  | nil => simp [addAll]
  | cons first rest ih =>
    have unfolded : addAll set (first :: rest) =
        addAll (if first ∈ set then set else set ++ [first]) rest := rfl
    rw [unfolded, ih]
    by_cases held : first ∈ set
    · rw [if_pos held]
      constructor
      · rintro (known | later)
        · exact .inl known
        · exact .inr (List.mem_cons_of_mem _ later)
      · rintro (known | listed)
        · exact .inl known
        · rcases List.mem_cons.mp listed with same | later
          · exact .inl (same ▸ held)
          · exact .inr later
    · rw [if_neg held]
      simp [or_assoc]

/-! ## Merged filters ask for all that their queries ask for -/

def Wider (filter other : NostrFilter) : Prop :=
  filter.limit.join = none ∧
    ∀ found event, matchFilter found other event = true → matchFilter found filter event = true

def Covers (filters : List NostrFilter) (merged : Merged) : Prop :=
  ∀ index ∈ merged.originalIndices, ∃ filter, filters[index]? = some filter ∧
    (merged.filter = filter ∨ Wider merged.filter filter)

def Gathers (filters : List NostrFilter) (kinds : List Int) (authors : List String)
    (indices : List Nat) : Prop :=
  ∀ index ∈ indices, ∃ filter ownKinds ownAuthors, filters[index]? = some filter ∧
    filter.kinds.join = some ownKinds ∧ filter.authors.join = some ownAuthors ∧
    ownKinds ⊆ kinds ∧ ownAuthors ⊆ authors

def GathersIds (filters : List NostrFilter) (ids : List String) (indices : List Nat) : Prop :=
  ∀ index ∈ indices, ∃ filter ownIds, filters[index]? = some filter ∧
    filter.ids.join = some ownIds ∧ ownIds ⊆ ids

variable {filters : List NostrFilter} {kinds moreKinds : List Int} {authors moreAuthors : List String}
  {indices moreIndices : List Nat}

theorem Gathers.mono (gathers : Gathers filters kinds authors indices)
    (wider : kinds ⊆ moreKinds) (wider' : authors ⊆ moreAuthors) :
    Gathers filters moreKinds moreAuthors indices := by
  intro index member
  obtain ⟨filter, ownKinds, ownAuthors, at_, kinds, authors, some_, all⟩ := gathers index member
  exact ⟨filter, ownKinds, ownAuthors, at_, kinds, authors, List.Subset.trans some_ wider,
    List.Subset.trans all wider'⟩

theorem Gathers.append (gathers : Gathers filters kinds authors indices)
    (more : Gathers filters kinds authors moreIndices) :
    Gathers filters kinds authors (indices ++ moreIndices) := by
  intro index member
  rcases List.mem_append.mp member with here | later
  · exact gathers index here
  · exact more index later

theorem Gathers.covers (gathers : Gathers filters kinds authors indices) :
    Covers filters ⟨{ kinds := some (some kinds), authors := some (some authors) }, indices⟩ := by
  intro index member
  obtain ⟨filter, ownKinds, ownAuthors, at_, askedKinds, askedAuthors, some_, all⟩ :=
    gathers index member
  refine ⟨filter, at_, .inr ⟨rfl, fun found event passes => ?_⟩⟩
  unfold matchFilter at passes
  rw [askedKinds, askedAuthors] at passes
  simp only [Bool.and_eq_true, Option.all_some, decide_eq_true_eq] at passes
  simp [matchFilter, some_ passes.1.1.1.1.1.2, all passes.1.1.1.1.2]

theorem GathersIds.covers {ids : List String} (gathers : GathersIds filters ids indices) :
    Covers filters ⟨{ ids := some (some ids) }, indices⟩ := by
  intro index member
  obtain ⟨filter, ownIds, at_, asked, some_⟩ := gathers index member
  refine ⟨filter, at_, .inr ⟨rfl, fun found event passes => ?_⟩⟩
  unfold matchFilter at passes
  rw [asked] at passes
  simp only [Bool.and_eq_true, Option.all_some, decide_eq_true_eq] at passes
  simp [matchFilter, some_ passes.1.1.1.1.1.1]

/-! ## Groups with an author in common -/

theorem absorb_cases {group : MultiKindGroup} {rest : List MultiKindGroup}
    {found : MultiKindGroup × List MultiKindGroup} (absorbed : absorb group rest = some found) :
    ∃ other ∈ rest, found.1 = group.add other.kinds other.authors other.queryIndices ∧
      found.2 ⊆ rest ∧ (∀ left ∈ rest, left = other ∨ left ∈ found.2) ∧
      found.2.length + 1 = rest.length := by
  induction rest generalizing found with
  | nil => contradiction
  | cons other rest ih =>
    unfold absorb at absorbed
    split at absorbed
    · cases absorbed
      refine ⟨other, List.mem_cons_self, rfl, fun left member => List.mem_cons_of_mem _ member,
        fun left member => List.mem_cons.mp member, rfl⟩
    · obtain ⟨later, absorbs, same⟩ := Option.map_eq_some_iff.mp absorbed
      subst same
      obtain ⟨merged, member, added, fewer, kept, length⟩ := ih absorbs
      refine ⟨merged, List.mem_cons_of_mem _ member, added, List.cons_subset_cons _ fewer,
        fun left listed => ?_, ?_⟩
      · rcases List.mem_cons.mp listed with here | after
        · exact .inr (here ▸ List.mem_cons_self)
        · exact (kept left after).imp_right fun still => List.mem_cons_of_mem _ still
      · show later.2.length + 1 + 1 = rest.length + 1
        rw [length]

theorem mergeFirst_cases {groups merged : List MultiKindGroup} (merges : mergeFirst groups = some merged) :
    ∃ group ∈ groups, ∃ other ∈ groups,
      group.add other.kinds other.authors other.queryIndices ∈ merged ∧
      (∀ left ∈ merged, left = group.add other.kinds other.authors other.queryIndices ∨
        left ∈ groups) ∧
      (∀ left ∈ groups, left = group ∨ left = other ∨ left ∈ merged) ∧
      merged.length + 1 = groups.length := by
  induction groups generalizing merged with
  | nil => contradiction
  | cons group rest ih =>
    unfold mergeFirst at merges
    split at merges
    · rename_i found absorbed
      cases merges
      obtain ⟨other, member, added, fewer, kept, length⟩ := absorb_cases absorbed
      refine ⟨group, List.mem_cons_self, other, List.mem_cons_of_mem _ member,
        added ▸ List.mem_cons_self, fun left listed => ?_, fun left listed => ?_, ?_⟩
      · rcases List.mem_cons.mp listed with here | later
        · exact .inl (here.trans added)
        · exact .inr (List.mem_cons_of_mem _ (fewer later))
      · rcases List.mem_cons.mp listed with here | later
        · exact .inl here
        · exact .inr ((kept left later).imp_right fun still => List.mem_cons_of_mem _ still)
      · rw [List.length_cons, List.length_cons, length]
    · obtain ⟨later, rounds, same⟩ := Option.map_eq_some_iff.mp merges
      subst same
      obtain ⟨first, member, other, member', added, fewer, kept, length⟩ := ih rounds
      refine ⟨first, List.mem_cons_of_mem _ member, other, List.mem_cons_of_mem _ member',
        List.mem_cons_of_mem _ added, fun left listed => ?_, fun left listed => ?_, ?_⟩
      · rcases List.mem_cons.mp listed with here | after
        · exact .inr (here ▸ List.mem_cons_self)
        · exact (fewer left after).imp_right fun still => List.mem_cons_of_mem _ still
      · rcases List.mem_cons.mp listed with here | after
        · exact .inr (.inr (here ▸ List.mem_cons_self))
        · exact (kept left after).imp_right fun still =>
            still.imp_right fun stays => List.mem_cons_of_mem _ stays
      · rw [List.length_cons, List.length_cons, length]

theorem mergeOverlapping_gathers {fuel : Nat} {groups : List MultiKindGroup}
    (gathers : ∀ group ∈ groups, Gathers filters group.kinds group.authors group.queryIndices) :
    ∀ group ∈ mergeOverlapping fuel groups,
      Gathers filters group.kinds group.authors group.queryIndices := by
  induction fuel generalizing groups with
  | zero => exact gathers
  | succ fuel ih =>
    cases merges : mergeFirst groups with
    | none => simpa [mergeOverlapping, merges] using gathers
    | some merged =>
      obtain ⟨group, member, other, member', _, fewer, _, _⟩ := mergeFirst_cases merges
      simp only [mergeOverlapping, merges]
      refine ih fun left listed => ?_
      rcases fewer left listed with added | before
      · subst added
        refine ((gathers group member).mono ?_ ?_).append ((gathers other member').mono ?_ ?_)
        all_goals exact fun value held => mem_addAll.mpr (by simp [held])
      · exact gathers left before

theorem mergeOverlapping_includes {fuel index : Nat} {groups : List MultiKindGroup}
    (includes : ∃ group ∈ groups, index ∈ group.queryIndices) :
    ∃ group ∈ mergeOverlapping fuel groups, index ∈ group.queryIndices := by
  induction fuel generalizing groups with
  | zero => exact includes
  | succ fuel ih =>
    cases merges : mergeFirst groups with
    | none => simpa [mergeOverlapping, merges] using includes
    | some merged =>
      obtain ⟨group, _, other, _, added, _, kept, _⟩ := mergeFirst_cases merges
      simp only [mergeOverlapping, merges]
      refine ih ?_
      obtain ⟨held, member, included⟩ := includes
      rcases kept held member with first | second | stays
      · exact ⟨_, added, List.mem_append_left _ (first ▸ included)⟩
      · exact ⟨_, added, List.mem_append_right _ (second ▸ included)⟩
      · exact ⟨held, stays, included⟩

/-! ## Sorting the queries -/

structure Sorted.Faithful (filters : List NostrFilter) (sorted : Sorted) : Prop where
  multiKind : ∀ key group, sorted.multiKindGroups.get key = some group →
    Gathers filters group.kinds group.authors group.queryIndices
  kindAuthor : ∀ kind group, sorted.kindAuthorGroups.get kind = some group →
    Gathers filters [kind] group.authors group.queryIndices
  ids : GathersIds filters sorted.idGroup.ids sorted.idGroup.queryIndices
  unmergeable : ∀ item ∈ sorted.unmergeable, filters[item.2]? = some item.1

inductive Sorted.Has (sorted : Sorted) (index : Nat) : Prop
  | multiKind (key : List Char) (group : MultiKindGroup)
      (held : sorted.multiKindGroups.get key = some group) (member : index ∈ group.queryIndices)
  | kindAuthor (kind : Int) (group : KindAuthorGroup)
      (held : sorted.kindAuthorGroups.get kind = some group) (member : index ∈ group.queryIndices)
  | ids (member : index ∈ sorted.idGroup.queryIndices)
  | unmergeable (filter : NostrFilter) (member : (filter, index) ∈ sorted.unmergeable)

theorem listed_of_any {α : Type} {value : Own (List α)} {test : List α → Bool}
    (holds : value.join.any test = true) : ∃ list, value.join = some list ∧ test list = true := by
  cases asked : value.join with
  | none => rw [asked] at holds; contradiction
  | some list => exact ⟨list, rfl, by rwa [asked] at holds⟩

variable {sorted : Sorted} {filter : NostrFilter} {index : Nat}

theorem Sorted.Faithful.sort (faithful : sorted.Faithful filters)
    (at_ : filters[index]? = some filter) : (sorted.sort filter index).Faithful filters := by
  unfold Sorted.sort
  dsimp only
  split
  · rename_i mergeable
    simp only [isMultiKindMergeable, Bool.and_eq_true] at mergeable
    obtain ⟨kinds, askedKinds, _⟩ := listed_of_any mergeable.1.1.1
    obtain ⟨authors, askedAuthors, _⟩ := listed_of_any mergeable.1.1.2
    rw [askedKinds, askedAuthors, Option.getD_some, Option.getD_some]
    refine { faithful with multiKind := fun key group held => ?_ }
    dsimp only at held
    rw [OrderedMap.get_set] at held
    split at held
    · cases held
      refine Gathers.append ?_ ?_
      · cases existing : sorted.multiKindGroups.get (sortedJoin authors) with
        | none =>
          intro place member
          exact absurd member List.not_mem_nil
        | some group =>
          refine (faithful.multiKind _ group existing).mono ?_ ?_
          all_goals exact fun value member => mem_addAll.mpr (.inl member)
      · intro other member
        cases List.mem_singleton.mp member
        exact ⟨filter, kinds, authors, at_, askedKinds, askedAuthors,
          fun value asked => mem_addAll.mpr (.inr asked),
          fun value asked => mem_addAll.mpr (.inr asked)⟩
    · exact faithful.multiKind key group held
  split
  · rename_i mergeable
    simp only [isKindAuthorWithLimit, Bool.and_eq_true, decide_eq_true_eq] at mergeable
    obtain ⟨kinds, askedKinds, single⟩ := listed_of_any mergeable.1.1.1.2
    obtain ⟨authors, askedAuthors, _⟩ := listed_of_any mergeable.1.1.2
    obtain ⟨kind, same⟩ := List.length_eq_one_iff.mp (of_decide_eq_true single)
    subst same
    rw [askedKinds, askedAuthors, Option.getD_some, Option.getD_some, List.headD_cons]
    refine { faithful with kindAuthor := fun other group held => ?_ }
    dsimp only at held
    rw [OrderedMap.get_set] at held
    split at held
    · rename_i here
      subst here
      cases held
      refine Gathers.append ?_ ?_
      · cases existing : sorted.kindAuthorGroups.get other with
        | none =>
          intro place member
          exact absurd member List.not_mem_nil
        | some group =>
          refine (faithful.kindAuthor _ group existing).mono (List.Subset.refl _) ?_
          exact fun value member => List.mem_append_left _ member
      · intro place member
        cases List.mem_singleton.mp member
        exact ⟨filter, [other], authors, at_, askedKinds, askedAuthors, List.Subset.refl _,
          fun value asked => List.mem_append_right _ asked⟩
    · exact faithful.kindAuthor other group held
  split
  · rename_i idsOnly
    simp only [isIdsOnlyFilter, Bool.and_eq_true] at idsOnly
    obtain ⟨ids, asked⟩ := Option.isSome_iff_exists.mp idsOnly.2
    rw [asked, Option.getD_some]
    refine { faithful with ids := fun other member => ?_ }
    rcases List.mem_append.mp member with before | here
    · obtain ⟨held, own, at_', asked', among⟩ := faithful.ids other before
      exact ⟨held, own, at_', asked', fun value listed => List.mem_append_left _ (among listed)⟩
    · cases List.mem_singleton.mp here
      exact ⟨filter, ids, at_, asked, fun value listed => List.mem_append_right _ listed⟩
  · refine { faithful with unmergeable := fun item member => ?_ }
    rcases List.mem_append.mp member with before | here
    · exact faithful.unmergeable item before
    · cases List.mem_singleton.mp here
      exact at_

theorem Sorted.has_sort : (sorted.sort filter index).Has index := by
  unfold Sorted.sort
  dsimp only
  split
  · exact .multiKind _ _ (OrderedMap.get_set_self _ _ _)
      (List.mem_append_right _ (List.mem_singleton_self _))
  split
  · exact .kindAuthor _ _ (OrderedMap.get_set_self _ _ _)
      (List.mem_append_right _ (List.mem_singleton_self _))
  split
  · exact .ids (List.mem_append_right _ (List.mem_singleton_self _))
  · exact .unmergeable filter (List.mem_append_right _ (List.mem_singleton_self _))

theorem Sorted.Has.sort {place : Nat} (has : sorted.Has place) :
    (sorted.sort filter index).Has place := by
  unfold Sorted.sort
  dsimp only
  split
  · cases has with
    | multiKind key group held member =>
      by_cases same : key = sortedJoin (filter.authors.join.getD [])
      · subst same
        refine .multiKind _ _ (OrderedMap.get_set_self _ _ _) (List.mem_append_left _ ?_)
        rw [held]
        exact member
      · refine .multiKind key group ?_ member
        rw [OrderedMap.get_set, if_neg same]
        exact held
    | kindAuthor kind group held member => exact .kindAuthor kind group held member
    | ids member => exact .ids member
    | unmergeable other member => exact .unmergeable other member
  split
  · cases has with
    | multiKind key group held member => exact .multiKind key group held member
    | kindAuthor kind group held member =>
      by_cases same : kind = (filter.kinds.join.getD []).headD 0
      · subst same
        refine .kindAuthor _ _ (OrderedMap.get_set_self _ _ _) (List.mem_append_left _ ?_)
        rw [held]
        exact member
      · refine .kindAuthor kind group ?_ member
        rw [OrderedMap.get_set, if_neg same]
        exact held
    | ids member => exact .ids member
    | unmergeable other member => exact .unmergeable other member
  split
  · cases has with
    | multiKind key group held member => exact .multiKind key group held member
    | kindAuthor kind group held member => exact .kindAuthor kind group held member
    | ids member => exact .ids (List.mem_append_left _ member)
    | unmergeable other member => exact .unmergeable other member
  · cases has with
    | multiKind key group held member => exact .multiKind key group held member
    | kindAuthor kind group held member => exact .kindAuthor kind group held member
    | ids member => exact .ids member
    | unmergeable other member => exact .unmergeable other (List.mem_append_left _ member)

theorem sortAll_faithful {rest : List NostrFilter} (faithful : sorted.Faithful filters)
    (there : ∀ offset filter, rest[offset]? = some filter → filters[index + offset]? = some filter) :
    (sortAll sorted index rest).Faithful filters := by
  induction rest generalizing sorted index with
  | nil => exact faithful
  | cons filter rest ih =>
    refine ih (faithful.sort (there 0 filter rfl)) fun offset later at_ => ?_
    rw [Nat.add_right_comm]
    exact there (offset + 1) later at_

theorem Sorted.Has.sortAll {rest : List NostrFilter} {place : Nat} (has : sorted.Has place) :
    (sortAll sorted index rest).Has place := by
  induction rest generalizing sorted index with
  | nil => exact has
  | cons filter rest ih => exact ih has.sort

theorem sortAll_has {rest : List NostrFilter} {offset : Nat} (less : offset < rest.length) :
    (sortAll sorted index rest).Has (index + offset) := by
  induction rest generalizing sorted index offset with
  | nil => exact absurd less (Nat.not_lt_zero _)
  | cons filter rest ih =>
    cases offset with
    | zero => exact Sorted.has_sort.sortAll
    | succ offset =>
      rw [← Nat.add_assoc, Nat.add_right_comm]
      exact ih (Nat.lt_of_succ_lt_succ less)

theorem empty_faithful : Sorted.empty.Faithful filters :=
  ⟨fun _ _ absurd => (nomatch absurd), fun _ _ absurd => (nomatch absurd),
    fun _ absurd => (nomatch absurd), fun _ absurd => (nomatch absurd)⟩

theorem sorted_faithful : (sortAll .empty 0 filters).Faithful filters := by
  refine sortAll_faithful empty_faithful fun offset filter at_ => ?_
  rw [Nat.zero_add]
  exact at_

theorem mergeFilters_covers {merged : Merged} (member : merged ∈ mergeFilters filters) :
    Covers filters merged := by
  have faithful : (sortAll .empty 0 filters).Faithful filters := sorted_faithful
  unfold mergeFilters Sorted.merged at member
  dsimp only at member
  simp only [List.mem_append, or_assoc] at member
  rcases member with multi | single | ids | alone
  · obtain ⟨group, listed, same⟩ := List.mem_map.mp multi
    subst same
    refine (mergeOverlapping_gathers (fun group held => ?_) group listed).covers
    obtain ⟨entry, among, same⟩ := List.mem_map.mp held
    subst same
    exact faithful.multiKind entry.1 entry.2 (OrderedMap.get_eq_some.mpr among)
  · obtain ⟨entry, among, same⟩ := List.mem_map.mp single
    subst same
    have gathers := faithful.kindAuthor entry.1 entry.2 (OrderedMap.get_eq_some.mpr among)
    exact (gathers.mono (List.Subset.refl _) fun value asked => mem_addAll.mpr (.inr asked)).covers
  · split at ids
    · contradiction
    · cases List.mem_singleton.mp ids
      refine GathersIds.covers fun index member => ?_
      obtain ⟨filter, own, at_, asked, among⟩ := faithful.ids index member
      exact ⟨filter, own, at_, asked, fun value listed => mem_addAll.mpr (.inr (among listed))⟩
  · obtain ⟨item, listed, same⟩ := List.mem_map.mp alone
    subst same
    intro index member
    cases List.mem_singleton.mp member
    exact ⟨item.1, faithful.unmergeable item listed, .inl rfl⟩

theorem mergeFilters_serves {filter : NostrFilter} {index : Nat} (at_ : filters[index]? = some filter) :
    (∃ merged ∈ mergeFilters filters, index ∈ merged.originalIndices) ∨ filter.ids.join = some [] := by
  have faithful : (sortAll .empty 0 filters).Faithful filters := sorted_faithful
  have has : (sortAll .empty 0 filters).Has index := by
    have found := @sortAll_has .empty 0 filters index (List.getElem?_eq_some_iff.mp at_).1
    rwa [Nat.zero_add] at found
  unfold mergeFilters Sorted.merged
  dsimp only
  simp only [List.mem_append, or_assoc]
  cases has with
  | multiKind key group held member =>
    have listed : ∃ group ∈ (sortAll .empty 0 filters).multiKindGroups.values,
        index ∈ group.queryIndices :=
      ⟨group, List.mem_map.mpr ⟨(key, group), OrderedMap.get_eq_some.mp held, rfl⟩, member⟩
    obtain ⟨merged, among, included⟩ := mergeOverlapping_includes listed
    exact .inl ⟨_, .inl (List.mem_map.mpr ⟨merged, among, rfl⟩), included⟩
  | kindAuthor kind group held member =>
    refine .inl ⟨_, .inr (.inl (List.mem_map.mpr ⟨(kind, group), ?_, rfl⟩)), member⟩
    exact OrderedMap.get_eq_some.mp held
  | ids member =>
    by_cases none : (sortAll .empty 0 filters).idGroup.ids.isEmpty
    · obtain ⟨other, own, at_', asked, among⟩ := faithful.ids index member
      cases at_.symm.trans at_'
      rw [List.isEmpty_iff.mp none] at among
      exact .inr (List.subset_nil.mp among ▸ asked)
    · rw [if_neg none]
      exact .inl ⟨_, .inr (.inr (.inl (List.mem_singleton_self _))), member⟩
  | unmergeable other member =>
    refine .inl ⟨_, .inr (.inr (.inr (List.mem_map.mpr ⟨_, member, rfl⟩))), ?_⟩
    exact List.mem_singleton_self _

/-! ## Taking the results apart -/

variable {event : NostrEvent} {found : String → NostrEvent → Bool}

theorem eventMatchesFilter_of_match (passes : matchFilter found filter event = true) :
    eventMatchesFilter event filter = true := by
  unfold matchFilter at passes
  unfold eventMatchesFilter
  simp only [Bool.and_eq_true] at passes ⊢
  obtain ⟨⟨⟨⟨⟨⟨ids, kinds⟩, authors⟩, since⟩, until_⟩, _⟩, tags⟩ := passes
  refine ⟨⟨⟨⟨⟨ids, kinds⟩, authors⟩, ?_⟩, ?_⟩, ?_⟩
  · cases asked : filter.since.join with
    | none => rfl
    | some time =>
      rw [asked] at since
      simpa using .inr (of_decide_eq_true since)
  · cases asked : filter.until_.join with
    | none => rfl
    | some time =>
      rw [asked] at until_
      simpa using .inr (of_decide_eq_true until_)
  · rw [List.all_eq_true] at tags ⊢
    intro tag member
    rw [tags tag member, Bool.or_true]

/-- A filter of which all is checked when results are taken apart. -/
structure Rechecked (filter : NostrFilter) (event : NostrEvent) : Prop where
  limit : filter.limit.join = none
  since : filter.since.join = some 0 → 0 ≤ event.created_at
  until_ : filter.until_.join ≠ some 0
  search : filter.search.join = none
  tags : ∀ tag ∈ filter.tags.entries, tag.2 ≠ none → (codeUnits tag.1).length = 1

theorem Rechecked.match_of (rechecked : Rechecked filter event)
    (passes : eventMatchesFilter event filter = true) : matchFilter found filter event = true := by
  unfold eventMatchesFilter at passes
  unfold matchFilter
  simp only [Bool.and_eq_true] at passes ⊢
  obtain ⟨⟨⟨⟨⟨ids, kinds⟩, authors⟩, since⟩, until_⟩, tags⟩ := passes
  refine ⟨⟨⟨⟨⟨⟨ids, kinds⟩, authors⟩, ?_⟩, ?_⟩, ?_⟩, ?_⟩
  · cases asked : filter.since.join with
    | none => rfl
    | some time =>
      rw [asked] at since
      simp only [Option.all_some, Bool.or_eq_true, decide_eq_true_eq] at since ⊢
      rcases since with zero | later
      · exact zero ▸ rechecked.since (zero ▸ asked)
      · exact later
  · cases asked : filter.until_.join with
    | none => rfl
    | some time =>
      rw [asked] at until_
      simp only [Option.all_some, Bool.or_eq_true, decide_eq_true_eq] at until_ ⊢
      rcases until_ with zero | before
      · exact absurd (zero ▸ asked) rechecked.until_
      · exact before
  · rw [rechecked.search]
    rfl
  · rw [List.all_eq_true] at tags ⊢
    intro tag member
    have checked := tags tag member
    cases listed : tag.2 with
    | none => rfl
    | some values =>
      have single := rechecked.tags tag member (by rw [listed]; exact Option.some_ne_none _)
      rw [listed] at checked
      simpa [single] using checked

end NostrWot.Relay
