import NostrWot.Wot.Crawl

namespace NostrWot.Wot

open NostrWot.Data NostrWot.Sync NostrWot.Traverse

/-! # What a crawl leaves -/

variable {Value : Type}

/-! ## Versions -/

theorem newerVersion_iff {candidate prior : FollowVersion} :
    newerVersion candidate prior = true ↔ prior.createdAt < candidate.createdAt ∨
      candidate.createdAt = prior.createdAt ∧ unitsLe prior.id candidate.id = false := by
  simp [newerVersion]

theorem not_newer_iff {candidate prior : FollowVersion} :
    newerVersion candidate prior = false ↔ candidate.createdAt < prior.createdAt ∨
      candidate.createdAt = prior.createdAt ∧ unitsLe prior.id candidate.id = true := by
  rw [← Bool.not_eq_true, newerVersion_iff]
  cases unitsLe prior.id candidate.id
  · simp
    omega
  · simp
    omega

theorem not_newer_trans {first second third : FollowVersion}
    (one : newerVersion first second = false) (two : newerVersion second third = false) :
    newerVersion first third = false := by
  rw [not_newer_iff] at one two ⊢
  rcases one with less | ⟨same, order⟩
  · exact .inl (by omega)
  · rcases two with less | ⟨same', order'⟩
    · exact .inl (by omega)
    · exact .inr ⟨same.trans same', unitsLe_trans order' order⟩

theorem not_newer_of_newer {first second : FollowVersion} (newer : newerVersion first second = true) :
    newerVersion second first = false := by
  rw [not_newer_iff]
  rcases newerVersion_iff.mp newer with less | ⟨same, order⟩
  · exact .inl less
  · refine .inr ⟨same.symm, ?_⟩
    have total := unitsLe_total second.id first.id
    rw [order] at total
    exact total

theorem eq_of_not_newer {first second : FollowVersion} (one : newerVersion first second = false)
    (two : newerVersion second first = false) : first = second := by
  rw [not_newer_iff] at one two
  have same : first.createdAt = second.createdAt := by omega
  rcases one with less | ⟨_, order⟩
  · omega
  · rcases two with less | ⟨_, order'⟩
    · omega
    · have ids := unitsLe_antisymm order' order
      cases first
      cases second
      cases same
      cases ids
      rfl

theorem not_newer_self (version : FollowVersion) : newerVersion version version = false :=
  not_newer_iff.mpr (.inr ⟨rfl, by simpa using unitsLe_total version.id version.id⟩)

/-! ## Saving, by pubkeys -/

namespace Graph

structure Named (graph : Graph Value) : Prop where
  whole : graph.Whole
  versions : ∀ id version, graph.versions.get id = some version → graph.Known id

variable {graph : Graph Value}

theorem Named.row_of_unknown (named : graph.Named) {id : Nat} (unknown : ¬graph.Known id) :
    graph.getFollowIdsSync id = [] := by
  unfold getFollowIdsSync
  cases held : graph.graphCache.get id with
  | none => rfl
  | some ids => exact absurd (named.whole.rows id ids held).2.1 unknown

theorem Named.version_of_unknown (named : graph.Named) {id : Nat} (unknown : ¬graph.Known id) :
    graph.versions.get id = none := by
  cases held : graph.versions.get id with
  | none => rfl
  | some version => exact absurd (named.versions id version held) unknown

theorem mem_getFollows {pubkey follow : String} {id : Nat}
    (held : graph.pubkeyToId.get pubkey = some id) :
    follow ∈ graph.getFollows pubkey ↔
      ∃ other ∈ graph.getFollowIdsSync id, graph.idToPubkey.get other = some follow ∧ follow ≠ "" := by
  unfold getFollows
  simp [held, Option.filter_eq_some_iff]

end Graph

structure Agree (before after : Graph Value) (pubkey : String) : Prop where
  follows : after.getFollows pubkey = before.getFollows pubkey
  version : after.getFollowVersion pubkey = before.getFollowVersion pubkey

theorem Agree.refl (graph : Graph Value) (pubkey : String) : Agree graph graph pubkey := ⟨rfl, rfl⟩

theorem Agree.trans {first second third : Graph Value} {pubkey : String}
    (one : Agree first second pubkey) (two : Agree second third pubkey) :
    Agree first third pubkey :=
  ⟨two.follows.trans one.follows, two.version.trans one.version⟩

section Saving

variable {storage minted : GraphStorage Value} {count : Nat}

theorem mints_agree (named : storage.graph.Named) (mints : GraphStorage.Mints count storage minted) :
    minted.graph.Named ∧ ∀ pubkey, Agree storage.graph minted.graph pubkey := by
  obtain ⟨whole, cache, known⟩ := LocalGraph.mints_whole named.whole mints
  have versions : minted.graph.versions = storage.graph.versions := by
    obtain ⟨_, _, _, _, same, _⟩ := mints.made
    rw [same]
  have rows : minted.graph.getFollowIdsSync = storage.graph.getFollowIdsSync := by
    funext id
    unfold Graph.getFollowIdsSync
    rw [cache]
  refine ⟨⟨whole, fun id version held => ?_⟩, fun pubkey => ?_⟩
  · rw [versions] at held
    exact known id (named.versions id version held)
  · have names : ∀ id, storage.graph.Known id →
        minted.graph.idToPubkey.get id = storage.graph.idToPubkey.get id := by
      intro id here
      obtain ⟨name, held⟩ := here
      have there := mints.kept name id ((named.whole.interned.inverse name id).mpr held)
      rw [held]
      exact (mints.interned.inverse name id).mp there
    cases held : storage.graph.pubkeyToId.get pubkey with
    | some id =>
      have later := mints.kept pubkey id held
      refine ⟨?_, ?_⟩
      · unfold Graph.getFollows
        rw [held, later, rows]
        refine List.filterMap_congr fun other listed => ?_
        rw [names other (named.whole.known listed)]
      · unfold Graph.getFollowVersion
        rw [held, later, versions]
    | none =>
      cases later : minted.graph.pubkeyToId.get pubkey with
      | none =>
        refine ⟨?_, ?_⟩
        · unfold Graph.getFollows
          rw [held, later]
        · unfold Graph.getFollowVersion
          rw [held, later]
          rfl
      | some id =>
        have unknown : ¬storage.graph.Known id := by
          intro here
          obtain ⟨name, old⟩ := here
          have there := (mints.interned.inverse pubkey id).mp later
          rw [names id ⟨name, old⟩, old] at there
          cases there
          rw [(named.whole.interned.inverse pubkey id).mpr old] at held
          contradiction
        refine ⟨?_, ?_⟩
        · unfold Graph.getFollows
          rw [held, later, rows]
          dsimp only
          rw [named.row_of_unknown unknown]
          rfl
        · unfold Graph.getFollowVersion
          rw [held, later, versions]
          exact named.version_of_unknown unknown

theorem id_of_mem {named : String → Nat → Prop} {pubkeys : List String} {ids : List Nat}
    (all : List.Forall₂ named pubkeys ids) {pubkey : String} (member : pubkey ∈ pubkeys) :
    ∃ id ∈ ids, named pubkey id := by
  induction all with
  | nil => contradiction
  | @cons first id pubkeys ids here rest ih =>
    rcases List.mem_cons.mp member with same | later
    · exact ⟨id, List.mem_cons_self, same ▸ here⟩
    · obtain ⟨other, listed, also⟩ := ih later
      exact ⟨other, List.mem_cons_of_mem _ listed, also⟩

/-- A list of a newer version takes the place of the one that is stored. -/
structure Replaces (before after : Graph Value) (pubkey : String) (follows : List String)
    (version : FollowVersion) : Prop where
  follows : ∀ follow, follow ∈ after.getFollows pubkey ↔ follow ∈ follows ∧ follow ≠ ""
  version : after.getFollowVersion pubkey = some version
  others : ∀ other, other ≠ pubkey → Agree before after other

theorem saveFollows_agree (named : storage.graph.Named) (pubkey : String) (follows : List String)
    (version : FollowVersion) :
    (storage.saveFollows pubkey follows (some version)).graph.Named ∧
      ((∃ prior, storage.graph.getFollowVersion pubkey = some prior ∧
          newerVersion version prior = false ∧
          ∀ other, Agree storage.graph
            (storage.saveFollows pubkey follows (some version)).graph other) ∨
        (∀ prior, storage.graph.getFollowVersion pubkey = some prior →
          newerVersion version prior = true) ∧
        Replaces storage.graph (storage.saveFollows pubkey follows (some version)).graph pubkey
          follows version) := by
  obtain ⟨one, here⟩ := GraphStorage.getOrCreateId_mints named.whole.interned pubkey
  obtain ⟨namedOne, agreeOne⟩ := mints_agree named one
  have wholeSaved := (LocalGraph.saveFollows_whole named.whole pubkey follows (some version)).1
  have held : storage.graph.getFollowVersion pubkey =
      (storage.getOrCreateId pubkey).2.graph.versions.get (storage.getOrCreateId pubkey).1 := by
    rw [← (agreeOne pubkey).version]
    unfold Graph.getFollowVersion
    rw [here]
    rfl
  rw [held]
  unfold GraphStorage.saveFollows at wholeSaved ⊢
  generalize storage.getOrCreateId pubkey = made at one here namedOne agreeOne held wholeSaved
  obtain ⟨id, minted⟩ := made
  dsimp only at one here namedOne agreeOne held wholeSaved ⊢
  by_cases old : GraphStorage.stale (some version) (minted.graph.versions.get id)
  · rw [if_pos old]
    cases prior : minted.graph.versions.get id with
    | none =>
      rw [prior] at old
      contradiction
    | some prior_ =>
      rw [prior] at old
      unfold GraphStorage.stale at old
      exact ⟨namedOne, .inl ⟨prior_, rfl, by simpa using old, agreeOne⟩⟩
  · rw [if_neg old] at wholeSaved ⊢
    obtain ⟨all, others⟩ := @GraphStorage.getOrCreateIds_mints _ follows.eraseDups minted one.interned
    obtain ⟨namedAll, agreeAll⟩ := mints_agree namedOne all
    generalize minted.getOrCreateIds follows.eraseDups = made at all others namedAll agreeAll wholeSaved
    obtain ⟨ids, saved⟩ := made
    dsimp only at all others namedAll agreeAll wholeSaved ⊢
    have there := all.kept _ _ here
    have sorted : (sortIds ids).Perm ids := List.perm_insertionSort _ _
    -- What is put is the row and the version of the id, and nothing else.
    have row : ∀ other, (saved.putRow id (sortIds ids) (some version)).graph.getFollowIdsSync other =
        if other = id then sortIds ids else saved.graph.getFollowIdsSync other := by
      intro other
      unfold GraphStorage.putRow Graph.getFollowIdsSync
      dsimp only
      split
      · rw [OrderedMap.get_set]
        split <;> rfl
      · rename_i unchanged
        have same : saved.graph.graphCache.get id = some (sortIds ids) := by simpa using unchanged
        split
        · rename_i this
          rw [this, same]
          rfl
        · rfl
    have pubkeyToId : (saved.putRow id (sortIds ids) (some version)).graph.pubkeyToId =
        saved.graph.pubkeyToId := rfl
    have idToPubkey : (saved.putRow id (sortIds ids) (some version)).graph.idToPubkey =
        saved.graph.idToPubkey := rfl
    have versions : ∀ other, (saved.putRow id (sortIds ids) (some version)).graph.versions.get other =
        if other = id then some version else saved.graph.versions.get other :=
      fun other => OrderedMap.get_set _ _ _ _
    refine ⟨⟨wholeSaved, fun other stored put => ?_⟩, .inr ⟨fun prior also => ?_, ?_⟩⟩
    · rw [versions] at put
      split at put
      · rename_i this
        rw [this]
        exact ⟨pubkey, (all.interned.inverse pubkey id).mp there⟩
      · exact namedAll.versions other stored put
    · rw [also] at old
      unfold GraphStorage.stale at old
      simpa using old
    · refine ⟨fun follow => ?_, ?_, fun other apart => (agreeOne other).trans
        ((agreeAll other).trans ⟨?_, ?_⟩)⟩
      · have mem := @Graph.mem_getFollows _
          (saved.putRow id (sortIds ids) (some version)).graph pubkey follow id there
        rw [mem, row, if_pos rfl]
        refine ⟨fun found => ?_, fun both => ?_⟩
        · obtain ⟨number, listed, name, filled⟩ := found
          obtain ⟨name', member, also⟩ := GraphStorage.named_of_mem others (sorted.mem_iff.mp listed)
          have same := (all.interned.inverse name' number).mp also
          rw [idToPubkey, same] at name
          cases name
          exact ⟨List.mem_eraseDups.mp member, filled⟩
        · obtain ⟨member, filled⟩ := both
          obtain ⟨number, listed, also⟩ := id_of_mem others (List.mem_eraseDups.mpr member)
          exact ⟨number, sorted.mem_iff.mpr listed, (all.interned.inverse follow number).mp also, filled⟩
      · unfold Graph.getFollowVersion
        rw [pubkeyToId, there]
        exact (versions id).trans (if_pos rfl)
      all_goals
        have differs : ∀ number, saved.graph.pubkeyToId.get other = some number → number ≠ id := by
          intro number found same
          rw [same] at found
          have name := (all.interned.inverse other id).mp found
          rw [(all.interned.inverse pubkey id).mp there] at name
          exact apart (Option.some.inj name).symm
      · unfold Graph.getFollows
        rw [pubkeyToId, idToPubkey]
        cases found : saved.graph.pubkeyToId.get other with
        | none => rfl
        | some number =>
          dsimp only
          rw [row, if_neg (differs number found)]
      · unfold Graph.getFollowVersion
        rw [pubkeyToId]
        cases found : saved.graph.pubkeyToId.get other with
        | none => rfl
        | some number => exact (versions number).trans (if_neg (differs number found))

end Saving

/-! ## The newest of what was delivered -/

structure Top (log : List Delivery) (author : String) (best : Delivery) : Prop where
  member : best ∈ log
  sent : best.pubkey = author
  newest : ∀ other ∈ log, other.pubkey = author → newerVersion other.version best.version = false

def newestOf (newest : List Delivery) (author : String) : Option Delivery :=
  newest.find? fun delivery => delivery.pubkey = author

/-- What a flight keeps of an author. -/
structure Retains (log newest : List Delivery) (author : String) : Prop where
  silent : newestOf newest author = none → ∀ delivery ∈ log, delivery.pubkey ≠ author
  kept : ∀ best, newestOf newest author = some best → Top log author best

variable {log newest : List Delivery} {author : String}

theorem Retains.other {delivery : Delivery} {newest' : List Delivery} (retains : Retains log newest author)
    (apart : delivery.pubkey ≠ author) (same : newestOf newest' author = newestOf newest author) :
    Retains (log ++ [delivery]) newest' author := by
  refine ⟨fun absent other member => ?_, fun best found => ?_⟩
  · rcases List.mem_append.mp member with old | last
    · exact retains.silent (same ▸ absent) other old
    · rw [List.mem_singleton.mp last]
      exact apart
  · obtain ⟨member, here, top⟩ := retains.kept best (same ▸ found)
    refine ⟨List.mem_append_left _ member, here, fun other listed of_ => ?_⟩
    rcases List.mem_append.mp listed with old | last
    · exact top other old of_
    · rw [List.mem_singleton.mp last] at of_
      exact absurd of_ apart

theorem newestOf_map (newest : List Delivery) (delivery : Delivery) (author : String) :
    newestOf (newest.map fun other => if other.pubkey = delivery.pubkey then delivery else other)
        author =
      (newestOf newest author).map fun other =>
        if other.pubkey = delivery.pubkey then delivery else other := by
  unfold newestOf
  rw [List.find?_map]
  congr 2
  funext other
  by_cases same : other.pubkey = delivery.pubkey <;> simp [same]

theorem newestOf_append (newest : List Delivery) (delivery : Delivery) (author : String) :
    newestOf (newest ++ [delivery]) author =
      (newestOf newest author).or (if delivery.pubkey = author then some delivery else none) := by
  unfold newestOf
  rw [List.find?_append]
  by_cases same : delivery.pubkey = author <;> simp [same]

theorem author_of_newestOf {best : Delivery} (found : newestOf newest author = some best) :
    best.pubkey = author := by
  unfold newestOf at found
  simpa using List.find?_some found

theorem Retains.retain (retains : Retains log newest author) (delivery : Delivery) :
    Retains (log ++ [delivery]) (CrawlState.retain newest delivery) author := by
  have unfolded : CrawlState.retain newest delivery =
      (newestOf newest delivery.pubkey).elim (newest ++ [delivery]) fun prior =>
        if newerVersion delivery.version prior.version then
          newest.map fun other => if other.pubkey = delivery.pubkey then delivery else other
        else newest := by
    unfold CrawlState.retain newestOf
    cases newest.find? fun prior => prior.pubkey = delivery.pubkey <;> rfl
  rw [unfolded]
  by_cases same : delivery.pubkey = author
  · rw [same]
    cases found : newestOf newest author with
    | none =>
      have here : newestOf (newest ++ [delivery]) author = some delivery := by
        rw [newestOf_append, found, if_pos same]
        rfl
      refine ⟨fun absent => ?_, fun best kept => ?_⟩
      · rw [Option.elim_none, here] at absent
        contradiction
      · rw [Option.elim_none, here] at kept
        cases kept
        refine ⟨by simp, same, fun other listed of_ => ?_⟩
        rcases List.mem_append.mp listed with old | last
        · exact absurd of_ (retains.silent found other old)
        · rw [List.mem_singleton.mp last]
          exact not_newer_self _
    | some prior =>
      obtain ⟨member, here, top⟩ := retains.kept prior found
      rw [Option.elim_some]
      by_cases newer : newerVersion delivery.version prior.version
      · rw [if_pos newer]
        have kept : newestOf (newest.map fun other =>
            if other.pubkey = author then delivery else other) author = some delivery := by
          have mapped := newestOf_map newest delivery author
          rw [same, found] at mapped
          rw [mapped]
          simp [here]
        refine ⟨fun absent => ?_, fun best found => ?_⟩
        · rw [kept] at absent
          contradiction
        · rw [kept] at found
          cases found
          refine ⟨by simp, same, fun other listed of_ => ?_⟩
          rcases List.mem_append.mp listed with old | last
          · exact not_newer_trans (top other old of_) (not_newer_of_newer newer)
          · rw [List.mem_singleton.mp last]
            exact not_newer_self _
      · rw [if_neg newer]
        refine ⟨fun absent => ?_, fun best kept => ?_⟩
        · rw [found] at absent
          contradiction
        · rw [found] at kept
          cases kept
          refine ⟨List.mem_append_left _ member, here, fun other listed of_ => ?_⟩
          rcases List.mem_append.mp listed with old | last
          · exact top other old of_
          · rw [List.mem_singleton.mp last]
            simpa using newer
  · refine retains.other same ?_
    cases found : newestOf newest delivery.pubkey with
    | none =>
      rw [Option.elim_none, newestOf_append, if_neg same, Option.or_none]
    | some prior =>
      rw [Option.elim_some]
      split
      · rw [newestOf_map]
        cases kept : newestOf newest author with
        | none => rfl
        | some best =>
          have of_ := author_of_newestOf kept
          have apart : best.pubkey ≠ delivery.pubkey := fun equal => same (equal.symm.trans of_)
          simp [apart]
      · rfl

inductive Updated (before after : Graph Value) (log : List Delivery) (author : String) : Prop
  | kept : (∀ delivery ∈ log, delivery.pubkey = author →
        ∃ prior, before.getFollowVersion author = some prior ∧
          newerVersion delivery.version prior = false) →
      Agree before after author → Updated before after log author
  | replaced (best : Delivery) : Top log author best →
      (∀ prior, before.getFollowVersion author = some prior →
        newerVersion best.version prior = true) →
      after.getFollowVersion author = some best.version →
      (∀ follow, follow ∈ after.getFollows author ↔ follow ∈ best.event.followed) →
      Updated before after log author

namespace CrawlState

variable {before : Graph Value} {state next : CrawlState Value} {left : List String}

theorem expand_eq {follows : List String} : ∀ {state : CrawlState Value},
    ∃ fresh, state.expand follows =
        { state with seen := state.seen ++ fresh, nextSet := state.nextSet ++ fresh } ∧
      fresh.Nodup ∧ ∀ follow, follow ∈ fresh ↔ follow ∈ follows ∧ follow ∉ state.seen := by
  induction follows with
  | nil =>
    intro state
    refine ⟨[], ?_, List.nodup_nil, by simp⟩
    rw [List.append_nil, List.append_nil]
    rfl
  | cons follow follows ih =>
    intro state
    by_cases old : follow ∈ state.seen
    · obtain ⟨fresh, same, nodup, mem⟩ := @ih state
      refine ⟨fresh, ?_, nodup, fun other => ?_⟩
      · rw [← same]
        unfold expand
        rw [List.foldl_cons, if_pos old]
      · rw [mem, List.mem_cons]
        constructor
        · exact fun both => ⟨.inr both.1, both.2⟩
        · intro both
          obtain ⟨here | later, absent⟩ := both
          · exact absurd (here ▸ old) absent
          · exact ⟨later, absent⟩
    · obtain ⟨fresh, same, nodup, mem⟩ := @ih { state with
        seen := state.seen ++ [follow], nextSet := state.nextSet ++ [follow] }
      refine ⟨follow :: fresh, ?_, List.nodup_cons.mpr ⟨fun member => ?_, nodup⟩, fun other => ?_⟩
      · have first : state.expand (follow :: follows) = expand { state with
            seen := state.seen ++ [follow], nextSet := state.nextSet ++ [follow] } follows := by
          unfold expand
          rw [List.foldl_cons, if_neg old]
        rw [first, same]
        simp
      · exact ((mem follow).mp member).2 (by simp)
      · rw [List.mem_cons, mem, List.mem_cons]
        simp only [List.mem_append, List.mem_singleton, not_or]
        constructor
        · intro either
          rcases either with here | ⟨later, absent, _⟩
          · exact ⟨.inl here, here ▸ old⟩
          · exact ⟨.inr later, absent⟩
        · intro both
          obtain ⟨here | later, absent⟩ := both
          · exact .inl here
          · by_cases here : other = follow
            · exact .inl here
            · exact .inr ⟨later, absent, here⟩

structure Handled (before : Graph Value) (log : List Delivery) (author : String)
    (state next : CrawlState Value) : Prop where
  named : next.storage.graph.Named
  frame : ∃ storage fresh, next = { state with
      storage := storage
      seen := state.seen ++ fresh
      nextSet := state.nextSet ++ fresh } ∧ fresh.Nodup ∧
    ∀ follow, follow ∈ fresh ↔ state.depth + 1 < state.levels ∧
      follow ∈ storage.graph.getFollows author ∧ follow ∉ state.seen
  others : ∀ other, other ≠ author → Agree state.storage.graph next.storage.graph other
  updated : Updated before next.storage.graph log author

theorem mem_followed {event : CrawlEvent} {follow : String} (member : follow ∈ event.followed) :
    follow ≠ "" := by
  unfold CrawlEvent.followed at member
  obtain ⟨tag, _, named⟩ := List.mem_filterMap.mp member
  split at named
  · split at named
    · rename_i filled
      cases named
      exact filled
    · contradiction
  · contradiction

theorem handled {newest : List Delivery} (named : state.storage.graph.Named)
    (stored : Agree before state.storage.graph author)
    (retains : Retains state.accepted newest author) :
    Handled before state.accepted author state (handle newest state author) := by
  -- First the list is saved, if one came.
  have saves : ∃ storage, (storage.graph.Named ∧
      (∀ other, other ≠ author → Agree state.storage.graph storage.graph other) ∧
      Updated before storage.graph state.accepted author) ∧
      handle newest state author =
        if state.depth + 1 < state.levels then
          expand { state with storage := storage } (storage.graph.getFollows author)
        else { state with storage := storage } := by
    cases found : newestOf newest author with
    | none =>
      refine ⟨state.storage, ⟨named, fun other _ => .refl _ _, .kept (fun delivery member sent => ?_)
        stored⟩, ?_⟩
      · exact absurd sent (retains.silent found delivery member)
      · unfold newestOf at found
        unfold handle
        rw [found]
    | some best =>
      have top := retains.kept best found
      obtain ⟨named', cases_⟩ := saveFollows_agree named author best.event.followed best.version
      refine ⟨_, ⟨named', ?_⟩, ?_⟩
      · have version := stored.version
        rcases cases_ with ⟨prior, held, old, agree⟩ | ⟨newer, replaces⟩
        · refine ⟨fun other _ => agree other, .kept (fun delivery member sent => ?_)
            (stored.trans (agree author))⟩
          refine ⟨prior, version ▸ held, not_newer_trans (top.newest delivery member sent) old⟩
        · refine ⟨replaces.others, .replaced best top (fun prior held => ?_) replaces.version
            fun follow => ?_⟩
          · exact newer prior (version ▸ held)
          · rw [replaces.follows]
            exact and_iff_left_of_imp mem_followed
      · unfold newestOf at found
        unfold handle
        rw [found]
  obtain ⟨storage, ⟨named', others, updated⟩, same⟩ := saves
  rw [same]
  split
  · rename_i deeper
    obtain ⟨fresh, expanded, nodup, mem⟩ :=
      @expand_eq _ (storage.graph.getFollows author) { state with storage := storage }
    rw [expanded]
    exact ⟨named', ⟨storage, fresh, rfl, nodup, fun follow =>
      (mem follow).trans (and_iff_right deeper).symm⟩, others, updated⟩
  · rename_i last
    refine ⟨named', ⟨storage, [], ?_, List.nodup_nil, fun follow => ?_⟩, others, updated⟩
    · rw [List.append_nil, List.append_nil]
    · simp [last]

/-! ## Levels -/

def follows (state : CrawlState Value) : String → List String := state.storage.graph.getFollows

/-- The authors of the level that are still to be asked for. -/
def unasked (state : CrawlState Value) : List String := state.waiting.flatten ++ state.taken.flatten

/-- The authors of the level that are not worked through. -/
def pending (state : CrawlState Value) (left : List String) : List String :=
  left ++ (state.unasked ++ state.flights.flatMap Flight.authors)

/-- A level is fetched, and `left` of a batch is to be worked through. -/
structure Walked (before : Graph Value) (state : CrawlState Value) (left : List String) : Prop where
  named : state.storage.graph.Named
  once : (state.pending left).Nodup
  level : ∀ author ∈ state.pending left, At state.follows state.root state.depth author
  seen : ∀ author, author ∈ state.seen ↔
    Near state.follows state.root state.depth author ∨ author ∈ state.nextSet
  nextOnce : state.nextSet.Nodup
  nextSet : ∀ author, author ∈ state.nextSet ↔ state.depth + 1 < state.levels ∧
    ¬Near state.follows state.root state.depth author ∧
      ∃ vertex, At state.follows state.root state.depth vertex ∧ vertex ∉ state.pending left ∧
        author ∈ state.follows vertex
  askedOnce : state.requested.Nodup
  asked : ∀ author, author ∈ state.requested ↔
    Near state.follows state.root state.depth author ∧ author ∉ state.unasked
  done : ∀ author, Near state.follows state.root state.depth author →
    author ∉ state.pending left → Updated before state.storage.graph state.accepted author
  rest : ∀ author, ¬(Near state.follows state.root state.depth author ∧
    author ∉ state.pending left) → Agree before state.storage.graph author
  heard : ∀ delivery ∈ state.accepted, delivery.pubkey ∈ state.requested
  retained : ∀ flight ∈ state.flights, ∀ author ∈ flight.authors,
    Retains state.accepted flight.newest author
  empty : state.items = 0 → ∀ author, ¬At state.follows state.root state.depth author

theorem Updated.agree {middle after : Graph Value} (updated : Updated before middle log author)
    (agree : Agree middle after author) :
    Updated before after log author := by
  cases updated with
  | kept old same => exact .kept old (same.trans agree)
  | replaced best top newer version mem =>
    refine .replaced best top newer (agree.version.trans version) fun follow => ?_
    rw [agree.follows]
    exact mem follow

theorem Walked.handle {newest : List Delivery} (walked : Walked before state (author :: left))
    (retains : Retains state.accepted newest author) :
    Walked before (handle newest state author) left := by
  have here : At state.follows state.root state.depth author :=
    walked.level author List.mem_cons_self
  have stored : Agree before state.storage.graph author :=
    walked.rest author fun both => both.2 List.mem_cons_self
  obtain ⟨named, ⟨storage, fresh, same, freshOnce, mem⟩, others, updated⟩ :=
    handled walked.named stored retains
  rw [same] at named others updated ⊢
  dsimp only at named others updated
  -- The author's list changes no distance up to its own.
  have closer : ∀ distance < state.depth, ∀ vertex,
      At state.follows state.root distance vertex →
      ∀ other, other ∈ storage.graph.getFollows vertex ↔ other ∈ state.follows vertex := by
    intro distance short vertex nearest other
    have apart : vertex ≠ author := by
      intro equal
      have levels := nearest.unique (equal ▸ here)
      omega
    rw [(others vertex apart).follows]
    rfl
  have ats := at_congr closer state.depth (Nat.le_refl _)
  have nears := near_congr closer (Nat.le_refl _)
  obtain ⟨absent, once⟩ := List.nodup_cons.mp walked.once
  have pending : ∀ vertex, vertex ∉ state.pending left ↔
      vertex = author ∨ vertex ∉ state.pending (author :: left) := by
    intro vertex
    have parts : state.pending (author :: left) = author :: state.pending left := rfl
    rw [parts, List.mem_cons, not_or]
    constructor
    · intro out
      by_cases equal : vertex = author
      · exact .inl equal
      · exact .inr ⟨equal, out⟩
    · intro either
      rcases either with equal | both
      · exact equal ▸ absent
      · exact both.2
  have near : Near state.follows state.root state.depth author := ⟨_, Nat.le_refl _, here⟩
  refine ⟨named, once, fun vertex member => ?_, fun vertex => ?_, ?_, fun vertex => ?_,
    walked.askedOnce, fun vertex => ?_, fun vertex close out => ?_, fun vertex open_ => ?_,
    walked.heard, walked.retained, fun none => absurd here (walked.empty none author)⟩
  · exact (ats vertex).mpr (walked.level vertex (List.mem_cons_of_mem _ member))
  · rw [List.mem_append, walked.seen, List.mem_append, or_assoc]
    exact or_congr_left (nears vertex).symm
  · refine List.nodup_append.mpr ⟨walked.nextOnce, freshOnce, fun first old second new equal => ?_⟩
    have unseen := ((mem second).mp new).2.2
    exact unseen ((walked.seen second).mpr (.inr (equal ▸ old)))
  · have far := nears vertex
    rw [List.mem_append, walked.nextSet, mem, walked.seen, not_or]
    constructor
    · intro either
      rcases either with ⟨deeper, away, between, level, out, listed⟩ | ⟨deeper, listed, away, _⟩
      · have apart : between ≠ author := fun equal => out (equal ▸ List.mem_cons_self)
        refine ⟨deeper, mt far.mp away, between, (ats between).mpr level,
          (pending between).mpr (.inr out), ?_⟩
        change vertex ∈ storage.graph.getFollows between
        rw [(others between apart).follows]
        exact listed
      · exact ⟨deeper, mt far.mp away, author, (ats author).mpr here, (pending author).mpr (.inl rfl),
          listed⟩
    · intro all
      obtain ⟨deeper, away, between, level, out, listed⟩ := all
      have away := mt far.mpr away
      rcases (pending between).mp out with equal | out
      · by_cases old : vertex ∈ state.nextSet
        · exact .inl ((walked.nextSet vertex).mp old)
        · exact .inr ⟨deeper, equal ▸ listed, away, old⟩
      · have apart : between ≠ author := fun equal => out (equal ▸ List.mem_cons_self)
        have listed : vertex ∈ storage.graph.getFollows between := listed
        rw [(others between apart).follows] at listed
        exact .inl ⟨deeper, away, between, (ats between).mp level, out, listed⟩
  · rw [walked.asked]
    exact and_congr_left fun _ => (nears vertex).symm
  · rcases (pending vertex).mp out with equal | out
    · exact equal ▸ updated
    · have apart : vertex ≠ author := fun equal => out (equal ▸ List.mem_cons_self)
      exact Updated.agree (walked.done vertex ((nears vertex).mp close) out) (others vertex apart)
  · have apart : vertex ≠ author := by
      intro equal
      exact open_ ⟨(nears vertex).mpr (equal ▸ near), (pending vertex).mpr (.inl equal)⟩
    refine (walked.rest vertex fun both => open_ ⟨(nears vertex).mpr both.1, ?_⟩).trans
      (others vertex apart)
    exact (pending vertex).mpr (.inr both.2)

theorem handle_frame (newest : List Delivery) (state : CrawlState Value) (author : String) :
    ∃ storage seen nextSet, CrawlState.handle newest state author =
      { state with storage := storage, seen := seen, nextSet := nextSet } := by
  unfold CrawlState.handle
  cases newest.find? fun delivery => delivery.pubkey = author with
  | none =>
    dsimp only
    split
    · obtain ⟨_, same, _⟩ := @expand_eq _ (state.storage.graph.getFollows author) state
      exact ⟨_, _, _, same⟩
    · exact ⟨_, _, _, rfl⟩
  | some delivery =>
    dsimp only
    split
    · exact ⟨_, _, _, expand_eq.choose_spec.1⟩
    · exact ⟨_, _, _, rfl⟩

theorem work_frame (newest : List Delivery) {authors : List String} : ∀ {state : CrawlState Value},
    ∃ storage seen nextSet, authors.foldl (CrawlState.handle newest) state =
      { state with storage := storage, seen := seen, nextSet := nextSet } := by
  induction authors with
  | nil => exact ⟨_, _, _, rfl⟩
  | cons author authors ih =>
    intro state
    obtain ⟨_, _, _, same⟩ := handle_frame newest state author
    rw [List.foldl_cons, same]
    obtain ⟨_, _, _, whole⟩ := @ih { state with storage := _, seen := _, nextSet := _ }
    exact ⟨_, _, _, whole⟩

theorem Walked.work {newest : List Delivery} : ∀ {state : CrawlState Value},
    Walked before state left → (∀ author ∈ left, Retains state.accepted newest author) →
      Walked before (left.foldl (CrawlState.handle newest) state) [] := by
  induction left with
  | nil => exact fun walked _ => walked
  | cons author left ih =>
    intro state walked retains
    obtain ⟨here, others⟩ := List.forall_mem_cons.mp retains
    have one := walked.handle here
    obtain ⟨_, _, _, same⟩ := handle_frame newest state author
    refine ih one fun other member => ?_
    rw [same]
    exact others other member

theorem Walked.reframe {left' : List String} {waiting taken : List (List String)}
    {flights : List Flight} (walked : Walked before state left)
    (pending : (CrawlState.pending { state with
      waiting := waiting, taken := taken, flights := flights } left').Perm (state.pending left))
    (unasked : (waiting.flatten ++ taken.flatten).Perm state.unasked)
    (retained : ∀ flight ∈ flights, ∀ author ∈ flight.authors,
      Retains state.accepted flight.newest author) :
    Walked before { state with waiting := waiting, taken := taken, flights := flights } left' := by
  have mem := fun author => pending.mem_iff (a := author)
  refine ⟨walked.named, pending.nodup_iff.mpr walked.once, fun author member => ?_, walked.seen,
    walked.nextOnce, fun author => ?_, walked.askedOnce, fun author => ?_, fun author near out => ?_,
    fun author open_ => ?_, walked.heard, retained, walked.empty⟩
  · exact walked.level author ((mem author).mp member)
  · refine (walked.nextSet author).trans (and_congr_right fun _ => and_congr_right fun _ =>
      exists_congr fun vertex => and_congr_right fun _ => and_congr_left fun _ => ?_)
    exact (not_congr (mem vertex)).symm
  · refine (walked.asked author).trans (and_congr_right fun _ => ?_)
    exact (not_congr unasked.mem_iff).symm
  · exact walked.done author near (mt (mem author).mpr out)
  · exact walked.rest author fun both => open_ ⟨both.1, mt (mem author).mp both.2⟩

/-! ## Moves -/

structure Fetched (before : Graph Value) (state : CrawlState Value) : Prop where
  once : state.requested.Nodup
  ball : ∀ author, author ∈ state.requested ↔
    ∃ distance < state.levels, At state.follows state.root distance author
  updated : ∀ author ∈ state.requested, Updated before state.storage.graph state.accepted author
  rest : ∀ author, author ∉ state.requested → Agree before state.storage.graph author
  heard : ∀ delivery ∈ state.accepted, delivery.pubkey ∈ state.requested

structure Sound (before : Graph Value) (state : CrawlState Value) : Prop where
  sized : 0 < state.batchSize
  phase : state.aborted = false → (state.depth < state.levels ∧ Walked before state []) ∨
    (state.levels ≤ state.depth ∧ Fetched before state ∧ state.waiting = [] ∧ state.taken = [] ∧
      state.flights = [])

theorem Sound.aborted (sized : 0 < state.batchSize) (aborted : state.aborted = true) :
    Sound before state := by
  refine ⟨sized, fun running => ?_⟩
  rw [aborted] at running
  contradiction

theorem Walked.fetched (walked : Walked before state []) (idle : state.pending [] = [])
    (unasked : state.unasked = [])
    (all : ∀ author, Near state.follows state.root state.depth author ↔
      ∃ distance < state.levels, At state.follows state.root distance author) :
    Fetched before state := by
  have asked : ∀ author, author ∈ state.requested ↔
      Near state.follows state.root state.depth author := by
    intro author
    rw [walked.asked, unasked]
    simp
  refine ⟨walked.askedOnce, fun author => (asked author).trans (all author), fun author member => ?_,
    fun author absent => ?_, walked.heard⟩
  · refine walked.done author ((asked author).mp member) ?_
    rw [idle]
    exact List.not_mem_nil
  · exact walked.rest author fun both => absent ((asked author).mpr both.1)

theorem slices_flatten {size : Nat} (sized : 0 < size) {fuel : Nat} : ∀ {level : List String},
    level.length ≤ fuel → (slices size fuel level).flatten = level := by
  induction fuel with
  | zero =>
    intro level short
    rw [List.eq_nil_of_length_eq_zero (Nat.le_zero.mp short)]
    rfl
  | succ fuel ih =>
    intro level short
    unfold slices
    split
    · rename_i none
      rw [none]
      rfl
    · rename_i some_
      have positive := List.length_pos_of_ne_nil some_
      rw [List.flatten_cons, ih (by rw [List.length_drop]; omega), List.take_append_drop]

theorem slices_eq_nil {size : Nat} (sized : 0 < size) {level : List String}
    (none : (slices size level.length level).length = 0) : level = [] := by
  have whole := slices_flatten sized (Nat.le_refl level.length)
  rw [List.eq_nil_of_length_eq_zero none] at whole
  exact whole.symm

theorem Walked.deeper (walked : Walked before state []) (sized : 0 < state.batchSize)
    (waiting : state.waiting = []) (taken : state.taken = []) (flights : state.flights = [])
    (more : state.depth + 1 < state.levels) :
    Walked before (openLevel { state with depth := state.depth + 1 } state.nextSet) [] := by
  have unasked : state.unasked = [] := by
    unfold CrawlState.unasked
    rw [waiting, taken]
    rfl
  have idle : state.pending [] = [] := by
    unfold CrawlState.pending
    rw [unasked, flights]
    rfl
  have flat := slices_flatten sized (Nat.le_refl state.nextSet.length)
  have level : ∀ author, author ∈ state.nextSet ↔
      At state.follows state.root (state.depth + 1) author := by
    intro author
    rw [walked.nextSet, at_succ, idle]
    constructor
    · intro all
      obtain ⟨_, far, vertex, near, _, listed⟩ := all
      exact ⟨⟨vertex, near, listed⟩, far⟩
    · intro both
      obtain ⟨⟨vertex, near, listed⟩, far⟩ := both
      exact ⟨more, far, vertex, near, List.not_mem_nil, listed⟩
  have opened : (openLevel { state with depth := state.depth + 1 } state.nextSet).unasked =
      state.nextSet := by
    unfold CrawlState.unasked openLevel
    dsimp only
    rw [flat, taken, List.flatten_nil, List.append_nil]
  have pending : (openLevel { state with depth := state.depth + 1 } state.nextSet).pending [] =
      state.nextSet := by
    unfold CrawlState.pending
    rw [opened]
    unfold openLevel
    dsimp only
    rw [flights, List.flatMap_nil, List.append_nil, List.nil_append]
  have asked : ∀ author, author ∈ state.requested ↔
      Near state.follows state.root state.depth author := by
    intro author
    rw [walked.asked, unasked]
    simp
  have near : ∀ author, Near state.follows state.root (state.depth + 1) author ∧
      author ∉ state.nextSet ↔ Near state.follows state.root state.depth author := by
    intro author
    rw [near_succ, level]
    constructor
    · exact fun both => both.1.resolve_right both.2
    · exact fun close => ⟨.inl close, fun nearest => not_near_of_at nearest close⟩
  refine ⟨walked.named, ?_, fun author member => ?_, fun author => ?_, List.nodup_nil,
    fun author => ?_, walked.askedOnce, fun author => ?_, fun author close out => ?_,
    fun author open_ => ?_, walked.heard, ?_, fun none author nearest => ?_⟩
  · rw [pending]
    exact walked.nextOnce
  · rw [pending] at member
    exact (level author).mp member
  · refine (walked.seen author).trans ?_
    rw [level]
    exact near_succ.symm.trans (or_iff_left List.not_mem_nil).symm
  · refine iff_of_false List.not_mem_nil fun all => ?_
    obtain ⟨_, _, vertex, nearest, out, _⟩ := all
    rw [pending] at out
    exact out ((level vertex).mpr nearest)
  · rw [opened]
    exact (asked author).trans (near author).symm
  · rw [pending] at out
    refine walked.done author ((near author).mp ⟨close, out⟩) ?_
    rw [idle]
    exact List.not_mem_nil
  · refine walked.rest author fun both => open_ ?_
    rw [pending]
    exact (near author).mpr both.1
  · intro flight member
    have none : flight ∈ state.flights := member
    rw [flights] at none
    contradiction
  · have nothing := slices_eq_nil sized none
    have member := (level author).mpr nearest
    rw [nothing] at member
    contradiction

theorem walked_first {storage : GraphStorage Value} (named : storage.graph.Named) {root : String}
    {levels batchSize maxConcurrent : Nat} (sized : 0 < batchSize) :
    Walked storage.graph ((fresh storage root levels batchSize maxConcurrent).openLevel [root]) [] := by
  have flat := slices_flatten sized (Nat.le_refl [root].length)
  have near : ∀ author, Near storage.graph.getFollows root 0 author ↔ author = root := by
    intro author
    constructor
    · intro close
      obtain ⟨distance, bound, nearest⟩ := close
      rw [Nat.le_zero.mp bound, at_zero] at nearest
      exact nearest.symm
    · exact fun same => ⟨0, Nat.le_refl _, at_zero.mpr same.symm⟩
  have opened : ∀ state : CrawlState Value, state.batchSize = batchSize → state.taken = [] →
      (state.openLevel [root]).unasked = [root] := by
    intro state size taken
    unfold CrawlState.unasked openLevel
    dsimp only
    rw [size, flat, taken]
    rfl
  have pending : ∀ state : CrawlState Value, state.batchSize = batchSize → state.taken = [] →
      state.flights = [] → (state.openLevel [root]).pending [] = [root] := by
    intro state size taken flights
    unfold CrawlState.pending
    rw [opened state size taken]
    unfold openLevel
    dsimp only
    rw [flights]
    rfl
  refine ⟨named, ?_, fun author member => ?_, fun author => ?_, List.nodup_nil,
    fun author => ?_, List.nodup_nil, fun author => ?_, fun author close out => ?_,
    fun author _ => .refl _ _, fun _ absurd => (nomatch absurd), fun _ absurd => (nomatch absurd),
    fun none => ?_⟩
  · rw [pending _ rfl rfl rfl]
    exact List.nodup_singleton _
  · rw [pending _ rfl rfl rfl] at member
    exact at_zero.mpr (List.mem_singleton.mp member).symm
  · refine Iff.trans ?_ (or_iff_left List.not_mem_nil).symm
    exact List.mem_singleton.trans (near author).symm
  · refine iff_of_false List.not_mem_nil fun all => ?_
    obtain ⟨_, _, vertex, nearest, out, _⟩ := all
    rw [pending _ rfl rfl rfl] at out
    exact out (List.mem_singleton.mpr (at_zero.mp nearest).symm)
  · rw [opened _ rfl rfl]
    refine iff_of_false List.not_mem_nil fun both => both.2 ?_
    exact List.mem_singleton.mpr ((near author).mp both.1)
  · rw [pending _ rfl rfl rfl] at out
    exact absurd (List.mem_singleton.mpr ((near author).mp close)) out
  · have nothing := slices_eq_nil sized none
    contradiction

theorem Walked.take {batch : List String} {rest : List (List String)}
    (walked : Walked before state []) (first : state.waiting = batch :: rest) :
    Walked before { state with waiting := rest, taken := state.taken ++ [batch] } [] := by
  have moved : (rest.flatten ++ (state.taken ++ [batch]).flatten).Perm state.unasked := by
    unfold unasked
    rw [first, List.flatten_cons, List.flatten_append, List.flatten_singleton, List.append_assoc]
    refine (List.Perm.append_left _ List.perm_append_comm).trans ?_
    rw [← List.append_assoc, ← List.append_assoc]
    exact List.Perm.append_right _ List.perm_append_comm
  exact walked.reframe (moved.append_right _) moved walked.retained

theorem mem_unasked_pending (member : author ∈ state.unasked) :
    author ∈ state.pending left :=
  List.mem_append_right _ (List.mem_append_left _ member)

variable {index : Nat}

theorem Walked.subscribe {authors : List String} (walked : Walked before state [])
    (held : state.taken[index]? = some authors) :
    Walked before { state with
      taken := state.taken.eraseIdx index
      flights := state.flights ++ [⟨authors, [], false⟩]
      requested := state.requested ++ authors } [] := by
  obtain ⟨inside, there⟩ := List.getElem?_eq_some_iff.mp held
  have erased : (authors ++ (state.taken.eraseIdx index).flatten).Perm state.taken.flatten := by
    have whole := (List.getElem_cons_eraseIdx_perm inside).flatten
    rw [there, List.flatten_cons] at whole
    exact whole
  have moved : (authors ++ (state.waiting.flatten ++ (state.taken.eraseIdx index).flatten)).Perm
      state.unasked := by
    refine List.Perm.trans ?_ (List.Perm.append_left state.waiting.flatten erased)
    rw [← List.append_assoc, ← List.append_assoc]
    exact List.Perm.append_right _ List.perm_append_comm
  have pending : (CrawlState.pending { state with
      taken := state.taken.eraseIdx index
      flights := state.flights ++ [⟨authors, [], false⟩] } []).Perm (state.pending []) := by
    unfold CrawlState.pending CrawlState.unasked
    dsimp only
    rw [List.flatMap_append, List.flatMap_singleton, List.nil_append, List.nil_append,
      ← List.append_assoc]
    refine List.perm_append_comm.trans ?_
    rw [← List.append_assoc]
    exact List.Perm.append_right _ moved
  have once := (List.nodup_append.mp (moved.nodup_iff.mpr
    (List.nodup_append.mp walked.once |>.2.1 |> List.nodup_append.mp |>.1)))
  have mem := fun author => moved.mem_iff (a := author)
  have unheard : ∀ author ∈ authors, author ∉ state.requested := fun author member asked =>
    ((walked.asked author).mp asked).2 ((mem author).mp (List.mem_append_left _ member))
  have near : ∀ author ∈ authors, Near state.follows state.root state.depth author :=
    fun author member => ⟨_, Nat.le_refl _, walked.level author
      (mem_unasked_pending ((mem author).mp (List.mem_append_left _ member)))⟩
  have perm := fun author => pending.mem_iff (a := author)
  refine ⟨walked.named, pending.nodup_iff.mpr walked.once, fun author member => ?_, walked.seen,
    walked.nextOnce, fun author => ?_, ?_, fun author => ?_, fun author close out => ?_,
    fun author open_ => ?_, fun delivery member => ?_, fun flight member author listed => ?_,
    walked.empty⟩
  · exact walked.level author ((perm author).mp member)
  · refine (walked.nextSet author).trans (and_congr_right fun _ => and_congr_right fun _ =>
      exists_congr fun vertex => and_congr_right fun _ => and_congr_left fun _ => ?_)
    exact (not_congr (perm vertex)).symm
  · refine List.nodup_append.mpr ⟨walked.askedOnce, once.1, fun first old second new same => ?_⟩
    exact unheard second new (same ▸ old)
  · have asked := walked.asked author
    dsimp only
    rw [List.mem_append, asked]
    constructor
    · intro either
      rcases either with ⟨close, out⟩ | member
      · exact ⟨close, fun still => out ((mem author).mp (List.mem_append_right _ still))⟩
      · exact ⟨near author member, fun still => once.2.2 author member author still rfl⟩
    · intro both
      obtain ⟨close, out⟩ := both
      by_cases member : author ∈ authors
      · exact .inr member
      · refine .inl ⟨close, fun still => ?_⟩
        rcases List.mem_append.mp ((mem author).mpr still) with one | other
        · exact member one
        · exact out other
  · exact walked.done author close (mt (perm author).mpr out)
  · exact walked.rest author fun both => open_ ⟨both.1, mt (perm author).mp both.2⟩
  · exact List.mem_append_left _ (walked.heard delivery member)
  · rcases List.mem_append.mp member with old | new
    · exact walked.retained flight old author listed
    · rw [List.mem_singleton.mp new] at listed ⊢
      refine ⟨fun _ delivery sent same => ?_, fun best found => by contradiction⟩
      exact unheard author listed (same ▸ walked.heard delivery sent)

variable {flight : Flight}

theorem mem_flight_pending (member : flight ∈ state.flights) (listed : author ∈ flight.authors) :
    author ∈ state.pending left :=
  List.mem_append_right _ (List.mem_append_right _ (List.mem_flatMap.mpr ⟨flight, member, listed⟩))

theorem Updated.hear {after : Graph Value} (updated : Updated before after log author)
    {delivery : Delivery} (apart : delivery.pubkey ≠ author) :
    Updated before after (log ++ [delivery]) author := by
  have sent : ∀ other ∈ log ++ [delivery], other.pubkey = author → other ∈ log := by
    intro other member same
    rcases List.mem_append.mp member with old | last
    · exact old
    · rw [List.mem_singleton.mp last] at same
      exact absurd same apart
  cases updated with
  | kept old same => exact .kept (fun other member here => old other (sent other member here) here) same
  | replaced best top newer version mem =>
    exact .replaced best ⟨List.mem_append_left _ top.member, top.sent, fun other member here =>
      top.newest other (sent other member here) here⟩ newer version mem

theorem flights_perm (held : state.flights[index]? = some flight) :
    (flight :: state.flights.eraseIdx index).Perm state.flights := by
  obtain ⟨inside, there⟩ := List.getElem?_eq_some_iff.mp held
  have whole := List.getElem_cons_eraseIdx_perm inside
  rw [there] at whole
  exact whole

theorem set_perm (held : state.flights[index]? = some flight) (other : Flight) :
    (state.flights.set index other).Perm (other :: state.flights.eraseIdx index) :=
  List.set_perm_cons_eraseIdx (List.getElem?_eq_some_iff.mp held).1 other

theorem authors_perm {index : Nat} {flight other : Flight}
    (held : state.flights[index]? = some flight) (same : other.authors = flight.authors) :
    ((state.flights.set index other).flatMap Flight.authors).Perm
      (state.flights.flatMap Flight.authors) := by
  refine ((set_perm held other).flatMap_right _).trans ?_
  refine List.Perm.trans ?_ ((flights_perm held).flatMap_right _)
  rw [List.flatMap_cons, List.flatMap_cons, same]

theorem Walked.apart {other : Flight} (walked : Walked before state left)
    (held : state.flights[index]? = some flight) (listed : author ∈ flight.authors)
    (member : other ∈ state.flights.eraseIdx index) :
    author ∉ other.authors := by
  have once := List.nodup_append.mp (List.nodup_append.mp walked.once).2.1 |>.2.1
  have whole := ((flights_perm held).flatMap_right Flight.authors).nodup_iff.mpr once
  rw [List.flatMap_cons] at whole
  intro also
  exact (List.nodup_append.mp whole).2.2 author listed author
    (List.mem_flatMap.mpr ⟨other, member, also⟩) rfl

theorem Walked.event {delivery : Delivery} (walked : Walked before state [])
    (held : state.flights[index]? = some flight) (listed : delivery.pubkey ∈ flight.authors) :
    Walked before { state with
      flights := state.flights.set index { flight with newest := retain flight.newest delivery }
      accepted := state.accepted ++ [delivery] } [] := by
  have there := List.mem_of_getElem? held
  have moved := @authors_perm _ state index flight
    { flight with newest := retain flight.newest delivery } held rfl
  have pending : (CrawlState.pending { state with
      flights := state.flights.set index { flight with newest := retain flight.newest delivery } }
        []).Perm (state.pending []) := (moved.append_left _).append_left _
  have perm := fun author => pending.mem_iff (a := author)
  have inside : delivery.pubkey ∈ state.pending [] := mem_flight_pending there listed
  have out : delivery.pubkey ∉ state.unasked := by
    intro member
    have parts := (List.nodup_append.mp (List.nodup_append.mp walked.once).2.1).2.2
    exact parts _ member _ (List.mem_flatMap.mpr ⟨flight, there, listed⟩) rfl
  refine ⟨walked.named, pending.nodup_iff.mpr walked.once, fun author member => ?_, walked.seen,
    walked.nextOnce, fun author => ?_, walked.askedOnce, walked.asked, fun author close far => ?_,
    fun author open_ => ?_, fun other member => ?_, fun other member author also => ?_, walked.empty⟩
  · exact walked.level author ((perm author).mp member)
  · refine (walked.nextSet author).trans (and_congr_right fun _ => and_congr_right fun _ =>
      exists_congr fun vertex => and_congr_right fun _ => and_congr_left fun _ => ?_)
    exact (not_congr (perm vertex)).symm
  · have far := mt (perm author).mpr far
    exact Updated.hear (walked.done author close far) fun same => far (same ▸ inside)
  · exact walked.rest author fun both => open_ ⟨both.1, mt (perm author).mp both.2⟩
  · rcases List.mem_append.mp member with old | new
    · exact walked.heard other old
    · rw [List.mem_singleton.mp new]
      exact (walked.asked _).mpr ⟨⟨_, Nat.le_refl _, walked.level _ inside⟩, out⟩
  · rcases List.mem_cons.mp ((set_perm held _).mem_iff.mp member) with same | rest
    · rw [same] at also ⊢
      exact (walked.retained flight there author also).retain delivery
    · have elsewhere := walked.apart held listed rest
      have apart : delivery.pubkey ≠ author := fun same => elsewhere (same ▸ also)
      have old := (flights_perm held).mem_iff.mp (List.mem_cons_of_mem _ rest)
      exact (walked.retained other old author also).other apart rfl

theorem Walked.finish (walked : Walked before state []) (held : state.flights[index]? = some flight)
    (settled : Bool) :
    Walked before { state with flights := state.flights.set index { flight with settled := settled } }
      [] := by
  have there := List.mem_of_getElem? held
  have moved := @authors_perm _ state index flight { flight with settled := settled } held rfl
  refine walked.reframe ((moved.append_left _).append_left _) (List.Perm.refl _)
    fun other member author also => ?_
  rcases List.mem_cons.mp ((set_perm held _).mem_iff.mp member) with same | rest
  · rw [same] at also ⊢
    exact walked.retained flight there author also
  · exact walked.retained other ((flights_perm held).mem_iff.mp (List.mem_cons_of_mem _ rest))
      author also

theorem Walked.land (walked : Walked before state []) (held : state.flights[index]? = some flight) :
    Walked before { state with flights := state.flights.eraseIdx index } flight.authors := by
  have moved := (flights_perm held).flatMap_right Flight.authors
  rw [List.flatMap_cons] at moved
  refine walked.reframe ?_ (List.Perm.refl _) fun other member =>
    walked.retained other ((flights_perm held).mem_iff.mp (List.mem_cons_of_mem _ member))
  unfold CrawlState.pending
  refine List.Perm.trans ?_ (List.Perm.append_left _ (List.Perm.append_left _ moved))
  rw [List.nil_append, ← List.append_assoc, ← List.append_assoc]
  exact List.Perm.append_right _ List.perm_append_comm

theorem Sound.walked (sound : Sound before state) (running : state.aborted = false)
    (below : state.waiting ≠ [] ∨ state.taken ≠ [] ∨ state.flights ≠ []) :
    state.depth < state.levels ∧ Walked before state [] := by
  rcases sound.phase running with walked | ⟨_, _, waiting, taken, flights⟩
  · exact walked
  · rcases below with some_ | some_ | some_ <;> contradiction

theorem admissible_author {event : CrawlEvent} {authors : List String} {now created : Nat}
    {pubkey : String} (taken : event.admissible authors now = some (pubkey, created)) :
    pubkey ∈ authors := by
  unfold CrawlEvent.admissible at taken
  split at taken
  · split at taken
    · rename_i allowed
      cases taken
      exact allowed.2.1
    · contradiction
  · contradiction

theorem sound_step (sound : Sound before state) {move : CrawlMove}
    (moved : step state move = some next) : Sound before next := by
  cases move with
  | take =>
    simp only [step] at moved
    split at moved
    · contradiction
    · rename_i batch rest first
      split at moved
      · contradiction
      · rename_i open_
        cases moved
        refine ⟨sound.sized, fun running => .inl ?_⟩
        obtain ⟨below, walked⟩ := sound.walked running (.inl (by rw [first]; exact List.cons_ne_nil _ _))
        exact ⟨below, walked.take first⟩
  | subscribe index refused =>
    simp only [step] at moved
    split at moved
    · contradiction
    · rename_i authors held
      have some_ : state.taken ≠ [] := by
        intro none
        rw [none] at held
        contradiction
      split at moved
      · rename_i aborted
        cases moved
        exact .aborted sound.sized aborted
      · split at moved
        · cases moved
          exact .aborted sound.sized rfl
        · cases moved
          refine ⟨sound.sized, fun running => .inl ?_⟩
          obtain ⟨below, walked⟩ := sound.walked running (.inr (.inl some_))
          exact ⟨below, walked.subscribe held⟩
  | event index event now =>
    simp only [step] at moved
    split at moved
    · contradiction
    · rename_i flight held
      have some_ : state.flights ≠ [] := List.ne_nil_of_mem (List.mem_of_getElem? held)
      split at moved
      · cases moved
        exact sound
      · rename_i pubkey created taken
        split at moved
        · cases moved
          exact sound
        · cases moved
          refine ⟨sound.sized, fun running => .inl ?_⟩
          obtain ⟨below, walked⟩ := sound.walked running (.inr (.inr some_))
          exact ⟨below, walked.event held (admissible_author taken)⟩
  | finish index =>
    simp only [step] at moved
    split at moved
    · contradiction
    · rename_i flight held
      have some_ : state.flights ≠ [] := List.ne_nil_of_mem (List.mem_of_getElem? held)
      cases moved
      refine ⟨sound.sized, fun running => .inl ?_⟩
      obtain ⟨below, walked⟩ := sound.walked running (.inr (.inr some_))
      exact ⟨below, walked.finish held true⟩
  | work index stopsAt =>
    simp only [step] at moved
    split at moved
    · contradiction
    · rename_i flight held
      have there := List.mem_of_getElem? held
      split at moved
      · contradiction
      · split at moved
        · rename_i aborted
          cases moved
          exact .aborted sound.sized aborted
        · rename_i running
          have running := Bool.eq_false_iff.mpr running
          obtain ⟨below, walked⟩ :=
            sound.walked running (.inr (.inr (List.ne_nil_of_mem there)))
          have landed := walked.land held
          have retains := walked.retained flight there
          split at moved
          · cases moved
            have all := landed.work retains
            obtain ⟨_, _, _, same⟩ := @work_frame _ flight.newest flight.authors
              { state with flights := state.flights.eraseIdx index }
            rw [same] at all ⊢
            exact ⟨sound.sized, fun _ => .inl ⟨below, all⟩⟩
          · rename_i author
            cases moved
            obtain ⟨_, _, _, same⟩ := @work_frame _ flight.newest
              (flight.authors.take (author + 1))
              { state with flights := state.flights.eraseIdx index }
            rw [same]
            exact .aborted sound.sized rfl
  | nextLevel =>
    simp only [step] at moved
    split at moved
    · contradiction
    · rename_i ready
      obtain ⟨running, ready⟩ := not_or.mp ready
      obtain ⟨waiting, ready⟩ := not_or.mp ready
      obtain ⟨taken, ready⟩ := not_or.mp ready
      obtain ⟨flights, ready⟩ := not_or.mp ready
      have waiting := not_not.mp waiting
      have taken := not_not.mp taken
      have flights := not_not.mp flights
      have running := Bool.eq_false_iff.mpr running
      have below := Nat.not_le.mp (not_or.mp ready).1
      have walked := ((sound.phase running).resolve_right fun over_ =>
        Nat.not_le.mpr below over_.1).2
      cases moved
      split
      · rename_i more
        exact ⟨sound.sized, fun _ => .inl ⟨more, walked.deeper sound.sized waiting taken flights more⟩⟩
      · rename_i last
        have depth : state.levels = state.depth + 1 := by
          have : ¬state.depth + 1 < state.levels := last
          omega
        have unasked : state.unasked = [] := by
          unfold CrawlState.unasked
          rw [waiting, taken]
          rfl
        have idle : state.pending [] = [] := by
          unfold CrawlState.pending
          rw [unasked, flights]
          rfl
        have fetched := walked.fetched idle unasked fun author => by
          rw [depth]
          exact exists_congr fun distance => and_congr_left fun _ => Nat.lt_succ_iff.symm
        refine ⟨sound.sized, fun _ => .inr ⟨Nat.not_lt.mp last, ?_, waiting, taken, flights⟩⟩
        exact ⟨fetched.once, fetched.ball, fetched.updated, fetched.rest, fetched.heard⟩
  | stop =>
    cases moved
    exact .aborted sound.sized rfl

/-! ## Runs -/

theorem step_fixed {move : CrawlMove} (moved : step state move = some next) :
    next.root = state.root ∧ next.levels = state.levels := by
  cases move with
  | take =>
    simp only [step] at moved
    split at moved
    · contradiction
    · split at moved
      · contradiction
      · cases moved
        exact ⟨rfl, rfl⟩
  | subscribe index refused =>
    simp only [step] at moved
    split at moved
    · contradiction
    · split at moved
      · cases moved
        exact ⟨rfl, rfl⟩
      · split at moved
        · cases moved
          exact ⟨rfl, rfl⟩
        · cases moved
          exact ⟨rfl, rfl⟩
  | event index event now =>
    simp only [step] at moved
    split at moved
    · contradiction
    · split at moved
      · cases moved
        exact ⟨rfl, rfl⟩
      · split at moved
        · cases moved
          exact ⟨rfl, rfl⟩
        · cases moved
          exact ⟨rfl, rfl⟩
  | finish index =>
    simp only [step] at moved
    split at moved
    · contradiction
    · cases moved
      exact ⟨rfl, rfl⟩
  | work index stopsAt =>
    simp only [step] at moved
    split at moved
    · contradiction
    · rename_i flight held
      split at moved
      · contradiction
      · split at moved
        · cases moved
          exact ⟨rfl, rfl⟩
        · split at moved
          · cases moved
            obtain ⟨_, _, _, same⟩ := @work_frame _ flight.newest flight.authors
              { state with flights := state.flights.eraseIdx index }
            rw [same]
            exact ⟨rfl, rfl⟩
          · rename_i author
            cases moved
            obtain ⟨_, _, _, same⟩ := @work_frame _ flight.newest
              (flight.authors.take (author + 1))
              { state with flights := state.flights.eraseIdx index }
            rw [same]
            exact ⟨rfl, rfl⟩
  | nextLevel =>
    simp only [step] at moved
    split at moved
    · contradiction
    · cases moved
      split <;> exact ⟨rfl, rfl⟩
  | stop =>
    cases moved
    exact ⟨rfl, rfl⟩

theorem reaches_fixed {allowed : CrawlState Value → CrawlMove → Prop} {first last : CrawlState Value}
    (reaches : Reaches step allowed first last) :
    last.root = first.root ∧ last.levels = first.levels := by
  induction reaches with
  | refl => exact ⟨rfl, rfl⟩
  | step move _ _ moved ih =>
    obtain ⟨root, levels⟩ := step_fixed moved
    exact ⟨root.trans ih.1, levels.trans ih.2⟩

structure Begun (storage : GraphStorage Value) (root : String) (levels : Nat)
    (first : CrawlState Value) : Prop where
  root : first.root = root
  levels : first.levels = levels
  sound : storage.graph.Named → Sound storage.graph first

theorem begun {relays : List String} {batchSize maxConcurrent : Nat} {storage : GraphStorage Value}
    {root : String} {maxDepth maxHops : Option Number} {first : CrawlState Value}
    (started : begin_ relays batchSize maxConcurrent storage root maxDepth maxHops =
      .running first) :
    ∃ levels, levelsOf maxDepth maxHops = some levels ∧ Begun storage root levels first := by
  unfold begin_ at started
  split at started
  · contradiction
  · rename_i sized
    have sized : 0 < batchSize := Nat.pos_of_ne_zero (not_or.mp sized).1
    split at started
    · contradiction
    · split at started
      · contradiction
      · rename_i levels some_
        refine ⟨levels, some_, ?_⟩
        cases started
        by_cases none : levels = 0
        · rw [if_pos none]
          refine ⟨rfl, rfl, fun named => ⟨sized, fun _ => .inr ⟨Nat.le_of_eq none, ?_, rfl, rfl, rfl⟩⟩⟩
          refine ⟨List.nodup_nil, fun author => iff_of_false List.not_mem_nil fun found => ?_,
            fun _ absurd => (nomatch absurd), fun _ _ => .refl _ _, fun _ absurd => (nomatch absurd)⟩
          obtain ⟨distance, less, _⟩ := found
          have less : distance < levels := less
          omega
        · rw [if_neg none]
          refine ⟨rfl, rfl, fun named => ⟨sized, fun _ => .inl ⟨Nat.pos_of_ne_zero none, ?_⟩⟩⟩
          exact walked_first named sized

theorem Sound.fetched (sound : Sound before state) (done : state.Done) : Fetched before state := by
  obtain ⟨running, waiting, taken, flights, ended⟩ := done
  rcases sound.phase running with ⟨below, walked⟩ | ⟨_, fetched, _⟩
  · have items := ended.resolve_left (Nat.not_le.mpr below)
    have unasked : state.unasked = [] := by
      unfold CrawlState.unasked
      rw [waiting, taken]
      rfl
    have idle : state.pending [] = [] := by
      unfold CrawlState.pending
      rw [unasked, flights]
      rfl
    refine walked.fetched idle unasked fun author => ⟨fun close => ?_, fun found => ?_⟩
    · obtain ⟨distance, bound, nearest⟩ := close
      exact ⟨distance, Nat.lt_of_le_of_lt bound below, nearest⟩
    · obtain ⟨distance, _, nearest⟩ := found
      by_cases close : distance ≤ state.depth
      · exact ⟨distance, close, nearest⟩
      · exact absurd nearest
          (Search.no_farther (walked.empty items) (Nat.le_of_not_le close) author)
  · exact fetched

/-! ## Two crawls -/

/-- Versions and lists are the same, whatever the ids are. -/
def SameGraph (first second : Graph Value) : Prop :=
  ∀ pubkey, second.getFollowVersion pubkey = first.getFollowVersion pubkey ∧
    ∀ follow, follow ∈ second.getFollows pubkey ↔ follow ∈ first.getFollows pubkey

def SentAlso (log other : List Delivery) (author : String) : Prop :=
  ∀ delivery ∈ log, delivery.pubkey = author → ∃ also ∈ other, also.pubkey = author ∧
    also.version = delivery.version ∧ ∀ follow, follow ∈ also.event.followed ↔ follow ∈ delivery.event.followed

def Unambiguous (log : List Delivery) : Prop :=
  ∀ first ∈ log, ∀ second ∈ log, first.pubkey = second.pubkey → first.version = second.version →
    ∀ follow, follow ∈ first.event.followed ↔ follow ∈ second.event.followed

theorem Updated.same {before' after after' : Graph Value} {log' : List Delivery}
    (updated : Updated before after log author) (updated' : Updated before' after' log' author)
    (stored : before'.getFollowVersion author = before.getFollowVersion author ∧
      ∀ follow, follow ∈ before'.getFollows author ↔ follow ∈ before.getFollows author)
    (clear : Unambiguous log) (sent : SentAlso log log' author) (sent' : SentAlso log' log author) :
    after'.getFollowVersion author = after.getFollowVersion author ∧
      ∀ follow, follow ∈ after'.getFollows author ↔ follow ∈ after.getFollows author := by
  cases updated with
  | kept old agree =>
    cases updated' with
    | kept old' agree' =>
      refine ⟨agree'.version.trans (stored.1.trans agree.version.symm), fun follow => ?_⟩
      rw [agree'.follows, agree.follows]
      exact stored.2 follow
    | replaced best top newer _ _ =>
      obtain ⟨also, member, here, version, _⟩ := sent' best top.member top.sent
      obtain ⟨prior, held, stale⟩ := old also member here
      have fresh := newer prior (stored.1.trans held)
      rw [version] at stale
      rw [stale] at fresh
      contradiction
  | replaced best top newer version mem =>
    cases updated' with
    | kept old' _ =>
      obtain ⟨also, member, here, same, _⟩ := sent best top.member top.sent
      obtain ⟨prior, held, stale⟩ := old' also member here
      have fresh := newer prior (stored.1.symm.trans held)
      rw [same] at stale
      rw [stale] at fresh
      contradiction
    | replaced best' top' _ version' mem' =>
      obtain ⟨one, member, here, same, _⟩ := sent best top.member top.sent
      obtain ⟨two, member', here', same', lists⟩ := sent' best' top'.member top'.sent
      have first := top'.newest one member here
      have second := top.newest two member' here'
      rw [same] at first
      rw [same'] at second
      have equal := eq_of_not_newer first second
      refine ⟨version'.trans ((congrArg some equal.symm).trans version.symm), fun follow => ?_⟩
      have clear := clear best top.member two member' (top.sent.trans here'.symm)
        (equal.trans same'.symm) follow
      rw [mem', mem, clear, lists]

theorem Fetched.same {before' : Graph Value} {state' : CrawlState Value} (fetched : Fetched before state)
    (fetched' : Fetched before' state') (root : state'.root = state.root)
    (levels : state'.levels = state.levels) (stored : SameGraph before before')
    (clear : Unambiguous state.accepted)
    (sent : ∀ author ∈ state.requested, author ∈ state'.requested →
      SentAlso state.accepted state'.accepted author ∧
        SentAlso state'.accepted state.accepted author) :
    (∀ author, author ∈ state'.requested ↔ author ∈ state.requested) ∧
      SameGraph state.storage.graph state'.storage.graph := by
  have both : ∀ author ∈ state.requested, author ∈ state'.requested →
      state'.storage.graph.getFollowVersion author = state.storage.graph.getFollowVersion author ∧
        ∀ follow, follow ∈ state'.follows author ↔ follow ∈ state.follows author := by
    intro author one two
    obtain ⟨there, back⟩ := sent author one two
    exact Updated.same (fetched.updated author one) (fetched'.updated author two) (stored author)
      clear there back
  -- From the root outwards, what is fetched is the same and names the same.
  have lists : ∀ distance < state.levels, ∀ author, At state.follows state.root distance author →
      ∀ follow, follow ∈ state'.follows author ↔ follow ∈ state.follows author := by
    intro distance
    induction distance using Nat.strong_induction_on with
    | h distance ih =>
      intro below author nearest
      have ats := at_congr (fun nearer short => ih nearer short (short.trans below)) distance
        (Nat.le_refl _) author
      have one := (fetched.ball author).mpr ⟨distance, below, nearest⟩
      have two : author ∈ state'.requested := by
        rw [fetched'.ball, root, levels]
        exact ⟨distance, below, ats.mpr nearest⟩
      exact (both author one two).2
  have asked : ∀ author, author ∈ state'.requested ↔ author ∈ state.requested := by
    intro author
    rw [fetched'.ball, fetched.ball, root, levels]
    refine exists_congr fun distance => and_congr_right fun below => ?_
    exact at_congr (fun nearer short => lists nearer (short.trans below)) distance
      (Nat.le_refl _) author
  refine ⟨asked, fun author => ?_⟩
  by_cases one : author ∈ state.requested
  · exact both author one ((asked author).mpr one)
  · have first := fetched.rest author one
    have second := fetched'.rest author (mt (asked author).mp one)
    refine ⟨second.version.trans ((stored author).1.trans first.version.symm), fun follow => ?_⟩
    rw [second.follows, first.follows]
    exact (stored author).2 follow

/-- What a crawl fetches and leaves, and that another one leaves the same. -/
theorem crawl_leaves_newest {relays : List String} {batchSize maxConcurrent : Nat}
    {storage : GraphStorage Value} {root : String} {maxDepth maxHops : Option Number}
    {first last : CrawlState Value} (named : storage.graph.Named)
    (started : begin_ relays batchSize maxConcurrent storage root maxDepth maxHops = .running first)
    (reaches : Reaches step (fun _ _ => True) first last) (done : last.Done) :
    ∃ levels, levelsOf maxDepth maxHops = some levels ∧
      last.requested.Nodup ∧
      (∀ author, author ∈ last.requested ↔
        ∃ distance < levels, At last.follows root distance author) ∧
      (∀ author ∈ last.requested, Updated storage.graph last.storage.graph last.accepted author) ∧
      (∀ author, author ∉ last.requested → Agree storage.graph last.storage.graph author) ∧
      ∀ (relays' : List String) (batchSize' maxConcurrent' : Nat) (storage' : GraphStorage Value)
        (maxDepth' maxHops' : Option Number) (first' last' : CrawlState Value),
        storage'.graph.Named →
        begin_ relays' batchSize' maxConcurrent' storage' root maxDepth' maxHops' =
          .running first' →
        Reaches step (fun _ _ => True) first' last' → last'.Done →
        levelsOf maxDepth' maxHops' = some levels → SameGraph storage.graph storage'.graph →
        Unambiguous last.accepted →
        (∀ author ∈ last.requested, author ∈ last'.requested →
          SentAlso last.accepted last'.accepted author ∧
            SentAlso last'.accepted last.accepted author) →
        (∀ author, author ∈ last'.requested ↔ author ∈ last.requested) ∧
          SameGraph last.storage.graph last'.storage.graph := by
  have ends : ∀ {storage : GraphStorage Value} {levels : Nat} {first last : CrawlState Value},
      storage.graph.Named → Begun storage root levels first →
      Reaches step (fun _ _ => True) first last → last.Done →
        Fetched storage.graph last ∧ last.root = root ∧ last.levels = levels := by
    intro storage levels first last named begun reaches done
    have sound : Sound storage.graph last := reaches.invariant (begun.sound named)
      fun _ _ _ sound _ moved => sound_step sound moved
    obtain ⟨sameRoot, sameLevels⟩ := reaches_fixed reaches
    exact ⟨sound.fetched done, sameRoot.trans begun.root, sameLevels.trans begun.levels⟩
  obtain ⟨levels, some_, begun_⟩ := begun started
  obtain ⟨fetched, sameRoot, sameLevels⟩ := ends named begun_ reaches done
  refine ⟨levels, some_, fetched.once, ?_, fetched.updated, fetched.rest, ?_⟩
  · rw [← sameRoot, ← sameLevels]
    exact fetched.ball
  · intro relays' batchSize' maxConcurrent' storage' maxDepth' maxHops' first' last' named' started'
      reaches' done' limit stored clear sent
    obtain ⟨levels', some', begun'⟩ := begun started'
    obtain ⟨fetched', sameRoot', sameLevels'⟩ := ends named' begun' reaches' done'
    rw [limit] at some'
    cases some'
    exact fetched.same fetched' (sameRoot'.trans sameRoot.symm) (sameLevels'.trans sameLevels.symm)
      stored clear sent

/-- A contact list of the root that names one pubkey, and has no id. -/
def contacts (follow : String) : CrawlEvent := ⟨3, some "root", 1, "", [["p", follow]]⟩

def delivered (events : List CrawlEvent) : List CrawlMove :=
  [.take, .subscribe 0 false] ++ events.map (fun event => .event 0 event 0) ++
    [.finish 0, .work 0 none, .nextLevel]

def emptyStorage : GraphStorage Nat := .begun Disk.blank

theorem named_blank : (Graph.blank : Graph Value).Named :=
  ⟨⟨GraphStorage.interned_blank, fun _ _ absurd => (nomatch absurd)⟩, fun _ _ absurd => (nomatch absurd)⟩

def contactsSent (follow : String) : Delivery := ⟨"root", ⟨1, ""⟩, contacts follow⟩

/-- A contact list is fetched, and once more with a smaller batch by a crawl that is sent it twice. -/
theorem crawl_leaves_newest_twice :
    ∃ first last first' last',
      begin_ ["wss://relay"] 100 5 emptyStorage "root" (some 0) none = .running first ∧
      exec step first (delivered [contacts "a"]) = some last ∧
      begin_ ["wss://relay"] 1 1 emptyStorage "root" none (some 1) = .running first' ∧
      exec step first' (delivered [contacts "a", contacts "a"]) = some last' ∧
      last.requested = ["root"] ∧
      Updated emptyStorage.graph last.storage.graph last.accepted "root" ∧
      SameGraph last.storage.graph last'.storage.graph := by
  have executed : ∃ first last first' last',
      begin_ ["wss://relay"] 100 5 emptyStorage "root" (some 0) none = .running first ∧
      exec step first (delivered [contacts "a"]) = some last ∧
      begin_ ["wss://relay"] 1 1 emptyStorage "root" none (some 1) = .running first' ∧
      exec step first' (delivered [contacts "a", contacts "a"]) = some last' ∧
      last.Done ∧ last'.Done ∧ last.requested = ["root"] ∧ last.accepted = [contactsSent "a"] ∧
      last'.accepted = [contactsSent "a", contactsSent "a"] := by
    refine ⟨_, _, _, _, rfl, rfl, rfl, rfl, ?_, ?_, ?_, ?_, ?_⟩ <;> decide
  obtain ⟨first, last, first', last', started, executed, started', executed', done, done', requested,
    accepted, accepted'⟩ := executed
  have all : ∀ delivery ∈ [contactsSent "a", contactsSent "a"], delivery = contactsSent "a" := by
    simp
  obtain ⟨levels, limit, _, _, updated, _, same⟩ :=
    crawl_leaves_newest named_blank started (Reaches.of_exec executed) done
  have again := same _ _ _ _ _ _ _ _ named_blank started' (Reaches.of_exec executed') done'
    (by rw [← limit]; decide) (fun _ => ⟨rfl, fun _ => Iff.rfl⟩)
    (by
      rw [accepted]
      intro one first two second _ _ follow
      rw [List.mem_singleton.mp first, List.mem_singleton.mp second])
    (by
      rw [accepted, accepted']
      refine fun author _ _ => ⟨fun delivery member here => ?_, fun delivery member here => ?_⟩
      · refine ⟨contactsSent "a", by simp, ?_⟩
        rw [List.mem_singleton.mp member] at here ⊢
        exact ⟨here, rfl, fun _ => Iff.rfl⟩
      · refine ⟨contactsSent "a", by simp, ?_⟩
        rw [all delivery member] at here ⊢
        exact ⟨here, rfl, fun _ => Iff.rfl⟩)
  exact ⟨first, last, first', last', started, executed, started', executed', requested,
    updated "root" (by rw [requested]; simp), again.2⟩

/-- Of two events with one version the one that came first is kept. -/
theorem first_of_two_is_kept :
    ∃ first last last',
      begin_ ["wss://relay"] 100 5 emptyStorage "root" (some 0) none = .running first ∧
      exec step first (delivered [contacts "a", contacts "b"]) = some last ∧
      exec step first (delivered [contacts "b", contacts "a"]) = some last' ∧
      last.Done ∧ last'.Done ∧ last'.accepted.Perm last.accepted ∧
      last.follows "root" = ["a"] ∧ last'.follows "root" = ["b"] := by
  refine ⟨_, _, _, rfl, rfl, rfl, ?_, ?_, List.Perm.swap _ _ _, ?_, ?_⟩ <;> decide

/-! ## The end of a crawl -/

/-- What is left to do of a level. -/
def weight (state : CrawlState Value) : Nat :=
  4 * state.waiting.length + 3 * state.taken.length +
    (state.flights.map fun flight => if flight.settled then 1 else 2).sum

theorem goes_on (running : state.aborted = false) (lanes : 0 < state.maxConcurrent)
    (not : ¬state.Done) :
    ∃ move next, step state move = some next ∧ next.aborted = false ∧
      next.maxConcurrent = state.maxConcurrent ∧
      (state.depth < next.depth ∧ state.depth < state.levels ∧ next.levels = state.levels ∨
        next.depth = state.depth ∧ next.levels = state.levels ∧ next.weight < state.weight) := by
  cases flights : state.flights with
  | cons flight rest =>
    cases settled : flight.settled with
    | true =>
      obtain ⟨storage, seen, nextSet, same⟩ := @work_frame _ flight.newest flight.authors
        { state with flights := rest }
      refine ⟨.work 0 none, { state with
        flights := rest, storage := storage, seen := seen, nextSet := nextSet }, ?_, running, rfl,
          .inr ⟨rfl, rfl, ?_⟩⟩
      · have worked : step state (.work 0 none) = some (flight.authors.foldl
            (CrawlState.handle flight.newest) { state with flights := rest }) := by
          simp [step, flights, settled, running]
        exact worked.trans (congrArg some same)
      · unfold weight
        simp [flights, settled]
    | false =>
      refine ⟨.finish 0, { state with flights := { flight with settled := true } :: rest }, ?_,
        running, rfl, .inr ⟨rfl, rfl, ?_⟩⟩
      · simp only [step, flights, List.getElem?_cons_zero, List.set_cons_zero]
      · unfold weight
        simp [flights, settled]
  | nil =>
    cases taken : state.taken with
    | cons authors rest =>
      refine ⟨.subscribe 0 false, { state with
        taken := rest
        flights := [⟨authors, [], false⟩]
        requested := state.requested ++ authors }, ?_, running, rfl, .inr ⟨rfl, rfl, ?_⟩⟩
      · simp [step, flights, taken, running]
      · unfold weight
        simp [flights, taken]
        omega
    | nil =>
      cases waiting : state.waiting with
      | cons batch rest =>
        refine ⟨.take, { state with waiting := rest, taken := [batch] }, ?_, running, rfl,
          .inr ⟨rfl, rfl, ?_⟩⟩
        · have free : ¬min state.maxConcurrent (max 1 state.items) ≤ 0 := by omega
          simp [step, flights, taken, waiting, running]
          omega
        · unfold weight
          simp [flights, taken, waiting]
          omega
      | nil =>
        have more : ¬(state.levels ≤ state.depth ∨ state.items = 0) := fun ended =>
          not ⟨running, waiting, taken, flights, ended⟩
        obtain ⟨below, items⟩ := not_or.mp more
        by_cases deeper : state.depth + 1 < state.levels
        · refine ⟨.nextLevel, openLevel { state with depth := state.depth + 1 } state.nextSet,
            ?_, running, rfl, .inl ⟨Nat.lt_succ_self _, Nat.not_le.mp below, rfl⟩⟩
          simp [step, flights, taken, waiting, running, below, items, deeper]
        · refine ⟨.nextLevel, { state with depth := state.depth + 1, nextSet := [] },
            ?_, running, rfl, .inl ⟨Nat.lt_succ_self _, Nat.not_le.mp below, rfl⟩⟩
          simp [step, flights, taken, waiting, running, below, items, deeper]

end CrawlState

end NostrWot.Wot
