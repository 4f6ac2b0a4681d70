import NostrWot.Data.OrderedMap
import NostrWot.Data.Utf16
import NostrWot.Dm.Types
import NostrWot.Sync.Run
import Mathlib.Data.Finset.Basic
import Mathlib.Data.List.Pairwise
import Mathlib.Data.List.Sort

namespace NostrWot.Dm

open NostrWot.Data NostrWot.Sync

/-! # The message cache of a session

The threads and what is derived of them: the ids seen, the observable of each thread and the
list of conversations, whose observers evict.
-/

/-- Every run of white space as one blank; `inside` is whether one has begun. -/
def collapse (inside : Bool) : List Char → List Char
  | [] => []
  | char :: rest =>
    if isSpace char then
      if inside then collapse true rest else ' ' :: collapse true rest
    else char :: collapse false rest

def trim (text : List Char) : List Char :=
  ((text.dropWhile isSpace).reverse.dropWhile isSpace).reverse

def previewOf (content : String) : List Nat :=
  let flat := (trim (collapse false content.toList)).flatMap charUnits
  if flat.length ≤ 80 then flat else flat.take 79 ++ charUnits '…'

structure SessionState where
  messagesByPartner : OrderedMap Pubkey (List DMMessage)
  messages : OrderedMap Pubkey (List DMMessage)
  conversations : List DMConversation
  seenMessageIds : Finset String
  /-- `none` until the follow list is known. -/
  followSet : Option (Finset Pubkey)
  /-- The caps of the sessions that observe the conversations. -/
  caps : List Nat

namespace SessionState

def fresh : SessionState := ⟨∅, ∅, [], ∅, none, []⟩

def thread (state : SessionState) (partner : Pubkey) : List DMMessage :=
  (state.messagesByPartner.get partner).getD []

def byAge (left right : DMMessage) : Prop := left.createdAt ≤ right.createdAt

instance : DecidableRel byAge := fun left right =>
  inferInstanceAs (Decidable (left.createdAt ≤ right.createdAt))

def sorted (msgs : List DMMessage) : List DMMessage := msgs.insertionSort byAge

def conversation (entry : Pubkey × List DMMessage) : Option DMConversation :=
  entry.2.getLast?.map fun last => {
    partnerPubkey := entry.1
    lastMessageAt := last.createdAt
    preview := previewOf last.content
    messageCount := entry.2.length }

/-- The list that every operation computes anew. -/
def recompute (threads : OrderedMap Pubkey (List DMMessage)) : List DMConversation :=
  (threads.entries.filterMap conversation).insertionSort fun left right =>
    right.lastMessageAt ≤ left.lastMessageAt

/-! ## Eviction -/

structure Item where
  partner : Pubkey
  idx : Nat
  ts : Int
  deriving DecidableEq

def itemsOf (partner : Pubkey) (msgs : List DMMessage) : List Item :=
  msgs.mapIdx fun idx msg => ⟨partner, idx, msg.createdAt⟩

def evictable (follows : Finset Pubkey) (threads : OrderedMap Pubkey (List DMMessage)) :
    List Item :=
  threads.entries.flatMap fun entry => if entry.1 ∈ follows then [] else itemsOf entry.1 entry.2

def oldestFirst (items : List Item) : List Item :=
  items.insertionSort fun left right => left.ts ≤ right.ts

def dropIdx (drop : List Item) : OrderedMap Pubkey (List Nat) :=
  drop.foldl (fun map item => map.set item.partner ((map.get item.partner).getD [] ++ [item.idx])) ∅

/-- The messages that stay of a thread, and those that go. -/
def kept (idxSet : List Nat) (old : List DMMessage) : List DMMessage :=
  (old.zipIdx.filter fun entry => entry.2 ∉ idxSet).map Prod.fst

def gone (idxSet : List Nat) (old : List DMMessage) : List DMMessage :=
  (old.zipIdx.filter fun entry => entry.2 ∈ idxSet).map Prod.fst

def splice (state : SessionState) (partner : Pubkey) (idxSet : List Nat) : SessionState :=
  let old := state.thread partner
  let next := kept idxSet old
  { state with
    seenMessageIds := state.seenMessageIds \ ((gone idxSet old).map DMMessage.id).toFinset
    messagesByPartner :=
      if next = [] then state.messagesByPartner.delete partner
      else state.messagesByPartner.set partner next
    messages := state.messages.set partner next }

def spliceAll (state : SessionState) (drop : List Item) : SessionState :=
  (dropIdx drop).entries.foldl (fun state entry => state.splice entry.1 entry.2) state

/-- `evictIfNeeded`, with the observers that the new list of conversations calls in it. -/
def evict : Nat → SessionState → Nat → SessionState
  | 0, state, _ => state
  | fuel + 1, state, cap =>
    match state.followSet with
    | none => state
    | some follows =>
      let items := evictable follows state.messagesByPartner
      if items.length ≤ cap then state
      else
        let next := state.spliceAll ((oldestFirst items).take (items.length - cap))
        next.caps.foldl (evict fuel)
          { next with conversations := recompute next.messagesByPartner }

/-- How many messages there are: each eviction in another one leaves fewer. -/
def count (state : SessionState) : Nat :=
  (state.messagesByPartner.entries.map fun entry => entry.2.length).sum

def evictIfNeeded (state : SessionState) (cap : Nat) : SessionState :=
  state.evict (state.count + 1) cap

/-- `conversations.set` of the list computed anew. -/
def publish (state : SessionState) : SessionState :=
  state.caps.foldl (evict (state.count + 1))
    { state with conversations := recompute state.messagesByPartner }

/-! ## Messages -/

def ingestMessage (state : SessionState) (msg : DMMessage) : SessionState :=
  if msg.id ∈ state.seenMessageIds then state
  else
    let inserted := sorted (state.thread msg.partnerPubkey ++ [msg])
    publish { state with
      seenMessageIds := insert msg.id state.seenMessageIds
      messagesByPartner := state.messagesByPartner.set msg.partnerPubkey inserted
      messages := state.messages.set msg.partnerPubkey inserted }

def hydrateThread (state : SessionState) (entry : Pubkey × List DMMessage) : SessionState :=
  { state with
    seenMessageIds := state.seenMessageIds ∪ (entry.2.map DMMessage.id).toFinset
    messagesByPartner := state.messagesByPartner.set entry.1 (sorted entry.2)
    messages := state.messages.set entry.1 (sorted entry.2) }

def hydrateMessages (state : SessionState) (conversations : OrderedMap Pubkey (List DMMessage)) :
    SessionState :=
  publish (conversations.entries.foldl hydrateThread state)

inductive Move where
  | ingest (msg : DMMessage)
  | hydrate (conversations : OrderedMap Pubkey (List DMMessage))
  | setFollowSet (follows : Option (Finset Pubkey))
  | evictIfNeeded (cap : Nat)
  /-- `initDMSession` subscribes to the conversations. -/
  | observe (cap : Nat)
  | unobserve (cap : Nat)

def step (state : SessionState) : Move → SessionState
  | .ingest msg => state.ingestMessage msg
  | .hydrate conversations => state.hydrateMessages conversations
  | .setFollowSet follows => { state with followSet := follows }
  | .evictIfNeeded cap => state.evictIfNeeded cap
  | .observe cap => { state with caps := state.caps ++ [cap] }
  | .unobserve cap => { state with caps := state.caps.erase cap }

/-! ## What a splice does -/

variable {state : SessionState} {drop : List Item} {partner : Pubkey} {follows : Finset Pubkey}

variable {idxSet : List Nat} {msg : DMMessage}

theorem mem_kept {old : List DMMessage} :
    msg ∈ kept idxSet old ↔ ∃ idx, old[idx]? = some msg ∧ idx ∉ idxSet := by
  unfold kept
  rw [List.mem_map]
  constructor
  · intro found
    obtain ⟨entry, member, same⟩ := found
    obtain ⟨held, stays⟩ := List.mem_filter.mp member
    refine ⟨entry.2, ?_, of_decide_eq_true stays⟩
    rw [← same]
    exact List.mem_zipIdx_iff_getElem?.mp held
  · intro found
    obtain ⟨idx, held, stays⟩ := found
    exact ⟨(msg, idx), List.mem_filter.mpr
      ⟨List.mem_zipIdx_iff_getElem?.mpr held, decide_eq_true stays⟩, rfl⟩

variable (msgs : List DMMessage)

theorem zipIdx_map_fst : msgs.zipIdx.map Prod.fst = msgs := by
  simp

theorem kept_sublist (idxSet : List Nat) (old : List DMMessage) :
    (kept idxSet old).Sublist old := by
  have sub := (List.filter_sublist (l := old.zipIdx) (p := fun entry => decide (entry.2 ∉ idxSet))).map
    Prod.fst
  rwa [zipIdx_map_fst] at sub

theorem kept_gone_perm (idxSet : List Nat) (old : List DMMessage) :
    (kept idxSet old ++ gone idxSet old).Perm old := by
  have perm := (List.filter_append_perm (fun entry => decide (entry.2 ∉ idxSet)) old.zipIdx).map
    Prod.fst
  rw [List.map_append, zipIdx_map_fst] at perm
  simpa [kept, gone] using perm

theorem kept_nil (old : List DMMessage) : kept [] old = old := by
  simp [kept]

def indices (drop : List Item) (partner : Pubkey) : List Nat :=
  ((dropIdx drop).get partner).getD []

theorem indices_append (item : Item) :
    indices (drop ++ [item]) partner =
      indices drop partner ++ if item.partner = partner then [item.idx] else [] := by
  unfold indices dropIdx
  rw [List.foldl_append]
  show ((OrderedMap.set _ item.partner _).get partner).getD [] = _
  rw [OrderedMap.get_set]
  by_cases same : item.partner = partner
  · rw [if_pos same.symm, if_pos same, same]
    rfl
  · rw [if_neg (fun equal => same equal.symm), if_neg same, List.append_nil]

theorem mem_indices {idx : Nat} :
    idx ∈ indices drop partner ↔ ∃ item ∈ drop, item.partner = partner ∧ item.idx = idx := by
  induction drop using List.reverseRecOn with
  | nil => simp [indices, dropIdx, OrderedMap.get]
  | append_singleton rest item ih =>
    rw [indices_append, List.mem_append, ih]
    by_cases same : item.partner = partner
    · simp [same, or_and_right, exists_or, eq_comm]
    · simp [same, or_and_right, exists_or]

theorem indices_nodup (apart : (drop.map fun item => (item.partner, item.idx)).Nodup) :
    (indices drop partner).Nodup := by
  induction drop using List.reverseRecOn with
  | nil => exact List.nodup_nil
  | append_singleton rest item ih =>
    rw [List.map_append, List.nodup_append] at apart
    rw [indices_append]
    by_cases same : item.partner = partner
    · rw [if_pos same, List.nodup_append]
      refine ⟨ih apart.1, List.nodup_singleton _, ?_⟩
      intro idx before other last equal
      obtain ⟨old, held, there, is⟩ := mem_indices.mp before
      have other_eq : other = item.idx := by simpa using last
      refine apart.2.2 (old.partner, old.idx) (List.mem_map_of_mem held)
        (item.partner, item.idx) (by simp) ?_
      rw [there, is, same, equal, other_eq]
    · rw [if_neg same, List.append_nil]
      exact ih apart.1

theorem dropIdx_weight (drop : List Item) :
    (dropIdx drop).weight (fun _ idxSet => idxSet.length) = drop.length := by
  induction drop using List.reverseRecOn with
  | nil => rfl
  | append_singleton rest item ih =>
    have last : dropIdx (rest ++ [item]) = (dropIdx rest).set item.partner
        (((dropIdx rest).get item.partner).getD [] ++ [item.idx]) := by
      unfold dropIdx
      rw [List.foldl_append]
      rfl
    rw [last, List.length_append, List.length_singleton, ← ih]
    cases held : (dropIdx rest).get item.partner with
    | none =>
      rw [OrderedMap.weight_set_of_none held]
      rfl
    | some old =>
      have changed := @OrderedMap.weight_set _ _ _ (fun _ idxSet => idxSet.length) _ _ _ held
        (old ++ [item.idx])
      rw [List.length_append, List.length_singleton] at changed
      show OrderedMap.weight _ ((dropIdx rest).set item.partner (old ++ [item.idx])) = _
      omega

theorem splice_thread (idxSet : List Nat) (other : Pubkey) :
    (state.splice partner idxSet).thread other =
      if other = partner then kept idxSet (state.thread partner) else state.thread other := by
  unfold splice thread
  dsimp only
  split
  · rename_i empty
    rw [OrderedMap.get_delete]
    split
    · rw [empty]
      rfl
    · rfl
  · rw [OrderedMap.get_set]
    split <;> rfl

/-- The evictable messages, counted. -/
def size (follows : Finset Pubkey) (state : SessionState) : Nat :=
  state.messagesByPartner.weight fun partner msgs => if partner ∈ follows then 0 else msgs.length

theorem splice_size (evictable : partner ∉ follows) (idxSet : List Nat) :
    (state.splice partner idxSet).size follows + (gone idxSet (state.thread partner)).length =
      state.size follows := by
  have total := (kept_gone_perm idxSet (state.thread partner)).length_eq
  rw [List.length_append] at total
  unfold size splice
  dsimp only
  cases held : state.messagesByPartner.get partner with
  | none =>
    have empty : state.thread partner = [] := by
      unfold thread
      rw [held]
      rfl
    have none_kept : kept idxSet [] = [] := rfl
    rw [empty, if_pos none_kept, OrderedMap.delete_of_none held]
    rfl
  | some old =>
    have same : state.thread partner = old := by
      unfold thread
      rw [held]
      rfl
    rw [same] at total ⊢
    split
    · rename_i empty
      have deleted := @OrderedMap.weight_delete _ _ _
        (fun partner msgs => if partner ∈ follows then 0 else msgs.length) _ _ _ held
      rw [if_neg evictable] at deleted
      rw [empty, List.length_nil] at total
      omega
    · have changed := @OrderedMap.weight_set _ _ _
        (fun partner msgs => if partner ∈ follows then 0 else msgs.length) _ _ _ held
        (kept idxSet old)
      rw [if_neg evictable, if_neg evictable] at changed
      omega

theorem splices_thread {entries : List (Pubkey × List Nat)}
    (apart : (entries.map Prod.fst).Nodup) (state : SessionState) (other : Pubkey) :
    (entries.foldl (fun state entry => state.splice entry.1 entry.2) state).thread other =
      kept (((entries.find? fun entry => entry.1 = other).map Prod.snd).getD [])
        (state.thread other) := by
  induction entries generalizing state with
  | nil => exact (kept_nil _).symm
  | cons entry rest ih =>
    rw [List.map_cons, List.nodup_cons] at apart
    rw [List.foldl_cons, ih apart.2, splice_thread, List.find?_cons]
    by_cases same : other = entry.1
    · have absent : rest.find? (fun later => decide (later.1 = other)) = none := by
        rw [List.find?_eq_none]
        intro later member equal
        have equal : later.1 = other := of_decide_eq_true equal
        exact apart.1 (List.mem_map.mpr ⟨later, member, equal.trans same⟩)
      have found : decide (entry.1 = other) = true := decide_eq_true same.symm
      rw [absent, if_pos same, found, same]
      exact kept_nil _
    · have differs : decide (entry.1 = other) = false :=
        decide_eq_false fun equal => same equal.symm
      rw [if_neg same, differs]

theorem splices_size {entries : List (Pubkey × List Nat)} (apart : (entries.map Prod.fst).Nodup)
    (evictable : ∀ entry ∈ entries, entry.1 ∉ follows) (state : SessionState) :
    (entries.foldl (fun state entry => state.splice entry.1 entry.2) state).size follows +
        (entries.map fun entry => (gone entry.2 (state.thread entry.1)).length).sum =
      state.size follows := by
  induction entries generalizing state with
  | nil => rfl
  | cons entry rest ih =>
    rw [List.map_cons, List.nodup_cons] at apart
    have first := @splice_size state entry.1 follows (evictable entry List.mem_cons_self) entry.2
    have others := ih apart.2 (fun later member => evictable later (List.mem_cons_of_mem _ member))
      (state.splice entry.1 entry.2)
    have same : (rest.map fun later =>
        (gone later.2 ((state.splice entry.1 entry.2).thread later.1)).length) =
        rest.map fun later => (gone later.2 (state.thread later.1)).length := by
      refine List.map_congr_left fun later member => ?_
      have differs : later.1 ≠ entry.1 := fun equal =>
        apart.1 (List.mem_map.mpr ⟨later, member, equal⟩)
      rw [splice_thread, if_neg differs]
    rw [same] at others
    rw [List.foldl_cons, List.map_cons, List.sum_cons]
    omega

theorem spliceAll_thread (other : Pubkey) :
    (state.spliceAll drop).thread other = kept (indices drop other) (state.thread other) := by
  unfold spliceAll
  rw [splices_thread (dropIdx drop).nodup]
  rfl

theorem gone_length {old : List DMMessage} (nodup : idxSet.Nodup)
    (bounded : ∀ idx ∈ idxSet, idx < old.length) : (gone idxSet old).length = idxSet.length := by
  have perm : ((old.zipIdx.filter fun entry => entry.2 ∈ idxSet).map Prod.snd).Perm idxSet := by
    refine (List.perm_ext_iff_of_nodup ?_ nodup).mpr fun idx => ?_
    · have all : (old.zipIdx.map Prod.snd).Nodup := by
        rw [List.zipIdx_map_snd]
        exact List.nodup_range'
      exact all.sublist (List.filter_sublist.map _)
    · rw [List.mem_map]
      constructor
      · intro found
        obtain ⟨entry, member, same⟩ := found
        rw [← same]
        exact of_decide_eq_true (List.mem_filter.mp member).2
      · intro member
        have inside := bounded idx member
        exact ⟨(old[idx], idx), List.mem_filter.mpr ⟨List.mem_zipIdx_iff_getElem?.mpr
          (List.getElem?_eq_getElem inside), decide_eq_true member⟩, rfl⟩
  have length := perm.length_eq
  rw [List.length_map] at length
  unfold gone
  rw [List.length_map]
  exact length

theorem dropIdx_partner (held : (dropIdx drop).get partner = some idxSet) :
    ∃ item ∈ drop, item.partner = partner := by
  induction drop using List.reverseRecOn generalizing idxSet with
  | nil => contradiction
  | append_singleton rest item ih =>
    unfold dropIdx at held
    rw [List.foldl_append] at held
    by_cases same : item.partner = partner
    · exact ⟨item, by simp, same⟩
    · have held : ((dropIdx rest).set item.partner
          (((dropIdx rest).get item.partner).getD [] ++ [item.idx])).get partner =
            some idxSet := held
      rw [OrderedMap.get_set, if_neg (fun equal => same equal.symm)] at held
      obtain ⟨found, member, there⟩ := ih held
      exact ⟨found, List.mem_append_left _ member, there⟩

theorem spliceAll_size (apart : (drop.map fun item => (item.partner, item.idx)).Nodup)
    (valid : ∀ item ∈ drop, item.idx < (state.thread item.partner).length)
    (outside : ∀ item ∈ drop, item.partner ∉ follows) :
    (state.spliceAll drop).size follows + drop.length = state.size follows := by
  have partners : ∀ entry ∈ (dropIdx drop).entries, entry.1 ∉ follows := by
    intro entry member
    obtain ⟨item, held, same⟩ := dropIdx_partner (OrderedMap.get_eq_some.mpr member)
    rw [← same]
    exact outside item held
  have total := splices_size (dropIdx drop).nodup partners state
  have lengths : ((dropIdx drop).entries.map fun entry =>
      (gone entry.2 (state.thread entry.1)).length) =
        (dropIdx drop).entries.map fun entry => entry.2.length := by
    refine List.map_congr_left fun entry member => ?_
    have is : entry.2 = indices drop entry.1 := by
      unfold indices
      rw [OrderedMap.get_eq_some.mpr member]
      rfl
    rw [is]
    refine gone_length (indices_nodup apart) fun idx inside => ?_
    obtain ⟨item, held, same, at_idx⟩ := mem_indices.mp inside
    rw [← same, ← at_idx]
    exact valid item held
  have counted : ((dropIdx drop).entries.map fun entry => entry.2.length).sum = drop.length :=
    dropIdx_weight drop
  rw [lengths, counted] at total
  exact total

theorem mem_evictable {item : Item} :
    item ∈ evictable follows state.messagesByPartner ↔ item.partner ∉ follows ∧
      ∃ msg, (state.thread item.partner)[item.idx]? = some msg ∧ item.ts = msg.createdAt := by
  unfold evictable
  rw [List.mem_flatMap]
  constructor
  · intro found
    obtain ⟨entry, held, inside⟩ := found
    split at inside
    · contradiction
    rename_i outside
    unfold itemsOf at inside
    obtain ⟨idx, bound, same⟩ := List.mem_mapIdx.mp inside
    rw [← same]
    refine ⟨outside, entry.2[idx], ?_, rfl⟩
    have there : state.thread entry.1 = entry.2 := by
      unfold thread
      rw [OrderedMap.get_eq_some.mpr held]
      rfl
    show (state.thread entry.1)[idx]? = _
    rw [there]
    exact List.getElem?_eq_getElem bound
  · intro found
    obtain ⟨outside, msg, held, time⟩ := found
    cases known : state.messagesByPartner.get item.partner with
    | none =>
      unfold thread at held
      rw [known] at held
      contradiction
    | some msgs =>
      have there : state.thread item.partner = msgs := by
        unfold thread
        rw [known]
        rfl
      rw [there] at held
      refine ⟨(item.partner, msgs), OrderedMap.get_eq_some.mp known, ?_⟩
      rw [if_neg outside]
      unfold itemsOf
      obtain ⟨bound, is⟩ := List.getElem?_eq_some_iff.mp held
      refine List.mem_mapIdx.mpr ⟨item.idx, bound, ?_⟩
      rw [is, ← time]

theorem evictable_length :
    (evictable follows state.messagesByPartner).length = state.size follows := by
  unfold evictable size OrderedMap.weight
  rw [List.length_flatMap]
  congr 1
  refine List.map_congr_left fun entry _ => ?_
  dsimp only
  by_cases followed : entry.1 ∈ follows
  · rw [if_pos followed, if_pos followed]
    rfl
  · rw [if_neg followed, if_neg followed]
    exact List.length_mapIdx

theorem evictable_apart :
    ((evictable follows state.messagesByPartner).map fun item =>
      (item.partner, item.idx)).Nodup := by
  unfold evictable
  have nodup := state.messagesByPartner.nodup
  revert nodup
  generalize state.messagesByPartner.entries = entries
  intro nodup
  induction entries with
  | nil => exact List.nodup_nil
  | cons entry rest ih =>
    rw [List.map_cons, List.nodup_cons] at nodup
    rw [List.flatMap_cons, List.map_append, List.nodup_append]
    refine ⟨?_, ih nodup.2, ?_⟩
    · split
      · exact List.nodup_nil
      · have indexed : ((itemsOf entry.1 entry.2).map fun item => (item.partner, item.idx)) =
            (List.range entry.2.length).map fun idx => (entry.1, idx) := by
          refine List.ext_getElem (by simp [itemsOf]) fun idx _ _ => ?_
          simp [itemsOf]
        rw [indexed]
        exact List.nodup_range.map fun _ _ same => (Prod.mk.inj same).2
    · intro first before second after equal
      obtain ⟨item, inside, is⟩ := List.mem_map.mp before
      obtain ⟨later, others, same⟩ := List.mem_map.mp after
      obtain ⟨entry', member, held⟩ := List.mem_flatMap.mp others
      have here : item.partner = entry.1 := by
        split at inside
        · contradiction
        · obtain ⟨idx, _, built⟩ := List.mem_mapIdx.mp inside
          rw [← built]
      have there : later.partner = entry'.1 := by
        split at held
        · contradiction
        · obtain ⟨idx, _, built⟩ := List.mem_mapIdx.mp held
          rw [← built]
      have partners : item.partner = later.partner := by
        have pairs : (item.partner, item.idx) = (later.partner, later.idx) := by
          rw [is, same, equal]
        exact (Prod.mk.inj pairs).1
      exact nodup.1 (List.mem_map.mpr ⟨entry', member, there.symm.trans (partners.symm.trans here)⟩)

/-! ## What an eviction does -/

/-- Of the messages of partners outside `follows` the oldest are gone, and as many are left as
one of the caps says. -/
structure Evicted (follows : Finset Pubkey) (caps : List Nat) (before after : SessionState) :
    Prop where
  known : before.followSet = some follows
  followSet : after.followSet = before.followSet
  observers : after.caps = before.caps
  sublist : ∀ partner, (after.thread partner).Sublist (before.thread partner)
  followed : ∀ partner ∈ follows, after.thread partner = before.thread partner
  oldest : ∀ partner, ∀ msg ∈ before.thread partner, msg ∉ after.thread partner →
    ∀ other ∉ follows, ∀ left ∈ after.thread other, msg.createdAt ≤ left.createdAt
  left : after.size follows ∈ caps
  fewer : after.size follows ≤ before.size follows
  count : after.size ∅ < before.size ∅

variable {before : SessionState}

variable {after : SessionState}

theorem Evicted.trans {caps more : List Nat} {middle : SessionState} {others : Finset Pubkey}
    (first : Evicted follows caps before middle) (second : Evicted others more middle after) :
    Evicted follows more before after := by
  have same : others = follows := by
    have known := second.known
    rw [first.followSet, first.known] at known
    exact (Option.some.inj known).symm
  subst same
  refine ⟨first.known, second.followSet.trans first.followSet,
    second.observers.trans first.observers, fun partner =>
      (second.sublist partner).trans (first.sublist partner), fun partner followed =>
        (second.followed partner followed).trans (first.followed partner followed), ?_, second.left,
    Nat.le_trans second.fewer first.fewer, Nat.lt_trans second.count first.count⟩
  intro partner msg held lost other outside left stays
  by_cases between : msg ∈ middle.thread partner
  · exact second.oldest partner msg between lost other outside left stays
  · exact first.oldest partner msg held between other outside left
      ((second.sublist other).subset stays)

theorem Evicted.mono {caps more : List Nat} (evicted : Evicted follows caps before after)
    (within : ∀ cap ∈ caps, cap ∈ more) :
    Evicted follows more before after :=
  { evicted with left := within _ evicted.left }

theorem spliceAll_rest : (state.spliceAll drop).followSet = state.followSet ∧
    (state.spliceAll drop).caps = state.caps := by
  unfold spliceAll
  induction (dropIdx drop).entries generalizing state with
  | nil => exact ⟨rfl, rfl⟩
  | cons entry rest ih => exact @ih (state.splice entry.1 entry.2)

theorem spliceAll_evicted {cap : Nat} (known : state.followSet = some follows)
    (excess : ¬ (evictable follows state.messagesByPartner).length ≤ cap) :
    Evicted follows [cap] state (state.spliceAll
      ((oldestFirst (evictable follows state.messagesByPartner)).take
        ((evictable follows state.messagesByPartner).length - cap))) := by
  have total := @evictable_length state follows
  have pairs := @evictable_apart state follows
  generalize every : evictable follows state.messagesByPartner = items at total pairs excess ⊢
  have member : ∀ item, item ∈ items ↔ item.partner ∉ follows ∧
      ∃ msg, (state.thread item.partner)[item.idx]? = some msg ∧ item.ts = msg.createdAt := by
    intro item
    rw [← every]
    exact mem_evictable
  have perm : (oldestFirst items).Perm items := List.perm_insertionSort _ items
  have ordered : (oldestFirst items).Pairwise fun left right => left.ts ≤ right.ts := by
    have trans : IsTrans Item fun left right => left.ts ≤ right.ts :=
      ⟨fun _ _ _ => Int.le_trans⟩
    have total : Std.Total fun left right : Item => left.ts ≤ right.ts :=
      ⟨fun left right => Int.le_total left.ts right.ts⟩
    exact List.pairwise_insertionSort _ items
  generalize split : items.length - cap = k
  have fits : ((oldestFirst items).take k).length = k := by
    rw [List.length_take, perm.length_eq]
    omega
  have inside : ∀ item ∈ (oldestFirst items).take k, item ∈ items :=
    fun item held => perm.mem_iff.mp (List.mem_of_mem_take held)
  have apart : (((oldestFirst items).take k).map fun item => (item.partner, item.idx)).Nodup :=
    ((perm.map _).nodup_iff.mpr pairs).sublist ((List.take_sublist _ _).map _)
  have outside : ∀ item ∈ (oldestFirst items).take k, item.partner ∉ follows :=
    fun item held => ((member item).mp (inside item held)).1
  have valid : ∀ item ∈ (oldestFirst items).take k,
      item.idx < (state.thread item.partner).length := by
    intro item held
    obtain ⟨_, msg, there, _⟩ := (member item).mp (inside item held)
    exact (List.getElem?_eq_some_iff.mp there).1
  have evictables := spliceAll_size apart valid outside
  have messages := @spliceAll_size state _ ∅ apart valid fun item _ => Finset.notMem_empty _
  rw [fits] at evictables messages
  have threads := fun partner => @spliceAll_thread state ((oldestFirst items).take k) partner
  have unlisted : ∀ partner ∈ follows, indices ((oldestFirst items).take k) partner = [] := by
    intro partner followed
    refine List.eq_nil_iff_forall_not_mem.mpr fun idx held => ?_
    obtain ⟨item, dropped, same, _⟩ := mem_indices.mp held
    exact outside item dropped (same ▸ followed)
  refine ⟨known, spliceAll_rest.1, spliceAll_rest.2, fun partner => ?_, fun partner followed => ?_,
    ?_, ?_, by omega, by omega⟩
  · rw [threads]
    exact kept_sublist _ _
  · rw [threads, unlisted partner followed, kept_nil]
  · intro partner msg held lost other unfollowed left stays
    rw [threads] at lost stays
    obtain ⟨idx, there⟩ := List.mem_iff_getElem?.mp held
    have dropped : idx ∈ indices ((oldestFirst items).take k) partner := by
      by_contra absent
      exact lost (mem_kept.mpr ⟨idx, there, absent⟩)
    obtain ⟨item, taken, same, at_idx⟩ := mem_indices.mp dropped
    obtain ⟨_, found, placed, time⟩ := (member item).mp (inside item taken)
    rw [same, at_idx, there] at placed
    cases placed
    obtain ⟨place, remains, untouched⟩ := mem_kept.mp stays
    have listed : (⟨other, place, left.createdAt⟩ : Item) ∈ oldestFirst items :=
      perm.mem_iff.mpr ((member _).mpr ⟨unfollowed, left, remains, rfl⟩)
    have later : (⟨other, place, left.createdAt⟩ : Item) ∈ (oldestFirst items).drop k := by
      rw [← List.take_append_drop k (oldestFirst items)] at listed
      rcases List.mem_append.mp listed with taken | later
      · exact absurd (mem_indices.mpr ⟨_, taken, rfl, rfl⟩) untouched
      · exact later
    rw [← List.take_append_drop k (oldestFirst items), List.pairwise_append] at ordered
    have before := ordered.2.2 item taken _ later
    rw [time] at before
    exact before
  · rw [List.mem_singleton]
    omega

theorem Evicted.relisted {caps : List Nat} (evicted : Evicted follows caps before after)
    (conversations : List DMConversation) :
    Evicted follows caps before { after with conversations := conversations } :=
  ⟨evicted.known, evicted.followSet, evicted.observers, evicted.sublist, evicted.followed,
    evicted.oldest, evicted.left, evicted.fewer, evicted.count⟩

def Shrinks (caps : List Nat) (before after : SessionState) : Prop :=
  after = before ∨ ∃ follows, Evicted follows caps before after

theorem Shrinks.trans {caps : List Nat} {middle : SessionState} (first : Shrinks caps before middle)
    (second : Shrinks caps middle after) :
    Shrinks caps before after := by
  rcases first with same | ⟨follows, first⟩
  · rw [← same]
    exact second
  · rcases second with same | ⟨others, second⟩
    · rw [same]
      exact .inr ⟨follows, first⟩
    · exact .inr ⟨follows, first.trans second⟩

theorem Shrinks.observers {caps : List Nat} (shrinks : Shrinks caps before after) :
    after.caps = before.caps := by
  rcases shrinks with same | ⟨_, evicted⟩
  · rw [same]
  · exact evicted.observers

theorem Shrinks.mono {caps more : List Nat} (shrinks : Shrinks caps before after)
    (within : ∀ cap ∈ caps, cap ∈ more) :
    Shrinks more before after :=
  shrinks.imp id fun evicts => evicts.imp fun _ evicted => evicted.mono within

variable {act : SessionState → Nat → SessionState}

theorem foldl_shrinks (shrinks : ∀ state cap, Shrinks (cap :: state.caps) state (act state cap))
    (caps : List Nat) :
    ∀ state : SessionState, (∀ cap ∈ caps, cap ∈ state.caps) →
      Shrinks state.caps state (caps.foldl act state) := by
  induction caps with
  | nil => exact fun state _ => .inl rfl
  | cons cap rest ih =>
    intro state observing
    have first : Shrinks state.caps state (act state cap) :=
      (shrinks state cap).mono fun other member => by
        rcases List.mem_cons.mp member with same | member
        · rw [same]
          exact observing cap List.mem_cons_self
        · exact member
    have others := ih (act state cap) fun other member => by
      rw [first.observers]
      exact observing other (List.mem_cons_of_mem _ member)
    rw [first.observers] at others
    exact first.trans others

theorem evict_shrinks (fuel : Nat) : ∀ state cap,
    Shrinks (cap :: state.caps) state (evict fuel state cap) := by
  induction fuel with
  | zero => exact fun state cap => .inl rfl
  | succ fuel ih =>
    intro state cap
    unfold evict
    cases known : state.followSet with
    | none => exact .inl rfl
    | some follows =>
      dsimp only
      split
      · exact .inl rfl
      · rename_i excess
        have dropped := spliceAll_evicted known excess
        generalize state.spliceAll _ = next at dropped ⊢
        have listed := dropped.relisted (recompute next.messagesByPartner)
        have others := foldl_shrinks ih next.caps
          { next with conversations := recompute next.messagesByPartner } fun _ => id
        have first : Shrinks (cap :: state.caps) state _ :=
          .inr ⟨follows, listed.mono fun other member => by
            rw [List.mem_singleton.mp member]
            exact List.mem_cons_self⟩
        exact first.trans (others.mono fun other member => by
          have member : other ∈ next.caps := member
          rw [dropped.observers] at member
          exact List.mem_cons_of_mem _ member)

theorem count_eq : state.count = state.size ∅ := by
  unfold count size OrderedMap.weight
  simp

theorem Shrinks.count {caps : List Nat} (shrinks : Shrinks caps before after) :
    after.count ≤ before.count := by
  rw [count_eq, count_eq]
  rcases shrinks with same | ⟨_, evicted⟩
  · rw [same]
  · exact Nat.le_of_lt evicted.count

theorem Shrinks.size {caps : List Nat} (shrinks : Shrinks caps before after)
    (known : before.followSet = some follows) :
    after.followSet = some follows ∧ after.size follows ≤ before.size follows := by
  rcases shrinks with same | ⟨others, evicted⟩
  · rw [same]
    exact ⟨known, Nat.le_refl _⟩
  · have same : others = follows := by
      have other := evicted.known
      rw [known] at other
      exact (Option.some.inj other).symm
    subst same
    exact ⟨evicted.followSet.trans known, evicted.fewer⟩

theorem evict_le {fuel : Nat} (known : state.followSet = some follows) (cap : Nat) :
    (evict (fuel + 1) state cap).size follows ≤ cap := by
  unfold evict
  rw [known]
  dsimp only
  split
  · rename_i within
    rwa [evictable_length] at within
  · rename_i excess
    have dropped := spliceAll_evicted known excess
    generalize state.spliceAll _ = next at dropped ⊢
    have shrinks := foldl_shrinks (evict_shrinks fuel) next.caps
      { next with conversations := recompute next.messagesByPartner } fun _ => id
    have still : next.followSet = some follows := dropped.followSet.trans known
    have left := (shrinks.size still).2
    have exactly : next.size follows = cap := List.mem_singleton.mp dropped.left
    have same : ({ next with
      conversations := recompute next.messagesByPartner } : SessionState).size follows =
        next.size follows := rfl
    omega

theorem foldl_evict_size {fuel : Nat} (caps : List Nat) :
    ∀ state : SessionState, state.followSet = some follows →
      (caps.foldl (evict fuel) state).size follows ≤ state.size follows := by
  induction caps with
  | nil => exact fun _ _ => Nat.le_refl _
  | cons first rest ih =>
    intro state known
    have step := (evict_shrinks fuel state first).size known
    exact Nat.le_trans (ih _ step.1) step.2

theorem foldl_evict_le {fuel : Nat} (caps : List Nat) :
    ∀ state : SessionState, state.followSet = some follows →
      ∀ cap ∈ caps, (caps.foldl (evict (fuel + 1)) state).size follows ≤ cap := by
  induction caps with
  | nil => exact fun _ _ _ absurd => nomatch absurd
  | cons first rest ih =>
    intro state known cap member
    have known' := ((evict_shrinks (fuel + 1) state first).size known).1
    rcases List.mem_cons.mp member with same | member
    · rw [same]
      exact Nat.le_trans (foldl_evict_size rest _ known') (evict_le known first)
    · exact ih _ known' cap member

/-! ## Soundness -/

structure Sound (state : SessionState) : Prop where
  sorted : ∀ partner, (state.thread partner).Pairwise byAge
  distinct : ∀ partner, ((state.thread partner).map DMMessage.id).Nodup
  apart : ∀ partner other, ∀ msg ∈ state.thread partner, ∀ also ∈ state.thread other,
    msg.id = also.id → partner = other
  seen : ∀ id, id ∈ state.seenMessageIds ↔ ∃ partner, ∃ msg ∈ state.thread partner, msg.id = id
  shown : ∀ partner, (state.messages.get partner).getD [] = state.thread partner

theorem Sound.splice (sound : state.Sound) (idxSet : List Nat) :
    (state.splice partner idxSet).Sound := by
  have threads := fun other => @splice_thread state partner idxSet other
  have within : ∀ other, ∀ msg ∈ (state.splice partner idxSet).thread other,
      msg ∈ state.thread other := by
    intro other msg held
    rw [threads] at held
    split at held
    · rename_i same
      rw [same]
      exact (kept_sublist _ _).subset held
    · exact held
  have fresh : ∀ msg ∈ kept idxSet (state.thread partner), ∀ lost ∈ gone idxSet (state.thread partner),
      msg.id ≠ lost.id := by
    have perm := (kept_gone_perm idxSet (state.thread partner)).map DMMessage.id
    have nodup := perm.nodup_iff.mpr (sound.distinct partner)
    rw [List.map_append, List.nodup_append] at nodup
    intro msg held lost dropped
    exact nodup.2.2 _ (List.mem_map_of_mem held) _ (List.mem_map_of_mem dropped)
  refine ⟨fun other => ?_, fun other => ?_, fun first second msg held also there =>
    sound.apart first second msg (within _ _ held) also (within _ _ there), fun id => ?_,
    fun other => ?_⟩
  · rw [threads]
    split
    · exact (sound.sorted partner).sublist (kept_sublist _ _)
    · exact sound.sorted other
  · rw [threads]
    split
    · exact (sound.distinct partner).sublist ((kept_sublist _ _).map _)
    · exact sound.distinct other
  · show id ∈ state.seenMessageIds \ _ ↔ _
    rw [Finset.mem_sdiff, List.mem_toFinset, List.mem_map, sound.seen]
    constructor
    · intro held
      obtain ⟨⟨other, msg, there, same⟩, spared⟩ := held
      refine ⟨other, msg, ?_, same⟩
      rw [threads]
      split
      · rename_i here
        rw [here] at there
        have either := (kept_gone_perm idxSet (state.thread partner)).mem_iff.mpr there
        rcases List.mem_append.mp either with stays | lost
        · exact stays
        · exact absurd ⟨msg, lost, same⟩ spared
      · exact there
    · intro held
      obtain ⟨other, msg, there, same⟩ := held
      refine ⟨⟨other, msg, within _ _ there, same⟩, fun lost => ?_⟩
      obtain ⟨dropped, gone, equal⟩ := lost
      have old : dropped ∈ state.thread partner :=
        (kept_gone_perm idxSet _).mem_iff.mp (List.mem_append_right _ gone)
      have here : other = partner :=
        sound.apart other partner msg (within _ _ there) dropped old (same.trans equal.symm)
      rw [threads, if_pos here] at there
      exact fresh msg there dropped gone (same.trans equal.symm)
  · show ((state.messages.set partner _).get other).getD [] = _
    rw [OrderedMap.get_set, threads]
    split
    · rfl
    · exact sound.shown other

theorem Sound.spliceAll (sound : state.Sound) (drop : List Item) : (state.spliceAll drop).Sound := by
  unfold SessionState.spliceAll
  induction (dropIdx drop).entries generalizing state with
  | nil => exact sound
  | cons entry rest ih => exact ih (sound.splice entry.2)

theorem Sound.relisted (sound : state.Sound) (conversations : List DMConversation) :
    ({ state with conversations := conversations } : SessionState).Sound :=
  ⟨sound.sorted, sound.distinct, sound.apart, sound.seen, sound.shown⟩

/-- Every structure says what the threads say. -/
structure Consistent (state : SessionState) : Prop extends Sound state where
  listed : state.conversations = recompute state.messagesByPartner

theorem Sound.published (sound : state.Sound) :
    ({ state with conversations := recompute state.messagesByPartner } : SessionState).Consistent :=
  ⟨sound.relisted _, rfl⟩

theorem foldl_consistent
    (acts : ∀ (state : SessionState) cap, state.Consistent → (act state cap).Consistent)
    (caps : List Nat) : ∀ state : SessionState, state.Consistent →
      (caps.foldl act state).Consistent := by
  induction caps with
  | nil => exact fun _ consistent => consistent
  | cons cap rest ih => exact fun state consistent => ih _ (acts state cap consistent)

theorem Consistent.evict (fuel : Nat) : ∀ (state : SessionState) (cap : Nat), state.Consistent →
    (evict fuel state cap).Consistent := by
  induction fuel with
  | zero => exact fun _ _ consistent => consistent
  | succ fuel ih =>
    intro state cap consistent
    unfold SessionState.evict
    split
    · exact consistent
    · dsimp only
      split
      · exact consistent
      · exact foldl_consistent ih _ _ (consistent.toSound.spliceAll _).published

theorem Sound.publish (sound : state.Sound) : state.publish.Consistent :=
  foldl_consistent (Consistent.evict _) _ _ sound.published

/-! ## Runs -/

theorem sorted_perm : (sorted msgs).Perm msgs := List.perm_insertionSort _ _

theorem sorted_ordered : (sorted msgs).Pairwise byAge := by
  have trans : IsTrans DMMessage byAge := ⟨fun _ _ _ => Int.le_trans⟩
  have total : Std.Total byAge := ⟨fun left right => Int.le_total left.createdAt right.createdAt⟩
  exact List.pairwise_insertionSort _ msgs

def inserted (state : SessionState) (msg : DMMessage) : SessionState :=
  { state with
    seenMessageIds := insert msg.id state.seenMessageIds
    messagesByPartner := state.messagesByPartner.set msg.partnerPubkey
      (sorted (state.thread msg.partnerPubkey ++ [msg]))
    messages := state.messages.set msg.partnerPubkey
      (sorted (state.thread msg.partnerPubkey ++ [msg])) }

theorem ingestMessage_eq (msg : DMMessage) : state.ingestMessage msg =
    if msg.id ∈ state.seenMessageIds then state else (state.inserted msg).publish := rfl

theorem step_ingest_seen (seen : msg.id ∈ state.seenMessageIds) :
    step state (.ingest msg) = state := by
  show state.ingestMessage msg = state
  rw [ingestMessage_eq, if_pos seen]

theorem inserted_thread (msg : DMMessage) (partner : Pubkey) :
    (state.inserted msg).thread partner =
      if partner = msg.partnerPubkey then sorted (state.thread partner ++ [msg])
      else state.thread partner := by
  show ((state.messagesByPartner.set _ _).get partner).getD [] = _
  rw [OrderedMap.get_set]
  split
  · rename_i same
    rw [same]
    rfl
  · rfl

theorem mem_inserted {other : DMMessage} :
    other ∈ (state.inserted msg).thread partner ↔
      other ∈ state.thread partner ∨ other = msg ∧ partner = msg.partnerPubkey := by
  rw [inserted_thread]
  split
  · rename_i same
    rw [(sorted_perm _).mem_iff, List.mem_append, List.mem_singleton]
    simp [same]
  · rename_i differs
    simp [differs]

theorem Sound.inserted (sound : state.Sound) (unseen : msg.id ∉ state.seenMessageIds) :
    (state.inserted msg).Sound := by
  have fresh : ∀ partner, ∀ other ∈ state.thread partner, other.id ≠ msg.id :=
    fun partner other held same => unseen ((sound.seen _).mpr ⟨partner, other, held, same⟩)
  refine ⟨fun partner => ?_, fun partner => ?_, fun first second one held two there same => ?_,
    fun id => ?_, fun partner => ?_⟩
  · rw [inserted_thread]
    split
    · exact sorted_ordered _
    · exact sound.sorted partner
  · rw [inserted_thread]
    split
    · rw [((sorted_perm _).map _).nodup_iff, List.map_append, List.nodup_append]
      refine ⟨sound.distinct partner, List.nodup_singleton _, ?_⟩
      intro id held other last equal
      obtain ⟨old, member, is⟩ := List.mem_map.mp held
      refine fresh partner old member ?_
      rw [is, equal]
      simpa using last
    · exact sound.distinct partner
  · rcases mem_inserted.mp held with old | ⟨is, here⟩
    · rcases mem_inserted.mp there with older | ⟨again, there⟩
      · exact sound.apart first second one old two older same
      · exact absurd (same.trans (congrArg _ again)) (fresh first one old)
    · rcases mem_inserted.mp there with older | ⟨again, there⟩
      · exact absurd (same.symm.trans (congrArg _ is)) (fresh second two older)
      · exact here.trans there.symm
  · show id ∈ insert msg.id state.seenMessageIds ↔ _
    rw [Finset.mem_insert, sound.seen]
    constructor
    · intro either
      rcases either with same | ⟨partner, other, held, same⟩
      · exact ⟨msg.partnerPubkey, msg, mem_inserted.mpr (.inr ⟨rfl, rfl⟩), same.symm⟩
      · exact ⟨partner, other, mem_inserted.mpr (.inl held), same⟩
    · intro found
      obtain ⟨partner, other, held, same⟩ := found
      rcases mem_inserted.mp held with old | ⟨is, _⟩
      · exact .inr ⟨partner, other, old, same⟩
      · exact .inl (by rw [← same, is])
  · show ((state.messages.set _ _).get partner).getD [] = _
    rw [OrderedMap.get_set, inserted_thread]
    split
    · rename_i same
      rw [same]
      rfl
    · exact sound.shown partner

/-- A snapshot that may be loaded: it has every message of the threads it replaces, and each id
in it once and in no other thread. -/
structure Covers (state : SessionState) (conversations : OrderedMap Pubkey (List DMMessage)) :
    Prop where
  whole : ∀ partner msgs, conversations.get partner = some msgs →
    ∀ msg ∈ state.thread partner, msg ∈ msgs
  once : (conversations.entries.flatMap fun entry => entry.2.map DMMessage.id).Nodup
  elsewhere : ∀ partner msgs, conversations.get partner = some msgs → ∀ msg ∈ msgs,
    ∀ other, conversations.get other = none → ∀ held ∈ state.thread other, held.id ≠ msg.id

theorem hydrated_thread {entries : List (Pubkey × List DMMessage)}
    (apart : (entries.map Prod.fst).Nodup) (state : SessionState) (other : Pubkey) :
    (entries.foldl hydrateThread state).thread other =
      (((entries.find? fun entry => entry.1 = other).map fun entry => sorted entry.2)).getD
        (state.thread other) := by
  induction entries generalizing state with
  | nil => rfl
  | cons entry rest ih =>
    rw [List.map_cons, List.nodup_cons] at apart
    have first : (state.hydrateThread entry).thread other =
        if other = entry.1 then sorted entry.2 else state.thread other := by
      show ((state.messagesByPartner.set _ _).get other).getD [] = _
      rw [OrderedMap.get_set]
      split <;> rfl
    rw [List.foldl_cons, ih apart.2, first, List.find?_cons]
    by_cases same : other = entry.1
    · have absent : rest.find? (fun later => decide (later.1 = other)) = none := by
        rw [List.find?_eq_none]
        intro later member equal
        have equal : later.1 = other := of_decide_eq_true equal
        exact apart.1 (List.mem_map.mpr ⟨later, member, equal.trans same⟩)
      have found : decide (entry.1 = other) = true := decide_eq_true same.symm
      rw [absent, if_pos same, found]
      rfl
    · have differs : decide (entry.1 = other) = false :=
        decide_eq_false fun equal => same equal.symm
      rw [if_neg same, differs]

def hydrated (state : SessionState) (conversations : OrderedMap Pubkey (List DMMessage)) :
    SessionState :=
  conversations.entries.foldl hydrateThread state

variable {conversations : OrderedMap Pubkey (List DMMessage)}

theorem hydrated_thread_eq (other : Pubkey) :
    (state.hydrated conversations).thread other =
      ((conversations.get other).map sorted).getD (state.thread other) := by
  unfold hydrated OrderedMap.get
  rw [hydrated_thread conversations.nodup, Option.map_map]
  rfl

theorem mem_hydrated {partner : Pubkey} :
    msg ∈ (state.hydrated conversations).thread partner ↔
      (∃ msgs, conversations.get partner = some msgs ∧ msg ∈ msgs) ∨
        conversations.get partner = none ∧ msg ∈ state.thread partner := by
  rw [hydrated_thread_eq]
  cases conversations.get partner with
  | none => simp
  | some msgs => simp [(sorted_perm msgs).mem_iff]

theorem hydrated_seen (id : String) :
    id ∈ (state.hydrated conversations).seenMessageIds ↔ id ∈ state.seenMessageIds ∨
      ∃ partner msgs, conversations.get partner = some msgs ∧ ∃ msg ∈ msgs, msg.id = id := by
  have folded : ∀ (entries : List (Pubkey × List DMMessage)) (state : SessionState),
      id ∈ (entries.foldl hydrateThread state).seenMessageIds ↔ id ∈ state.seenMessageIds ∨
        ∃ entry ∈ entries, ∃ msg ∈ entry.2, msg.id = id := by
    intro entries
    induction entries with
    | nil => simp
    | cons entry rest ih =>
      intro state
      rw [List.foldl_cons, ih]
      show id ∈ state.seenMessageIds ∪ _ ∨ _ ↔ _
      rw [Finset.mem_union, List.mem_toFinset, List.mem_map]
      simp only [List.mem_cons, exists_eq_or_imp, or_assoc]
  unfold hydrated
  rw [folded]
  constructor
  · intro either
    refine either.imp_right fun found => ?_
    obtain ⟨entry, member, msg, held, same⟩ := found
    exact ⟨entry.1, entry.2, OrderedMap.get_eq_some.mpr member, msg, held, same⟩
  · intro either
    refine either.imp_right fun found => ?_
    obtain ⟨partner, msgs, member, msg, held, same⟩ := found
    exact ⟨(partner, msgs), OrderedMap.get_eq_some.mp member, msg, held, same⟩

theorem hydrated_rest : (state.hydrated conversations).followSet = state.followSet ∧
    (state.hydrated conversations).caps = state.caps := by
  unfold hydrated
  induction conversations.entries generalizing state with
  | nil => exact ⟨rfl, rfl⟩
  | cons entry rest ih => exact @ih (state.hydrateThread entry)

theorem hydrated_shown (shown : ∀ partner, (state.messages.get partner).getD [] = state.thread partner)
    (partner : Pubkey) : ((state.hydrated conversations).messages.get partner).getD [] =
      (state.hydrated conversations).thread partner := by
  unfold hydrated
  induction conversations.entries generalizing state with
  | nil => exact shown partner
  | cons entry rest ih =>
    refine @ih (state.hydrateThread entry) fun other => ?_
    show ((state.messages.set _ _).get other).getD [] =
      ((state.messagesByPartner.set _ _).get other).getD []
    rw [OrderedMap.get_set, OrderedMap.get_set]
    split
    · rfl
    · exact shown other

theorem Covers.apart (covers : state.Covers conversations) {partner other : Pubkey}
    {msgs others : List DMMessage} (first : conversations.get partner = some msgs)
    (second : conversations.get other = some others) {also : DMMessage} (held : msg ∈ msgs)
    (there : also ∈ others) (same : msg.id = also.id) : partner = other := by
  by_contra differs
  have symm : Std.Symm (Function.onFun List.Disjoint
      fun entry : Pubkey × List DMMessage => entry.2.map DMMessage.id) :=
    ⟨fun _ _ disjoint => disjoint.symm⟩
  have disjoint := (List.nodup_flatMap.mp covers.once).2.forall (OrderedMap.get_eq_some.mp first)
    (OrderedMap.get_eq_some.mp second) fun equal => differs (Prod.mk.inj equal).1
  exact disjoint (List.mem_map_of_mem held) (same ▸ List.mem_map_of_mem there)

theorem Sound.hydrated (sound : state.Sound) (covers : state.Covers conversations) :
    (state.hydrated conversations).Sound := by
  refine ⟨fun partner => ?_, fun partner => ?_, fun first second one held two there same => ?_,
    fun id => ?_, hydrated_shown sound.shown⟩
  · rw [hydrated_thread_eq]
    cases conversations.get partner with
    | none => exact sound.sorted partner
    | some msgs => exact sorted_ordered msgs
  · rw [hydrated_thread_eq]
    cases loaded : conversations.get partner with
    | none => exact sound.distinct partner
    | some msgs =>
      have nodup := (List.nodup_flatMap.mp covers.once).1 _ (OrderedMap.get_eq_some.mp loaded)
      exact ((sorted_perm msgs).map DMMessage.id).nodup_iff.mpr nodup
  · rcases mem_hydrated.mp held with ⟨msgs, loaded, inside⟩ | ⟨unloaded, old⟩
    · rcases mem_hydrated.mp there with ⟨others, again, also⟩ | ⟨unloaded, old⟩
      · exact covers.apart loaded again inside also same
      · exact absurd same.symm (covers.elsewhere first msgs loaded one inside second unloaded two old)
    · rcases mem_hydrated.mp there with ⟨others, again, also⟩ | ⟨_, older⟩
      · exact absurd same (covers.elsewhere second others again two also first unloaded one old)
      · exact sound.apart first second one old two older same
  · rw [hydrated_seen, sound.seen]
    constructor
    · intro either
      rcases either with ⟨partner, msg, held, same⟩ | ⟨partner, msgs, loaded, msg, held, same⟩
      · refine ⟨partner, msg, mem_hydrated.mpr ?_, same⟩
        cases loaded : conversations.get partner with
        | none => exact .inr ⟨rfl, held⟩
        | some msgs => exact .inl ⟨msgs, rfl, covers.whole partner msgs loaded msg held⟩
      · exact ⟨partner, msg, mem_hydrated.mpr (.inl ⟨msgs, loaded, held⟩), same⟩
    · intro found
      obtain ⟨partner, msg, held, same⟩ := found
      rcases mem_hydrated.mp held with ⟨msgs, loaded, inside⟩ | ⟨_, old⟩
      · exact .inr ⟨partner, msgs, loaded, msg, inside, same⟩
      · exact .inl ⟨partner, msg, old, same⟩

def Loads (state : SessionState) : Move → Prop
  | .hydrate conversations => state.Covers conversations
  | _ => True

def filled (state : SessionState) : Move → SessionState
  | .ingest msg => if msg.id ∈ state.seenMessageIds then state else state.inserted msg
  | .hydrate conversations => state.hydrated conversations
  | .setFollowSet follows => { state with followSet := follows }
  | .evictIfNeeded _ | .observe _ | .unobserve _ => state

def evicting (state : SessionState) : Move → List Nat
  | .evictIfNeeded cap => cap :: state.caps
  | _ => state.caps

def enforced (state : SessionState) : Move → List Nat
  | .ingest msg => if msg.id ∈ state.seenMessageIds then [] else state.caps
  | .hydrate _ => state.caps
  | .evictIfNeeded cap => [cap]
  | .setFollowSet _ | .observe _ | .unobserve _ => []

/-- A move takes no message out of a thread, but for the oldest of partners outside the follow
set, down to a cap. -/
structure Keeps (state : SessionState) (move : Move) (next : SessionState) : Prop where
  filled : ∀ partner, ∀ msg ∈ state.thread partner, msg ∈ (state.filled move).thread partner
  only : ∀ partner, ∀ msg ∈ next.thread partner, msg ∈ (state.filled move).thread partner
  lost : ∀ partner, ∀ msg ∈ (state.filled move).thread partner, msg ∉ next.thread partner →
    ∃ follows, next.followSet = some follows ∧ partner ∉ follows ∧
      (∀ other ∉ follows, ∀ left ∈ next.thread other, msg.createdAt ≤ left.createdAt) ∧
      (evictable follows next.messagesByPartner).length ∈ state.evicting move
  capped : ∀ follows, next.followSet = some follows → ∀ cap ∈ state.enforced move,
    (evictable follows next.messagesByPartner).length ≤ cap

theorem Shrinks.lost {caps : List Nat} {before after : SessionState}
    (shrinks : Shrinks caps before after) {msg : DMMessage} (held : msg ∈ before.thread partner)
    (missing : msg ∉ after.thread partner) :
    ∃ follows, after.followSet = some follows ∧ partner ∉ follows ∧
      (∀ other ∉ follows, ∀ left ∈ after.thread other, msg.createdAt ≤ left.createdAt) ∧
      (evictable follows after.messagesByPartner).length ∈ caps := by
  rcases shrinks with same | ⟨follows, evicted⟩
  · rw [same] at missing
    exact absurd held missing
  · refine ⟨follows, evicted.followSet.trans evicted.known, fun followed => ?_,
      evicted.oldest partner msg held missing, ?_⟩
    · rw [evicted.followed partner followed] at missing
      exact missing held
    · rw [evictable_length]
      exact evicted.left

theorem Shrinks.within {caps : List Nat} (shrinks : Shrinks caps before after)
    (held : msg ∈ after.thread partner) :
    msg ∈ before.thread partner := by
  rcases shrinks with same | ⟨follows, evicted⟩
  · rwa [same] at held
  · exact (evicted.sublist partner).subset held

theorem publish_shrinks (state : SessionState) : Shrinks state.caps
    { state with conversations := recompute state.messagesByPartner } state.publish :=
  foldl_shrinks (evict_shrinks _) state.caps
    { state with conversations := recompute state.messagesByPartner } fun _ => id

theorem publish_le (known : state.publish.followSet = some follows) {cap : Nat}
    (observing : cap ∈ state.caps) :
    (evictable follows state.publish.messagesByPartner).length ≤ cap := by
  rw [evictable_length]
  refine foldl_evict_le state.caps
    { state with conversations := recompute state.messagesByPartner } ?_ cap observing
  rcases publish_shrinks state with same | ⟨_, evicted⟩
  · rw [same] at known
    exact known
  · rw [← known]
    exact evicted.followSet.symm

variable {move : Move}

theorem keeps_publish (into : ∀ partner, ∀ msg ∈ state.thread partner,
      msg ∈ (state.filled move).thread partner)
    (caps : (state.filled move).caps = state.evicting move)
    (enforced : state.enforced move = state.evicting move) :
    Keeps state move (state.filled move).publish where
  filled := into
  only _ _ held := (publish_shrinks (state.filled move)).within held
  lost partner msg held missing := by
    rw [← caps]
    exact (publish_shrinks (state.filled move)).lost held missing
  capped follows known cap member := by
    rw [enforced, ← caps] at member
    exact publish_le known member

theorem keeps_same {next : SessionState} (same : next.messagesByPartner = state.messagesByPartner)
    (filled : (state.filled move).messagesByPartner = state.messagesByPartner)
    (enforced : state.enforced move = []) : Keeps state move next := by
  have threads : ∀ partner, next.thread partner = state.thread partner := by
    intro partner
    unfold thread
    rw [same]
  have all : ∀ partner, (state.filled move).thread partner = state.thread partner := by
    intro partner
    unfold thread
    rw [filled]
  refine ⟨fun partner msg held => by rwa [all], fun partner msg held => by rwa [all, ← threads],
    fun partner msg held missing => ?_, fun follows known cap member => ?_⟩
  · rw [threads, ← all] at missing
    exact absurd held missing
  · rw [enforced] at member
    contradiction

theorem keeps_step (loads : Loads state move) :
    Keeps state move (step state move) := by
  cases move with
  | ingest msg =>
    show Keeps state _ (state.ingestMessage msg)
    rw [ingestMessage_eq]
    by_cases seen : msg.id ∈ state.seenMessageIds
    · rw [if_pos seen]
      refine keeps_same rfl ?_ (if_pos seen)
      show (if _ then _ else _ : SessionState).messagesByPartner = _
      rw [if_pos seen]
    · rw [if_neg seen]
      have filled : state.filled (.ingest msg) = state.inserted msg := if_neg seen
      have keeps : Keeps state (.ingest msg) (state.filled (.ingest msg)).publish := by
        refine keeps_publish (fun partner other held => ?_) ?_ (if_neg seen)
        · rw [filled]
          exact mem_inserted.mpr (.inl held)
        · rw [filled]
          rfl
      rw [filled] at keeps
      exact keeps
  | hydrate conversations =>
    have covers : state.Covers conversations := loads
    have keeps : Keeps state (.hydrate conversations)
        (state.filled (.hydrate conversations)).publish := by
      refine keeps_publish (fun partner msg held => ?_) hydrated_rest.2 rfl
      refine mem_hydrated.mpr ?_
      cases loaded : conversations.get partner with
      | none => exact .inr ⟨rfl, held⟩
      | some msgs => exact .inl ⟨msgs, rfl, covers.whole partner msgs loaded msg held⟩
    exact keeps
  | setFollowSet follows => exact keeps_same rfl rfl rfl
  | observe cap => exact keeps_same rfl rfl rfl
  | unobserve cap => exact keeps_same rfl rfl rfl
  | evictIfNeeded cap =>
    have shrinks := evict_shrinks (state.count + 1) state cap
    refine ⟨fun _ _ held => held, fun _ _ held => shrinks.within held,
      fun _ _ held missing => shrinks.lost held missing, fun follows known other member => ?_⟩
    rw [List.mem_singleton.mp member, evictable_length]
    refine evict_le ?_ cap
    rcases shrinks with same | ⟨_, evicted⟩
    · have known : (evict (state.count + 1) state cap).followSet = some follows := known
      rwa [same] at known
    · rw [← evicted.followSet]
      exact known

theorem consistent_step (consistent : state.Consistent) (loads : Loads state move) :
    (step state move).Consistent := by
  cases move with
  | ingest msg =>
    show (state.ingestMessage msg).Consistent
    rw [ingestMessage_eq]
    split
    · exact consistent
    · rename_i unseen
      exact (consistent.toSound.inserted unseen).publish
  | hydrate conversations => exact (consistent.toSound.hydrated loads).publish
  | setFollowSet follows =>
    exact ⟨⟨consistent.sorted, consistent.distinct, consistent.apart, consistent.seen,
      consistent.shown⟩, consistent.listed⟩
  | evictIfNeeded cap => exact consistent.evict _ _ _
  | observe cap =>
    exact ⟨⟨consistent.sorted, consistent.distinct, consistent.apart, consistent.seen,
      consistent.shown⟩, consistent.listed⟩
  | unobserve cap =>
    exact ⟨⟨consistent.sorted, consistent.distinct, consistent.apart, consistent.seen,
      consistent.shown⟩, consistent.listed⟩

theorem fresh_consistent : fresh.Consistent where
  sorted _ := List.Pairwise.nil
  distinct _ := List.nodup_nil
  apart _ _ _ absurd := nomatch absurd
  seen id := by simp [fresh, thread, OrderedMap.get]
  shown _ := rfl
  listed := rfl

/-- Every session whose snapshots cover what is held when they are loaded. -/
theorem session_consistent
    (reaches : Reaches (fun state move => some (step state move)) Loads fresh state) :
    state.Consistent ∧ ∀ move, Loads state move → Keeps state move (step state move) := by
  have consistent : state.Consistent :=
    reaches.invariant fresh_consistent fun _ _ _ held loads moved => by
      cases moved
      exact consistent_step held loads
  exact ⟨consistent, fun _ => keeps_step⟩

def aMessage (id : String) (createdAt : Int) : DMMessage where
  id := id
  fromPubkey := "a"
  partnerPubkey := "a"
  content := "hi"
  createdAt := createdAt
  scheme := .nip17

def snapshotOf (msgs : List DMMessage) : OrderedMap Pubkey (List DMMessage) :=
  (∅ : OrderedMap Pubkey (List DMMessage)).set "a" msgs

theorem snapshotOf_covers (nodup : (msgs.map DMMessage.id).Nodup)
    (whole : ∀ partner, ∀ msg ∈ state.thread partner, partner = "a" ∧ msg ∈ msgs) :
    state.Covers (snapshotOf msgs) := by
  have loaded : ∀ partner, (snapshotOf msgs).get partner = if partner = "a" then some msgs else none :=
    fun partner => OrderedMap.get_set _ _ _ _
  refine ⟨fun partner others there msg held => ?_, ?_, fun _ _ _ _ _ other unloaded held inside =>
    ?_⟩
  · rw [loaded, if_pos (whole partner msg held).1] at there
    cases there
    exact (whole partner msg held).2
  · show ([("a", msgs)].flatMap _).Nodup
    simpa using nodup
  · rw [loaded, if_pos (whole other held inside).1] at unloaded
    contradiction

/-- A live message, then a snapshot that has it. -/
theorem session_consistent_covered :
    (step (step fresh (.ingest (aMessage "1" 5)))
      (.hydrate (snapshotOf [aMessage "1" 5, aMessage "0" 3]))).Consistent := by
  have covers : (step fresh (.ingest (aMessage "1" 5))).Covers
      (snapshotOf [aMessage "1" 5, aMessage "0" 3]) := by
    refine snapshotOf_covers _ (by decide) fun partner msg held => ?_
    have held : msg ∈ (fresh.inserted (aMessage "1" 5)).thread partner := held
    rcases mem_inserted.mp held with absurd | ⟨is, there⟩
    · contradiction
    · exact ⟨there, by rw [is]; exact List.mem_cons_self⟩
  have executed : exec (fun state move => some (step state move)) fresh
      [.ingest (aMessage "1" 5), .hydrate (snapshotOf [aMessage "1" 5, aMessage "0" 3])] =
        some (step (step fresh (.ingest (aMessage "1" 5)))
          (.hydrate (snapshotOf [aMessage "1" 5, aMessage "0" 3]))) := rfl
  exact (session_consistent (.of_permitted executed
    ⟨trivial, fun _ moved => ⟨by cases moved; exact covers, fun _ _ => trivial⟩⟩)).1

/-- A snapshot that is loaded late drops a live message, and its id stays among those seen: the
message never comes back. -/
theorem late_snapshot_loses :
    ∃ state, exec (fun state move => some (step state move)) fresh
        [.ingest (aMessage "1" 5), .hydrate (snapshotOf [aMessage "0" 3])] = some state ∧
      state.followSet = none ∧
      "1" ∈ state.seenMessageIds ∧ (∀ partner, ∀ msg ∈ state.thread partner, msg.id ≠ "1") ∧
      step state (.ingest (aMessage "1" 5)) = state := by
  have seen : "1" ∈ ((fresh.inserted (aMessage "1" 5)).hydrated
      (snapshotOf [aMessage "0" 3])).seenMessageIds :=
    (hydrated_seen _).mpr (.inl (Finset.mem_insert_self _ _))
  refine ⟨_, rfl, rfl, seen, fun partner msg held same => ?_, step_ingest_seen seen⟩
  have held : msg ∈ ((fresh.inserted (aMessage "1" 5)).hydrated
      (snapshotOf [aMessage "0" 3])).thread partner := held
  have loaded : (snapshotOf [aMessage "0" 3]).get partner =
      if partner = "a" then some [aMessage "0" 3] else none := OrderedMap.get_set _ _ _ _
  rcases mem_hydrated.mp held with ⟨msgs, there, inside⟩ | ⟨unloaded, old⟩
  · rw [loaded] at there
    split at there
    · cases there
      rw [List.mem_singleton.mp inside] at same
      exact absurd same (by decide)
    · contradiction
  · rcases mem_inserted.mp old with absurd | ⟨_, here⟩
    · contradiction
    · have here : partner = "a" := here
      rw [loaded, if_pos here] at unloaded
      contradiction

end SessionState

end NostrWot.Dm
