import NostrWot.Data.Base64
import NostrWot.Data.Property
import NostrWot.Dm.Types
import NostrWot.Vault.PasskeyStore

namespace NostrWot.Dm.Persistence

/-! # A session's messages through encrypted storage

A session is persisted as an object of threads, each row encrypted on its own,
kept as JSON, and loaded into a session that is empty.
-/

open Data Data.Property

structure Message where
  id : Units
  fromPubkey : Units
  partnerPubkey : Units
  content : Units
  createdAt : Int
  scheme : Scheme
  deriving DecidableEq

structure Conversation where
  partnerPubkey : Units
  lastMessageAt : Int
  preview : Units
  messageCount : Nat
  deriving DecidableEq

/-! ## Sessions -/

/-- Every run of white space as one blank; `inside` is whether one has begun. -/
def collapse (inside : Bool) : Units → Units
  | [] => []
  | unit :: rest =>
    if Vault.isTrimmedUnit unit then
      if inside then collapse true rest else 32 :: collapse true rest
    else unit :: collapse false rest

def previewOf (content : Units) : Units :=
  let flat := Vault.trimUnits (collapse false content)
  if flat.length ≤ 80 then flat else flat.take 79 ++ [0x2026]

abbrev Threads : Type := OrderedMap Units (List Message)

structure SessionState where
  messagesByPartner : Threads
  seenMessageIds : Finset Units
  conversations : List Conversation

def sorted (msgs : List Message) : List Message :=
  msgs.insertionSort fun left right => left.createdAt ≤ right.createdAt

def conversation (entry : Units × List Message) : Option Conversation :=
  entry.2.getLast?.map fun last => {
    partnerPubkey := entry.1
    lastMessageAt := last.createdAt
    preview := previewOf last.content
    messageCount := entry.2.length }

/-- The list that every operation computes anew. -/
def recompute (threads : Threads) : List Conversation :=
  (threads.entries.filterMap conversation).insertionSort fun left right =>
    right.lastMessageAt ≤ left.lastMessageAt

namespace SessionState

def fresh : SessionState := ⟨∅, ∅, []⟩

def thread (state : SessionState) (partner : Units) : List Message :=
  (state.messagesByPartner.get partner).getD []

def publish (state : SessionState) : SessionState :=
  { state with conversations := recompute state.messagesByPartner }

def ingestMessage (state : SessionState) (msg : Message) : SessionState :=
  if msg.id ∈ state.seenMessageIds then state
  else publish {
    state with
    seenMessageIds := insert msg.id state.seenMessageIds
    messagesByPartner := state.messagesByPartner.set msg.partnerPubkey
      (sorted (state.thread msg.partnerPubkey ++ [msg])) }

def hydrateThread (state : SessionState) (entry : Units × List Message) : SessionState :=
  { state with
    seenMessageIds := state.seenMessageIds ∪ (entry.2.map Message.id).toFinset
    messagesByPartner := state.messagesByPartner.set entry.1 (sorted entry.2) }

def hydrateMessages (state : SessionState) (conversations : Object (List Message)) : SessionState :=
  publish ((entriesOf conversations).foldl hydrateThread state)

/-- The messages of a thread that eviction keeps, by their places. -/
def kept (idxSet : List Nat) (old : List Message) : List Message :=
  (old.zipIdx.filter fun entry => entry.2 ∉ idxSet).map Prod.fst

def gone (idxSet : List Nat) (old : List Message) : List Message :=
  (old.zipIdx.filter fun entry => entry.2 ∈ idxSet).map Prod.fst

def splice (state : SessionState) (drop : Units × List Nat) : SessionState :=
  let next := kept drop.2 (state.thread drop.1)
  { state with
    seenMessageIds :=
      state.seenMessageIds \ ((gone drop.2 (state.thread drop.1)).map Message.id).toFinset
    messagesByPartner :=
      if next = [] then state.messagesByPartner.delete drop.1
      else state.messagesByPartner.set drop.1 next }

/-- An eviction of some messages, whichever they are. -/
def evict (state : SessionState) (drop : List (Units × List Nat)) : SessionState :=
  publish (drop.foldl splice state)

end SessionState

inductive Reached : SessionState → Prop where
  | fresh : Reached .fresh
  | ingest {state : SessionState} (msg : Message) : Reached state → Reached (state.ingestMessage msg)
  | hydrate {state : SessionState} (conversations : Object (List Message)) :
      Reached state → Reached (state.hydrateMessages conversations)
  | evict {state : SessionState} (drop : List (Units × List Nat)) : Reached state → Reached (state.evict drop)

/-! ## Rows -/

structure Cipher where
  CryptoKey : Type
  encrypt : CryptoKey → List UInt8 → List UInt8 → List UInt8
  decrypt : CryptoKey → List UInt8 → List UInt8 → Option (List UInt8)
  opens : ∀ key iv plaintext, decrypt key iv (encrypt key iv plaintext) = some plaintext

variable (cipher : Cipher) (key : cipher.CryptoKey)

def bytesToBase64 (bytes : List UInt8) : Units := (Base64.btoa bytes).flatMap Units.ofChar

def base64ToBytes (text : Units) : Option (List UInt8) := Base64.atob (Units.scalars text)

/-- `iv` is what `getRandomValues` draws. -/
def encryptToCache (iv : List UInt8) (plaintext : Units) : Units :=
  bytesToBase64 iv ++ 46 :: bytesToBase64 (cipher.encrypt key iv (Units.encode plaintext))

def decryptFromCache (blob : Units) : Option Units :=
  match blob.splitOn 46 with
  | [first, second] => do
      let iv ← base64ToBytes first
      let ct ← base64ToBytes second
      let pt ← cipher.decrypt key iv ct
      return Units.decode pt
  | _ => none

def openRow (row : Message) : Option Message :=
  (decryptFromCache cipher key row.content).map fun plain => { row with content := plain }

/-! ## Storage -/

/-- The snapshot that `persistDMSession` saves. -/
def snapshot (threads : Threads) : Object (List Message) := rebuild (fun _ msgs => msgs) threads.entries

def encryptThread (draw : Units → Nat → List UInt8) (partner : Units) (msgs : List Message) :
    List Message :=
  msgs.mapIdx fun idx msg =>
    { msg with content := encryptToCache cipher key (draw partner idx) msg.content }

/-- `save` of the storage with encryption, as far as its inner `save`. -/
def wrapped (draw : Units → Nat → List UInt8) (conversations : Object (List Message)) :
    Object (List Message) :=
  rebuild (encryptThread cipher key draw) (entriesOf conversations)

/-- `load` of the storage with encryption, of what its inner `load` gives. -/
def unwrapped (raw : Object (List Message)) : Object (List Message) :=
  rebuild (fun _ blobs => blobs.filterMap (openRow cipher key)) (entriesOf raw)

variable (numbers : JsonValue.NumberFormat Int)

def schemeText : Scheme → Units
  | .nip04 => Units.ofString "nip04"
  | .nip17 => Units.ofString "nip17"

def messageJson (msg : Message) : JsonValue Int :=
  .object [(Units.ofString "id", .text msg.id), (Units.ofString "fromPubkey", .text msg.fromPubkey),
    (Units.ofString "partnerPubkey", .text msg.partnerPubkey),
    (Units.ofString "content", .text msg.content), (Units.ofString "createdAt", .number msg.createdAt),
    (Units.ofString "scheme", .text (schemeText msg.scheme))]

/-- A row of the shape that the storage declares. -/
def messageOf (value : JsonValue Int) : Option Message := do
  let id ← value.textField "id"
  let fromPubkey ← value.textField "fromPubkey"
  let partnerPubkey ← value.textField "partnerPubkey"
  let content ← value.textField "content"
  let createdAt ← match value.field "createdAt" with
    | some (.number value) => some value
    | _ => none
  let scheme ← value.textField "scheme"
  if scheme = schemeText .nip04 then return ⟨id, fromPubkey, partnerPubkey, content, createdAt, .nip04⟩
  else if scheme = schemeText .nip17 then
    return ⟨id, fromPubkey, partnerPubkey, content, createdAt, .nip17⟩
  else none

def threadJson (msgs : List Message) : JsonValue Int := .array (msgs.map messageJson)

def threadOf : JsonValue Int → Option (List Message)
  | .array items => items.mapM messageOf
  | _ => none

def localSave (conversations : Object (List Message)) : Units :=
  JsonValue.stringify numbers
    (.object ((entriesOf conversations).map fun entry => (entry.1, threadJson entry.2)))

/-- `load` of the storage in `localStorage`, for items of the declared shape. -/
def localLoad (item : Option Units) : Object (List Message) :=
  match (item.filter fun text => text ≠ []).bind (JsonValue.parse numbers) with
  | some ⟨.object fields, _⟩ =>
    match fields.mapM fun field => (threadOf field.2).map fun msgs => (field.1, msgs) with
    | some entries => OrderedMap.setAll ∅ entries
    | none => ∅
  | _ => ∅

def reloaded (draw : Units → Nat → List UInt8) (state : SessionState) : Object (List Message) :=
  unwrapped cipher key (localLoad numbers
    (some (localSave numbers (wrapped cipher key draw (snapshot state.messagesByPartner)))))

def restored (draw : Units → Nat → List UInt8) (state : SessionState) : SessionState :=
  SessionState.fresh.hydrateMessages (reloaded cipher key numbers draw state)

/-! ## What a row becomes -/

def Message.through (msg : Message) : Message := { msg with content := Units.decode (Units.encode msg.content) }

theorem base64ToBytes_bytesToBase64 (bytes : List UInt8) :
    base64ToBytes (bytesToBase64 bytes) = some bytes := by
  rw [base64ToBytes, bytesToBase64, Units.scalars_ofChars, Base64.atob_btoa]

theorem dot_fresh (bytes : List UInt8) : 46 ∉ bytesToBase64 bytes := by
  intro among
  obtain ⟨char, member, among⟩ := List.mem_flatMap.mp among
  have small := Base64.small_of_mem_btoa member
  rw [Units.ofChar, if_pos (by omega), List.mem_singleton] at among
  have value := congrArg UInt16.toNat among
  rw [UInt16.toNat_ofNat', Nat.mod_eq_of_lt (by omega)] at value
  apply Base64.ne_dot_of_mem_btoa member
  rw [← Char.ofNat_toNat char, ← value]
  rfl

theorem decryptFromCache_encryptToCache (iv : List UInt8) (plaintext : Units) :
    decryptFromCache cipher key (encryptToCache cipher key iv plaintext) =
      some (Units.decode (Units.encode plaintext)) := by
  unfold decryptFromCache encryptToCache
  rw [List.splitOn_append_cons_self_of_not_mem (dot_fresh _), List.splitOn_eq_singleton (dot_fresh _)]
  simp only [base64ToBytes_bytesToBase64, bind, Option.bind, cipher.opens]
  rfl

theorem openRow_encrypted (iv : Nat → List UInt8) (msgs : List Message) :
    (msgs.mapIdx fun idx msg =>
      { msg with content := encryptToCache cipher key (iv idx) msg.content }).filterMap
        (openRow cipher key) = msgs.map Message.through := by
  induction msgs generalizing iv with
  | nil => rfl
  | cons msg rest ih =>
    have first : openRow cipher key
        { msg with content := encryptToCache cipher key (iv 0) msg.content } = some msg.through := by
      rw [openRow, decryptFromCache_encryptToCache]
      rfl
    rw [List.mapIdx_cons, List.filterMap_cons, first, List.map_cons]
    exact congrArg _ (ih fun idx => iv (idx + 1))

/-! ## JSON -/

theorem messageOf_messageJson (msg : Message) : messageOf (messageJson msg) = some msg := by
  obtain ⟨id, fromPubkey, partnerPubkey, content, createdAt, scheme⟩ := msg
  cases scheme <;> rfl

variable (msgs : List Message)

theorem threadOf_threadJson : threadOf (threadJson msgs) = some msgs := by
  unfold threadOf threadJson
  dsimp only
  induction msgs with
  | nil => rfl
  | cons msg rest ih =>
    rw [List.map_cons, List.mapM_cons, messageOf_messageJson, ih]
    rfl

theorem unique_threadJson : (threadJson msgs).Unique := by
  apply JsonValue.uniqueItems_of_mem
  intro item among
  obtain ⟨msg, -, rfl⟩ := List.mem_map.mp among
  refine ⟨?_, trivial, trivial, trivial, trivial, trivial, trivial, trivial⟩
  simp only [List.map_cons, List.map_nil]
  decide

theorem entries_setAll {α : Type} {entries : List (Units × α)} (apart : (entries.map Prod.fst).Nodup) :
    (OrderedMap.setAll ∅ entries).entries = entries := by
  have from_ : ∀ (entries : List (Units × α)) (map : OrderedMap Units α), (entries.map Prod.fst).Nodup →
      (∀ entry ∈ entries, map.get entry.1 = none) →
      (map.setAll entries).entries = map.entries ++ entries := by
    intro entries
    induction entries with
    | nil => exact fun map _ _ => (List.append_nil _).symm
    | cons entry rest ih =>
      intro map apart fresh
      obtain ⟨other, apart⟩ := List.nodup_cons.mp apart
      obtain ⟨first, later⟩ := List.forall_mem_cons.mp fresh
      have step : map.setAll (entry :: rest) = (map.set entry.1 entry.2).setAll rest := rfl
      rw [step, ih _ apart, OrderedMap.entries_set_of_none first, List.append_assoc]
      · rfl
      · intro next among
        rw [OrderedMap.get_set, if_neg]
        · exact later next among
        · intro same
          exact other (same ▸ List.mem_map_of_mem among)
  exact from_ entries ∅ apart fun _ _ => rfl

theorem localLoad_localSave (conversations : Object (List Message)) :
    (localLoad numbers (some (localSave numbers conversations))).entries = entriesOf conversations := by
  have apart := entriesOf_nodup conversations
  have names : (((entriesOf conversations).map fun entry => (entry.1, threadJson entry.2)).map
      Prod.fst).Nodup := by
    rw [List.map_map]
    exact apart
  have unique : (JsonValue.object
      ((entriesOf conversations).map fun entry => (entry.1, threadJson entry.2))).Unique := by
    refine ⟨names, ?_⟩
    generalize entriesOf conversations = entries
    induction entries with
    | nil => trivial
    | cons entry rest ih => exact ⟨unique_threadJson entry.2, ih⟩
  have parsed := JsonValue.parse_stringify numbers ⟨_, unique⟩
  have filled : localSave numbers conversations ≠ [] := by
    intro empty
    obtain ⟨unit, more, begins, -⟩ := JsonValue.stringify_begins numbers (JsonValue.object
      ((entriesOf conversations).map fun entry => (entry.1, threadJson entry.2)))
    rw [localSave, begins] at empty
    contradiction
  have read : ((entriesOf conversations).map fun entry => (entry.1, threadJson entry.2)).mapM
      (fun field => (threadOf field.2).map fun msgs => (field.1, msgs)) =
        some (entriesOf conversations) := by
    generalize entriesOf conversations = entries
    induction entries with
    | nil => rfl
    | cons entry rest ih =>
      rw [List.map_cons, List.mapM_cons, threadOf_threadJson, ih]
      rfl
  unfold localLoad
  rw [Option.filter_some, if_pos (by simpa using filled), Option.bind_some, localSave, parsed]
  dsimp only
  rw [read]
  exact entries_setAll apart

/-! ## The stages, composed -/

def isOwn {α : Type} (entry : Units × α) : Bool := entry.1 ≠ PROTO

theorem filter_map_own {α β : Type} (change : Units → α → β) (entries : List (Units × α)) :
    (entries.map fun entry => (entry.1, change entry.1 entry.2)).filter isOwn =
      (entries.filter isOwn).map fun entry => (entry.1, change entry.1 entry.2) := by
  rw [List.filter_map]
  rfl

theorem entriesOf_rebuild {α β : Type} (change : Units → α → β) {entries : List (Units × α)}
    (apart : (entries.map Prod.fst).Nodup) :
    (entriesOf (rebuild change entries)).Perm
      ((entries.filter isOwn).map fun entry => (entry.1, change entry.1 entry.2)) := by
  have entries_ := rebuild_entries change apart
  exact (entriesOf_perm _).trans (List.Perm.of_eq entries_)

variable {cipher} {key} {numbers} {draw : Units → Nat → List UInt8} {state : SessionState}

theorem entriesOf_reloaded (cipher : Cipher) (key : cipher.CryptoKey) : (entriesOf (reloaded cipher key numbers draw state)).Perm
    ((state.messagesByPartner.entries.filter isOwn).map fun entry =>
      (entry.1, entry.2.map Message.through)) := by
  have kept := entriesOf_rebuild (fun _ (msgs : List Message) => msgs) state.messagesByPartner.nodup
  have sent := entriesOf_rebuild (encryptThread cipher key draw)
    (entriesOf_nodup (snapshot state.messagesByPartner))
  have read := entriesOf_rebuild (fun _ (blobs : List Message) => blobs.filterMap (openRow cipher key))
    (entriesOf_nodup (localLoad numbers
      (some (localSave numbers (wrapped cipher key draw (snapshot state.messagesByPartner))))))
  have stored := (entriesOf_perm (localLoad numbers
    (some (localSave numbers (wrapped cipher key draw (snapshot state.messagesByPartner)))))).trans
      (List.Perm.of_eq (localLoad_localSave numbers _))
  have twice : ∀ entries : List (Units × List Message),
      (entries.filter isOwn).filter isOwn = entries.filter isOwn := fun entries => by
    rw [List.filter_filter]
    simp
  have sent := (stored.trans sent).filter isOwn
  rw [filter_map_own (encryptThread cipher key draw), twice] at sent
  have kept := kept.filter isOwn
  rw [filter_map_own (fun _ (msgs : List Message) => msgs), twice] at kept
  apply (read.trans ((sent.map _).trans ?_))
  rw [List.map_map]
  apply ((kept.map _).trans ?_)
  rw [List.map_map]
  apply List.Perm.of_eq
  apply List.map_congr_left
  intro entry _
  exact congrArg (Prod.mk entry.1) (openRow_encrypted cipher key (draw entry.1) entry.2)

theorem foldl_hydrateThread {entries : List (Units × List Message)} {base : SessionState}
    (apart : (entries.map Prod.fst).Nodup)
    (fresh : ∀ entry ∈ entries, base.messagesByPartner.get entry.1 = none) :
    (entries.foldl SessionState.hydrateThread base).messagesByPartner.entries =
        base.messagesByPartner.entries ++ entries.map (fun entry => (entry.1, sorted entry.2)) ∧
      ∀ id, id ∈ (entries.foldl SessionState.hydrateThread base).seenMessageIds ↔
        id ∈ base.seenMessageIds ∨ ∃ entry ∈ entries, ∃ msg ∈ entry.2, msg.id = id := by
  induction entries generalizing base with
  | nil => simp
  | cons entry rest ih =>
    obtain ⟨other, apart⟩ := List.nodup_cons.mp apart
    obtain ⟨first, later⟩ := List.forall_mem_cons.mp fresh
    have next : ∀ entry' ∈ rest,
        (base.hydrateThread entry).messagesByPartner.get entry'.1 = none := by
      intro entry' among
      rw [SessionState.hydrateThread, OrderedMap.get_set, if_neg]
      · exact later entry' among
      · intro same
        exact other (same ▸ List.mem_map_of_mem among)
    obtain ⟨entries_, ids⟩ := ih apart next
    rw [List.foldl_cons]
    refine ⟨?_, fun id => ?_⟩
    · rw [entries_, SessionState.hydrateThread, OrderedMap.entries_set_of_none first,
        List.append_assoc]
      rfl
    · rw [ids, SessionState.hydrateThread]
      simp [or_assoc]

theorem hydrated_entries (conversations : Object (List Message)) :
    (SessionState.fresh.hydrateMessages conversations).messagesByPartner.entries =
      (entriesOf conversations).map fun entry => (entry.1, sorted entry.2) :=
  (@foldl_hydrateThread _ SessionState.fresh (entriesOf_nodup conversations) fun _ _ => rfl).1

theorem hydrated_seen (conversations : Object (List Message)) (id : Units) :
    id ∈ (SessionState.fresh.hydrateMessages conversations).seenMessageIds ↔
      ∃ entry ∈ entriesOf conversations, ∃ msg ∈ entry.2, msg.id = id := by
  have seen :=
    (@foldl_hydrateThread _ SessionState.fresh (entriesOf_nodup conversations) fun _ _ => rfl).2 id
  exact seen.trans (or_iff_right (Finset.notMem_empty id))

theorem hydrated_conversations (conversations : Object (List Message)) :
    (state.hydrateMessages conversations).conversations =
      recompute (state.hydrateMessages conversations).messagesByPartner := rfl

theorem entries_restored :
    (restored cipher key numbers draw state).messagesByPartner.entries.Perm
      ((state.messagesByPartner.entries.filter isOwn).map fun entry =>
        (entry.1, sorted (entry.2.map Message.through))) := by
  have sent : ((entriesOf (reloaded cipher key numbers draw state)).map fun entry =>
      (entry.1, sorted entry.2)).Perm _ := (entriesOf_reloaded cipher key).map _
  rw [List.map_map] at sent
  rw [restored, hydrated_entries]
  exact sent

theorem seen_restored (id : Units) : id ∈ (restored cipher key numbers draw state).seenMessageIds ↔
    ∃ entry ∈ state.messagesByPartner.entries, entry.1 ≠ PROTO ∧ ∃ msg ∈ entry.2, msg.id = id := by
  rw [restored, hydrated_seen]
  simp only [(entriesOf_reloaded cipher key).mem_iff, List.mem_map, List.mem_filter, isOwn]
  constructor
  · rintro ⟨_, ⟨entry, ⟨among, own⟩, rfl⟩, msg, held, named⟩
    obtain ⟨before, sent, rfl⟩ := List.mem_map.mp held
    exact ⟨entry, among, by simpa using own, before, sent, named⟩
  · rintro ⟨entry, among, own, msg, held, named⟩
    exact ⟨_, ⟨entry, ⟨among, by simpa using own⟩, rfl⟩, msg.through, List.mem_map_of_mem held, named⟩

theorem get_restored (partner : Units) :
    (restored cipher key numbers draw state).messagesByPartner.get partner =
      if partner = PROTO then none
      else (state.messagesByPartner.get partner).map fun msgs => sorted (msgs.map Message.through) := by
  ext msgs
  rw [OrderedMap.get_eq_some, entries_restored.mem_iff]
  simp only [List.mem_map, List.mem_filter, isOwn]
  constructor
  · rintro ⟨entry, ⟨among, own⟩, same⟩
    cases same
    rw [if_neg (by simpa using own), OrderedMap.get_eq_some.mpr among]
    rfl
  · intro found
    split at found
    · contradiction
    · next own =>
      obtain ⟨before, held, rfl⟩ := Option.map_eq_some_iff.mp found
      exact ⟨(partner, before), ⟨OrderedMap.get_eq_some.mp held, by simpa using own⟩, rfl⟩

theorem thread_restored (partner : Units) : (restored cipher key numbers draw state).thread partner =
    if partner = PROTO then [] else sorted ((state.thread partner).map Message.through) := by
  rw [SessionState.thread, get_restored]
  split
  · rfl
  · unfold SessionState.thread
    cases state.messagesByPartner.get partner with
    | none => rfl
    | some msgs => rfl

/-! ## What holds of every session -/

abbrev byAge (left right : Message) : Prop := left.createdAt ≤ right.createdAt

/-- Every thread is in the order of its times. -/
def Ordered (threads : Threads) : Prop := ∀ entry ∈ threads.entries, entry.2.Pairwise byAge

structure SessionState.Consistent (state : SessionState) : Prop where
  ordered : Ordered state.messagesByPartner
  current : state.conversations = recompute state.messagesByPartner

theorem sorted_ordered : (sorted msgs).Pairwise byAge := by
  have trans : IsTrans Message byAge := ⟨fun _ _ _ => Int.le_trans⟩
  have total : Std.Total byAge := ⟨fun left right => Int.le_total left.createdAt right.createdAt⟩
  exact List.pairwise_insertionSort _ msgs

theorem sorted_eq {msgs : List Message} (ordered : msgs.Pairwise byAge) : sorted msgs = msgs :=
  ordered.insertionSort_eq

theorem kept_sublist (idxSet : List Nat) (old : List Message) :
    (SessionState.kept idxSet old).Sublist old := by
  have part := (List.filter_sublist (l := old.zipIdx)
    (p := fun entry : Message × Nat => entry.2 ∉ idxSet)).map Prod.fst
  rw [List.zipIdx_map_fst] at part
  exact part

theorem Ordered.set {threads : Threads} (ordered : Ordered threads) (partner : Units)
    {msgs : List Message} (new : msgs.Pairwise byAge) : Ordered (threads.set partner msgs) := by
  intro entry among
  obtain ⟨-, same⟩ | ⟨-, before⟩ := OrderedMap.mem_set.mp among
  · exact same ▸ new
  · exact ordered entry before

theorem Ordered.delete {threads : Threads} (ordered : Ordered threads) (partner : Units) :
    Ordered (threads.delete partner) :=
  fun entry among => ordered entry (List.mem_filter.mp among).1

theorem Ordered.thread (ordered : Ordered state.messagesByPartner) (partner : Units) :
    (state.thread partner).Pairwise byAge := by
  unfold SessionState.thread
  cases held : state.messagesByPartner.get partner with
  | none => exact List.Pairwise.nil
  | some msgs => exact ordered _ (OrderedMap.get_eq_some.mp held)

theorem Ordered.foldl_hydrateThread {entries : List (Units × List Message)}
    (ordered : Ordered state.messagesByPartner) :
    Ordered (entries.foldl SessionState.hydrateThread state).messagesByPartner := by
  induction entries generalizing state with
  | nil => exact ordered
  | cons entry rest ih => exact ih (ordered.set entry.1 (sorted_ordered entry.2))

theorem Ordered.splice (ordered : Ordered state.messagesByPartner) (drop : Units × List Nat) :
    Ordered (state.splice drop).messagesByPartner := by
  unfold SessionState.splice
  dsimp only
  split
  · exact ordered.delete drop.1
  · exact ordered.set drop.1 ((ordered.thread drop.1).sublist (kept_sublist drop.2 _))

theorem Ordered.foldl_splice {drops : List (Units × List Nat)}
    (ordered : Ordered state.messagesByPartner) :
    Ordered (drops.foldl SessionState.splice state).messagesByPartner := by
  induction drops generalizing state with
  | nil => exact ordered
  | cons drop rest ih => exact ih (ordered.splice drop)

theorem Reached.consistent (reached : Reached state) : state.Consistent := by
  induction reached with
  | fresh => exact ⟨fun _ among => absurd among List.not_mem_nil, rfl⟩
  | ingest msg _ ih =>
    unfold SessionState.ingestMessage
    split
    · exact ih
    · exact ⟨Ordered.set ih.ordered msg.partnerPubkey (sorted_ordered _), rfl⟩
  | hydrate conversations _ ih => exact ⟨Ordered.foldl_hydrateThread ih.ordered, rfl⟩
  | evict drop _ ih => exact ⟨Ordered.foldl_splice ih.ordered, rfl⟩

/-! ## The round trip -/

structure RoundTrips (state back : SessionState) : Prop where
  threads : ∀ partner, back.thread partner = state.thread partner
  seen : back.seenMessageIds = state.seenMessageIds
  conversations : back.conversations.Perm state.conversations
  times : back.conversations.map Conversation.lastMessageAt =
    state.conversations.map Conversation.lastMessageAt

/-- Every message is under a name that an object can be given, its text comes back from its
bytes, and the ids seen are those of the messages held. -/
structure Storable (state : SessionState) : Prop where
  own : ∀ entry ∈ state.messagesByPartner.entries, entry.2 ≠ [] → entry.1 ≠ PROTO
  texts : ∀ entry ∈ state.messagesByPartner.entries, ∀ msg ∈ entry.2,
    Units.isWellFormed msg.content ∧ msg.content.head? ≠ some 0xFEFF
  seen : ∀ id, id ∈ state.seenMessageIds ↔
    ∃ entry ∈ state.messagesByPartner.entries, ∃ msg ∈ entry.2, msg.id = id

theorem through_eq_iff (msg : Message) : msg.through = msg ↔
    Units.isWellFormed msg.content ∧ msg.content.head? ≠ some 0xFEFF := by
  rw [← Units.decode_encode_iff, Message.through]
  constructor
  · exact fun same => congrArg Message.content same
  · intro same
    rw [same]

theorem map_through_eq_iff : msgs.map Message.through = msgs ↔
    ∀ msg ∈ msgs, Units.isWellFormed msg.content ∧ msg.content.head? ≠ some 0xFEFF := by
  induction msgs with
  | nil => simp
  | cons msg rest ih => rw [List.map_cons, List.cons_eq_cons, through_eq_iff, ih, List.forall_mem_cons]

theorem sorted_through {msgs : List Message} (ordered : msgs.Pairwise byAge) :
    sorted (msgs.map Message.through) = msgs.map Message.through :=
  sorted_eq (List.pairwise_map.mpr ordered)

theorem recompute_ordered (threads : Threads) : (recompute threads).Pairwise
    fun left right => right.lastMessageAt ≤ left.lastMessageAt := by
  have trans : IsTrans Conversation fun left right => right.lastMessageAt ≤ left.lastMessageAt :=
    ⟨fun _ _ _ first second => Int.le_trans second first⟩
  have total : Std.Total fun (left right : Conversation) => right.lastMessageAt ≤ left.lastMessageAt :=
    ⟨fun left right => Int.le_total right.lastMessageAt left.lastMessageAt⟩
  exact List.pairwise_insertionSort _ _

theorem times_eq {left right : Threads} (same : (recompute left).Perm (recompute right)) :
    (recompute left).map Conversation.lastMessageAt = (recompute right).map Conversation.lastMessageAt := by
  apply (same.map _).eq_of_pairwise (fun _ _ _ _ less more => Int.le_antisymm more less)
  · exact List.pairwise_map.mpr (recompute_ordered left)
  · exact List.pairwise_map.mpr (recompute_ordered right)

theorem conversation_eq_none {entry : Units × List Message} :
    conversation entry = none ↔ entry.2 = [] := by
  rw [conversation, Option.map_eq_none_iff, List.getLast?_eq_none_iff]

theorem filterMap_conversation_own {entries : List (Units × List Message)}
    (own : ∀ entry ∈ entries, entry.2 ≠ [] → entry.1 ≠ PROTO) :
    (entries.filter isOwn).filterMap conversation = entries.filterMap conversation := by
  rw [List.filterMap_filter]
  apply List.filterMap_congr
  intro entry among
  split
  · rfl
  · next other =>
    have empty : entry.2 = [] := by
      by_contra filled
      exact other (by simpa [isOwn] using own entry among filled)
    exact (conversation_eq_none.mpr empty).symm

theorem mem_entries_thread {entry : Units × List Message}
    (among : entry ∈ state.messagesByPartner.entries) : state.thread entry.1 = entry.2 := by
  rw [SessionState.thread, OrderedMap.get_eq_some.mpr among]
  rfl

theorem roundTrips_iff (consistent : state.Consistent) :
    RoundTrips state (restored cipher key numbers draw state) ↔ Storable state := by
  have back : ∀ entry ∈ state.messagesByPartner.entries,
      (restored cipher key numbers draw state).thread entry.1 =
        if entry.1 = PROTO then [] else entry.2.map Message.through := by
    intro entry among
    rw [thread_restored, mem_entries_thread among, sorted_through (consistent.ordered entry among)]
  constructor
  · intro trip
    have same : ∀ entry ∈ state.messagesByPartner.entries,
        (if entry.1 = PROTO then [] else entry.2.map Message.through) = entry.2 := fun entry among =>
      (back entry among).symm.trans ((trip.threads entry.1).trans (mem_entries_thread among))
    have own : ∀ entry ∈ state.messagesByPartner.entries, entry.2 ≠ [] → entry.1 ≠ PROTO := by
      intro entry among filled proto
      have same := same entry among
      rw [if_pos proto] at same
      exact filled same.symm
    constructor
    · exact own
    · intro entry among msg held
      have same := same entry among
      rw [if_neg (own entry among (List.ne_nil_of_mem held))] at same
      exact (map_through_eq_iff entry.2).mp same msg held
    · intro id
      rw [← trip.seen, seen_restored]
      constructor
      · rintro ⟨entry, among, -, held⟩
        exact ⟨entry, among, held⟩
      · rintro ⟨entry, among, msg, held, named⟩
        exact ⟨entry, among, own entry among (List.ne_nil_of_mem held), msg, held, named⟩
  · intro storable
    have whole : ∀ entry ∈ state.messagesByPartner.entries, entry.2.map Message.through = entry.2 :=
      fun entry among => (map_through_eq_iff entry.2).mpr (storable.texts entry among)
    have held : (restored cipher key numbers draw state).messagesByPartner.entries.Perm
        (state.messagesByPartner.entries.filter isOwn) := by
      refine entries_restored.trans (List.Perm.of_eq ?_)
      refine (List.map_congr_left fun entry among => ?_).trans (List.map_id _)
      have among := (List.mem_filter.mp among).1
      rw [whole entry among, sorted_eq (consistent.ordered entry among)]
      rfl
    have listed := (held.filterMap conversation).trans
      (List.Perm.of_eq (filterMap_conversation_own storable.own))
    have conversations : (recompute (restored cipher key numbers draw state).messagesByPartner).Perm
        (recompute state.messagesByPartner) :=
      (List.perm_insertionSort _ _).trans (listed.trans (List.perm_insertionSort _ _).symm)
    have shown : (restored cipher key numbers draw state).conversations =
        recompute (restored cipher key numbers draw state).messagesByPartner :=
      hydrated_conversations _
    constructor
    · intro partner
      rw [thread_restored]
      cases found : state.messagesByPartner.get partner with
      | none => simp [SessionState.thread, found, sorted]
      | some msgs =>
        have among := OrderedMap.get_eq_some.mp found
        have thread : state.thread partner = msgs := mem_entries_thread among
        rw [thread, whole _ among, sorted_eq (consistent.ordered _ among)]
        split
        · next proto =>
          by_contra filled
          exact storable.own _ among (Ne.symm filled) proto
        · rfl
    · ext id
      rw [seen_restored, storable.seen]
      constructor
      · rintro ⟨entry, among, -, held⟩
        exact ⟨entry, among, held⟩
      · rintro ⟨entry, among, msg, held, named⟩
        exact ⟨entry, among, storable.own entry among (List.ne_nil_of_mem held), msg, held, named⟩
    · rw [shown, consistent.current]
      exact conversations
    · rw [shown, consistent.current]
      exact times_eq conversations

/-! ## Rows that do not decrypt -/

def rowsOf (object : Object (List Message)) (partner : Units) : List Message := (object.get partner).getD []

theorem rowsOf_unwrapped (raw : Object (List Message)) (partner : Units) :
    rowsOf (unwrapped cipher key raw) partner =
      if partner = PROTO then [] else (rowsOf raw partner).filterMap (openRow cipher key) := by
  have entries_ := rebuild_entries (fun _ (blobs : List Message) => blobs.filterMap (openRow cipher key))
    (entriesOf_nodup raw)
  have held : (unwrapped cipher key raw).get partner = if partner = PROTO then none
      else (raw.get partner).map fun blobs => blobs.filterMap (openRow cipher key) := by
    ext msgs
    rw [OrderedMap.get_eq_some, unwrapped, entries_]
    simp only [List.mem_map, List.mem_filter, (entriesOf_perm raw).mem_iff]
    constructor
    · rintro ⟨entry, ⟨among, own⟩, same⟩
      cases same
      rw [if_neg (by simpa using own), OrderedMap.get_eq_some.mpr among]
      rfl
    · intro found
      split at found
      · contradiction
      · next own =>
        obtain ⟨before, held, rfl⟩ := Option.map_eq_some_iff.mp found
        exact ⟨(partner, before), ⟨OrderedMap.get_eq_some.mp held, by simpa using own⟩, rfl⟩
  rw [rowsOf, held]
  split
  · rfl
  · unfold rowsOf
    cases raw.get partner with
    | none => rfl
    | some rows => rfl

theorem rows_iff (raw : Object (List Message)) :
    (∀ partner, rowsOf (unwrapped cipher key raw) partner =
        (rowsOf raw partner).filterMap (openRow cipher key)) ↔
      ∀ row ∈ rowsOf raw PROTO, openRow cipher key row = none := by
  constructor
  · intro kept
    have none_ := kept PROTO
    rw [rowsOf_unwrapped, if_pos rfl] at none_
    exact List.filterMap_eq_nil_iff.mp none_.symm
  · intro lost partner
    rw [rowsOf_unwrapped]
    split
    · next proto => exact (List.filterMap_eq_nil_iff.mpr (proto ▸ lost)).symm
    · rfl

/-! ## Persistence -/

/-- A cipher that leaves every text as it is. -/
def plainCipher : Cipher where
  CryptoKey := Unit
  encrypt _ _ plaintext := plaintext
  decrypt _ _ ciphertext := some ciphertext
  opens _ _ _ := rfl

def note (partner content : Units) : Message :=
  ⟨[49], [97], partner, content, 5, .nip17⟩

theorem storable_ingest_iff (msg : Message) : Storable (SessionState.fresh.ingestMessage msg) ↔
    msg.partnerPubkey ≠ PROTO ∧ Units.isWellFormed msg.content ∧ msg.content.head? ≠ some 0xFEFF := by
  have entries_ : (SessionState.fresh.ingestMessage msg).messagesByPartner.entries =
      [(msg.partnerPubkey, [msg])] := rfl
  have ids : ∀ id, id ∈ (SessionState.fresh.ingestMessage msg).seenMessageIds ↔ id = msg.id := by
    intro id
    exact (Finset.mem_insert).trans (or_iff_left (Finset.notMem_empty id))
  constructor
  · intro storable
    have among : (msg.partnerPubkey, [msg]) ∈
        (SessionState.fresh.ingestMessage msg).messagesByPartner.entries := by
      rw [entries_]
      exact List.mem_singleton_self _
    exact ⟨storable.own _ among (List.cons_ne_nil msg []),
      storable.texts _ among msg (List.mem_singleton_self msg)⟩
  · intro good
    constructor
    · rw [entries_]
      simpa using good.1
    · rw [entries_]
      simpa using good.2
    · intro id
      rw [ids, entries_]
      simp [eq_comm]

def Lost (msg : Message) : Prop :=
  Reached (SessionState.fresh.ingestMessage msg) ∧
    ¬ RoundTrips (SessionState.fresh.ingestMessage msg)
      (restored plainCipher () integerFormat (fun _ _ => []) (SessionState.fresh.ingestMessage msg))

theorem lost_of {msg : Message} (bad : ¬ (msg.partnerPubkey ≠ PROTO ∧
    Units.isWellFormed msg.content ∧ msg.content.head? ≠ some 0xFEFF)) : Lost msg := by
  have reached : Reached (SessionState.fresh.ingestMessage msg) := .ingest msg .fresh
  refine ⟨reached, fun trip => bad ?_⟩
  exact (storable_ingest_iff msg).mp ((roundTrips_iff reached.consistent).mp trip)

end NostrWot.Dm.Persistence
