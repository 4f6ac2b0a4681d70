import NostrWot.Data.Base64
import NostrWot.Data.OrderedMap
import NostrWot.Data.Utf8
import NostrWot.Dm.Types
import NostrWot.Sync.Run

namespace NostrWot.Dm

open NostrWot.Data NostrWot.Sync

/-! # At-rest encryption of the message cache -/

abbrev Bytes : Type := List UInt8

def bytesToBase64 (bytes : Bytes) : String := String.ofList (Base64.btoa bytes)

def base64ToBytes (text : String) : Except String Bytes :=
  match Base64.atob text.toList with
  | some bytes => .ok bytes
  | none => .error "InvalidCharacterError"

theorem base64ToBytes_bytesToBase64 (bytes : Bytes) :
    base64ToBytes (bytesToBase64 bytes) = .ok bytes := by
  unfold base64ToBytes bytesToBase64
  rw [String.toList_ofList, Base64.atob_btoa]

structure CryptoKey where
  raw : Bytes
  deriving DecidableEq

/-- `crypto.subtle.importKey` of a raw AES key. -/
def importKey (raw : Bytes) : Except String CryptoKey :=
  if raw.length = 16 ∨ raw.length = 24 ∨ raw.length = 32 then .ok ⟨raw⟩ else .error "DataError"

structure Signer (Nonce : Type) where
  nip44Encrypt : Nonce → String → String
  nip44Decrypt : String → Except String String
  opens : ∀ nonce text, nip44Decrypt (nip44Encrypt nonce text) = .ok text
  filled : ∀ nonce text, nip44Encrypt nonce text ≠ ""

/-! ## The key -/

/-- A call of `getOrCreateCacheKey`, by what it waits for. -/
inductive Call where
  | decrypting (wrapped : String)
  | encrypting (rawB64 : String)
  | importing (raw : Bytes)
  | obtained (key : CryptoKey)
  | failed (reason : String)

/-- What the calls for one account and one prefix share. -/
structure CacheKeys where
  /-- The entry of `ramKeys`. -/
  ramKey : Option CryptoKey
  /-- The item of `localStorage`. -/
  item : Option String
  calls : Nat → Option Call

namespace CacheKeys

def begun (item : Option String) : CacheKeys := ⟨none, item, fun _ => none⟩

def wrapped (state : CacheKeys) : Option String := state.item.filter (· ≠ "")

def put (state : CacheKeys) (id : Nat) (call : Call) : CacheKeys :=
  { state with calls := Function.update state.calls id (some call) }

/-- `getOrCreateCacheKey` up to its first `await`, with what `getRandomValues` draws. -/
def enter (state : CacheKeys) (supported : Bool) (drawn : Vector UInt8 32) : Call :=
  match state.ramKey with
  | some key => .obtained key
  | none =>
    if !supported then
      .failed "Signer does not support NIP-44 (required to wrap the cache key)"
    else
      match state.wrapped with
      | some wrapped => .decrypting wrapped
      | none => .encrypting (bytesToBase64 drawn.toList)

end CacheKeys

/-- From the text of the key to the `await` of its import. -/
def toImport (rawB64 : Except String String) : Call :=
  match rawB64 >>= base64ToBytes with
  | .ok raw => .importing raw
  | .error reason => .failed reason

inductive Move (Nonce : Type) where
  | call (id : Nat) (supported : Bool) (drawn : Vector UInt8 32)
  | decrypted (id : Nat)
  | encrypted (id : Nat) (nonce : Nonce)
  | imported (id : Nat)
  /-- The signer refuses, or the storage takes nothing. -/
  | refused (id : Nat) (reason : String)
  | reloaded

variable {Nonce : Type} (signer : Signer Nonce)

def step (state : CacheKeys) : Move Nonce → Option CacheKeys
  | .call id supported drawn =>
    match state.calls id with
    | none => some (state.put id (state.enter supported drawn))
    | some _ => none
  | .decrypted id =>
    match state.calls id with
    | some (.decrypting wrapped) => some (state.put id (toImport (signer.nip44Decrypt wrapped)))
    | _ => none
  | .encrypted id nonce =>
    match state.calls id with
    | some (.encrypting rawB64) =>
      let stored := { state with item := some (signer.nip44Encrypt nonce rawB64) }
      some (stored.put id (toImport (.ok rawB64)))
    | _ => none
  | .imported id =>
    match state.calls id with
    | some (.importing raw) =>
      match importKey raw with
      | .ok key => some ({ state with ramKey := some key }.put id (.obtained key))
      | .error reason => some (state.put id (.failed reason))
    | _ => none
  | .refused id reason =>
    match state.calls id with
    | some (.decrypting _) | some (.encrypting _) | some (.importing _) =>
      some (state.put id (.failed reason))
    | _ => none
  | .reloaded => some (.begun state.item)

def unwrap (wrapped : String) : Except String Bytes := signer.nip44Decrypt wrapped >>= base64ToBytes

def unwrapKey (wrapped : String) : Except String CryptoKey := unwrap signer wrapped >>= importKey

/-- A key that was just minted is not written over another one. -/
def Alone (state : CacheKeys) : Move Nonce → Prop
  | .encrypted _ _ => state.wrapped = none
  | _ => True

def Call.Follows (wrapped : Option String) : Call → Prop
  | .decrypting text => wrapped = some text
  | .importing raw => ∃ text, wrapped = some text ∧ unwrap signer text = .ok raw
  | .obtained key => ∃ text, wrapped = some text ∧ unwrapKey signer text = .ok key
  | .encrypting _ | .failed _ => True

structure CacheKeys.Agrees (state : CacheKeys) : Prop where
  ram : ∀ key, state.ramKey = some key → (Call.obtained key).Follows signer state.wrapped
  calls : ∀ id call, state.calls id = some call → call.Follows signer state.wrapped

variable {signer}

theorem Call.Follows.first {call : Call} (follows : call.Follows signer none)
    (wrapped : Option String) : call.Follows signer wrapped := by
  cases call with
  | encrypting rawB64 => trivial
  | failed reason => trivial
  | decrypting text => contradiction
  | importing raw =>
    obtain ⟨_, absurd, _⟩ := follows
    contradiction
  | obtained key =>
    obtain ⟨_, absurd, _⟩ := follows
    contradiction

theorem toImport_follows {text rawB64 : String} (opened : signer.nip44Decrypt text = .ok rawB64) :
    (toImport (.ok rawB64)).Follows signer (some text) := by
  have same : unwrap signer text = base64ToBytes rawB64 := by
    unfold unwrap
    rw [opened]
    rfl
  show Call.Follows signer (some text) (match base64ToBytes rawB64 with
    | .ok raw => .importing raw
    | .error reason => .failed reason)
  cases known : base64ToBytes rawB64 with
  | ok raw => exact ⟨text, rfl, same.trans known⟩
  | error reason => trivial

namespace CacheKeys

variable {state next : CacheKeys}

theorem wrapped_some {text : String} (filled : text ≠ "") :
    ({ state with item := some text } : CacheKeys).wrapped = some text := by
  simp [wrapped, filled]

theorem Agrees.begun (item : Option String) : (CacheKeys.begun item).Agrees signer where
  ram _ absurd := nomatch absurd
  calls _ _ absurd := nomatch absurd

theorem Agrees.put (agrees : state.Agrees signer) {id : Nat} {call : Call}
    (follows : call.Follows signer state.wrapped) : (state.put id call).Agrees signer where
  ram := agrees.ram
  calls other held found := by
    by_cases same : other = id
    · have found : some call = some held := by simpa [CacheKeys.put, same] using found
      cases found
      exact follows
    · exact agrees.calls other held (by simpa [CacheKeys.put, same] using found)

theorem Agrees.stored (agrees : state.Agrees signer) (first : state.wrapped = none)
    (text : String) : ({ state with item := some text } : CacheKeys).Agrees signer where
  ram key held := by
    have follows := agrees.ram key held
    rw [first] at follows
    exact follows.first _
  calls id call held := by
    have follows := agrees.calls id call held
    rw [first] at follows
    exact follows.first _

theorem Agrees.enter (agrees : state.Agrees signer) (supported : Bool) (drawn : Vector UInt8 32) :
    (state.enter supported drawn).Follows signer state.wrapped := by
  unfold CacheKeys.enter
  split
  · rename_i key held
    exact agrees.ram key held
  · split
    · trivial
    · split
      · rename_i text held
        exact held
      · trivial

theorem agrees_step {move : Move Nonce} (agrees : state.Agrees signer) (alone : Alone state move)
    (moved : step signer state move = some next) : next.Agrees signer := by
  cases move with
  | call id supported drawn =>
    simp only [step] at moved
    split at moved
    · cases moved
      exact agrees.put (agrees.enter supported drawn)
    · contradiction
  | decrypted id =>
    simp only [step] at moved
    split at moved
    · rename_i text waiting
      cases moved
      have held : state.wrapped = some text := agrees.calls id _ waiting
      refine agrees.put ?_
      rw [held]
      cases opened : signer.nip44Decrypt text with
      | ok rawB64 => exact toImport_follows opened
      | error reason => trivial
    · contradiction
  | encrypted id nonce =>
    simp only [step] at moved
    split at moved
    · rename_i rawB64 waiting
      cases moved
      refine (agrees.stored alone _).put ?_
      rw [wrapped_some (signer.filled nonce rawB64)]
      exact toImport_follows (signer.opens nonce rawB64)
    · contradiction
  | imported id =>
    simp only [step] at moved
    split at moved
    · rename_i raw waiting
      obtain ⟨text, held, unwraps⟩ := agrees.calls id _ waiting
      split at moved
      · rename_i key known
        cases moved
        have follows : (Call.obtained key).Follows signer state.wrapped := by
          refine ⟨text, held, ?_⟩
          unfold unwrapKey
          rw [unwraps]
          exact known
        have kept : ({ state with ramKey := some key } : CacheKeys).Agrees signer :=
          ⟨fun other same => by cases same; exact follows, agrees.calls⟩
        exact kept.put follows
      · cases moved
        exact agrees.put trivial
    · contradiction
  | refused id reason =>
    simp only [step] at moved
    split at moved
    all_goals first | contradiction | (cases moved; exact agrees.put trivial)
  | reloaded =>
    cases moved
    exact .begun _

theorem wrapped_step {move : Move Nonce} {text : String} (alone : Alone state move)
    (moved : step signer state move = some next) (held : state.wrapped = some text) :
    next.wrapped = some text := by
  cases move with
  | encrypted id nonce =>
    have first : state.wrapped = none := alone
    rw [held] at first
    contradiction
  | reloaded =>
    cases moved
    exact held
  | call id supported drawn =>
    simp only [step] at moved
    split at moved
    · cases moved
      exact held
    · contradiction
  | decrypted id =>
    simp only [step] at moved
    split at moved
    · cases moved
      exact held
    · contradiction
  | imported id =>
    simp only [step] at moved
    split at moved
    · split at moved
      all_goals
        cases moved
        exact held
    · contradiction
  | refused id reason =>
    simp only [step] at moved
    split at moved
    all_goals first | contradiction | (cases moved; exact held)

end CacheKeys

/-! ## What the key encrypts -/

/-- AES-GCM of `crypto.subtle`. -/
structure Aead where
  encrypt : CryptoKey → Bytes → Bytes → Bytes
  decrypt : CryptoKey → Bytes → Bytes → Except String Bytes
  opens : ∀ key iv plain, decrypt key iv (encrypt key iv plain) = .ok plain

variable (aead : Aead)

/-- `encryptToCache`, with the `iv` it draws. -/
def encryptToCache (key : CryptoKey) (iv : Bytes) (plaintext : String) : String :=
  let ct := aead.encrypt key iv (Utf8.encode plaintext.toList)
  bytesToBase64 iv ++ "." ++ bytesToBase64 ct

def decryptFromCache (key : CryptoKey) (blob : String) : Except String String :=
  match blob.toList.splitOn '.' with
  | [first, second] => do
      let iv ← base64ToBytes (String.ofList first)
      let ct ← base64ToBytes (String.ofList second)
      let pt ← aead.decrypt key iv ct
      return String.ofList (Utf8.decode pt)
  | _ => .error "Malformed cache blob"

/-- `save` of the wrapped storage, with what it hands to the inner one. -/
def saveWrapped (key : CryptoKey) (ivs : Pubkey → Nat → Bytes)
    (conversations : OrderedMap Pubkey (List DMMessage)) : OrderedMap Pubkey (List DMMessage) :=
  conversations.mapValues fun partner msgs =>
    msgs.mapIdx fun index msg =>
      { msg with content := encryptToCache aead key (ivs partner index) msg.content }

def decodeRow (key : CryptoKey) (msg : DMMessage) : Option DMMessage :=
  match decryptFromCache aead key msg.content with
  | .ok plain => some { msg with content := plain }
  | .error _ => none

/-- `load` of the wrapped storage, of what the inner one holds. -/
def loadWrapped (key : CryptoKey) (raw : OrderedMap Pubkey (List DMMessage)) :
    OrderedMap Pubkey (List DMMessage) :=
  raw.mapValues fun _ blobs => blobs.filterMap (decodeRow aead key)

/-- What a decoder leaves of a text. -/
def unmarked (text : String) : String :=
  if text.toList.head? = some Utf8.byteOrderMark then String.ofList text.toList.tail else text

variable {aead}

theorem decryptFromCache_encryptToCache (key : CryptoKey) (iv : Bytes) (plaintext : String) :
    decryptFromCache aead key (encryptToCache aead key iv plaintext) = .ok (unmarked plaintext) := by
  have parts : (encryptToCache aead key iv plaintext).toList.splitOn '.' =
      [Base64.btoa iv, Base64.btoa (aead.encrypt key iv (Utf8.encode plaintext.toList))] := by
    have text : (encryptToCache aead key iv plaintext).toList =
        Base64.btoa iv ++ '.' :: Base64.btoa (aead.encrypt key iv (Utf8.encode plaintext.toList)) := by
      simp [encryptToCache, bytesToBase64]
    have plain : ∀ bytes : Bytes, ∀ char ∈ Base64.btoa bytes, (char == '.') = false := by
      intro bytes char member
      simpa using Base64.ne_dot_of_mem_btoa member
    rw [text, List.splitOn_eq_splitOnP,
      List.splitOnP_append_cons_of_forall_mem (plain iv) '.' rfl,
      List.splitOnP_eq_singleton (plain _)]
  unfold decryptFromCache
  rw [parts]
  dsimp only
  rw [show ∀ bytes, String.ofList (Base64.btoa bytes) = bytesToBase64 bytes from fun _ => rfl,
    base64ToBytes_bytesToBase64, show ∀ bytes, String.ofList (Base64.btoa bytes) =
      bytesToBase64 bytes from fun _ => rfl, base64ToBytes_bytesToBase64]
  dsimp only [bind, Except.bind]
  rw [aead.opens]
  dsimp only
  rw [Utf8.decode_encode]
  unfold unmarked
  split
  · rfl
  · rw [String.ofList_toList]
    rfl

theorem loadWrapped_saveWrapped (key : CryptoKey) (ivs : Pubkey → Nat → Bytes)
    (conversations : OrderedMap Pubkey (List DMMessage)) :
    loadWrapped aead key (saveWrapped aead key ivs conversations) =
      conversations.mapValues fun _ msgs =>
        msgs.map fun msg => { msg with content := unmarked msg.content } := by
  have rows : ∀ (msgs : List DMMessage) (iv : Nat → Bytes),
      (msgs.mapIdx fun index msg => { msg with
        content := encryptToCache aead key (iv index) msg.content }).filterMap (decodeRow aead key) =
      msgs.map fun msg => { msg with content := unmarked msg.content } := by
    intro msgs
    induction msgs with
    | nil => intro iv; rfl
    | cons msg rest ih =>
      intro iv
      have first :
          decodeRow aead key { msg with content := encryptToCache aead key (iv 0) msg.content } =
            some { msg with content := unmarked msg.content } := by
        unfold decodeRow
        rw [decryptFromCache_encryptToCache]
      rw [List.mapIdx_cons, List.filterMap_cons, first, List.map_cons]
      exact congrArg _ (ih fun index => iv (index + 1))
  ext1
  show List.map _ (List.map _ _) = List.map _ _
  rw [List.map_map]
  refine List.map_congr_left ?_
  intro entry _
  exact congrArg (Prod.mk entry.1) (rows entry.2 (ivs entry.1))

/-! ## One key for every call -/

/-- What an earlier call obtained, every later one obtains, in this session or in the next, and
the item in storage unwraps to it. -/
theorem cacheKeys_agree {item : Option String} {state later : CacheKeys} {id other : Nat}
    {key obtained : CryptoKey}
    (reaches : Reaches (step signer) Alone (.begun item) state)
    (onwards : Reaches (step signer) Alone state later)
    (first : state.calls id = some (.obtained key))
    (second : later.calls other = some (.obtained obtained)) :
    obtained = key ∧
      (∃ text, later.wrapped = some text ∧ unwrapKey signer text = .ok key) ∧
      (∀ iv text, ∃ plain,
        decryptFromCache aead obtained (encryptToCache aead key iv text) = .ok plain ∧
          (text.toList.head? ≠ some Utf8.byteOrderMark → plain = text)) ∧
      ∀ ivs conversations,
        loadWrapped aead obtained (saveWrapped aead key ivs conversations) =
          conversations.mapValues fun _ msgs =>
            msgs.map fun msg => { msg with content := unmarked msg.content } := by
  have begun : state.Agrees signer :=
    reaches.invariant (.begun item) fun _ _ _ => CacheKeys.agrees_step
  have ended : later.Agrees signer := onwards.invariant begun fun _ _ _ => CacheKeys.agrees_step
  obtain ⟨text, held, unwraps⟩ : ∃ text, state.wrapped = some text ∧
      unwrapKey signer text = .ok key := begun.calls id _ first
  have stays : later.wrapped = some text :=
    @Reaches.invariant _ _ _ _ _ _ (fun state => state.wrapped = some text) onwards held
      fun _ _ _ held alone moved => CacheKeys.wrapped_step alone moved held
  obtain ⟨_, same, again⟩ : ∃ text, later.wrapped = some text ∧
      unwrapKey signer text = .ok obtained := ended.calls other _ second
  have one : obtained = key := by
    rw [stays] at same
    cases same
    rw [unwraps] at again
    cases again
    rfl
  rw [one]
  refine ⟨rfl, ⟨text, stays, unwraps⟩, fun iv text => ?_, loadWrapped_saveWrapped key⟩
  refine ⟨unmarked text, decryptFromCache_encryptToCache key iv text, fun plain => ?_⟩
  unfold unmarked
  rw [if_neg plain]

def marking : Signer Unit where
  nip44Encrypt _ text := "+" ++ text
  nip44Decrypt text := .ok (String.ofList text.toList.tail)
  opens _ text := by simp
  filled _ text := by simp [String.ext_iff]

def clearAead : Aead where
  encrypt _ _ plain := plain
  decrypt _ _ ct := .ok ct
  opens _ _ _ := rfl

def drawnKey (byte : UInt8) : Vector UInt8 32 := Vector.replicate 32 byte

theorem toImport_drawn (byte : UInt8) :
    toImport (.ok (bytesToBase64 (drawnKey byte).toList)) = .importing (drawnKey byte).toList := by
  unfold toImport
  dsimp only [bind, Except.bind]
  rw [base64ToBytes_bytesToBase64]

theorem importKey_drawn (byte : UInt8) :
    importKey (drawnKey byte).toList = .ok ⟨(drawnKey byte).toList⟩ := by
  have long : (drawnKey byte).toList.length = 32 := Vector.length_toList
  unfold importKey
  rw [if_pos (.inr (.inr long))]

theorem unwrapKey_drawn (byte : UInt8) :
    unwrapKey marking ("+" ++ bytesToBase64 (drawnKey byte).toList) =
      .ok ⟨(drawnKey byte).toList⟩ := by
  have opened : marking.nip44Decrypt ("+" ++ bytesToBase64 (drawnKey byte).toList) =
      .ok (bytesToBase64 (drawnKey byte).toList) :=
    marking.opens () _
  unfold unwrapKey unwrap
  rw [opened]
  dsimp only [bind, Except.bind]
  rw [base64ToBytes_bytesToBase64]
  exact importKey_drawn byte

/-- A call that mints, and one of the next session that unwraps. -/
theorem cacheKeys_agree_reloaded :
    ∃ state later : CacheKeys, state.calls 0 = some (.obtained ⟨(drawnKey 1).toList⟩) ∧
      later.calls 1 = some (.obtained ⟨(drawnKey 1).toList⟩) ∧
      ∃ text, later.wrapped = some text ∧
        unwrapKey marking text = .ok ⟨(drawnKey 1).toList⟩ := by
  have minted : ∃ state, exec (step marking) (.begun none)
      [.call 0 true (drawnKey 1), .encrypted 0 (), .imported 0] = some state ∧
      state.calls 0 = some (.obtained ⟨(drawnKey 1).toList⟩) ∧
      state.item = some ("+" ++ bytesToBase64 (drawnKey 1).toList) := by
    simp [exec, step, CacheKeys.begun, CacheKeys.put, CacheKeys.enter, CacheKeys.wrapped,
      toImport_drawn, importKey_drawn]
    rfl
  obtain ⟨state, mints, first, item⟩ := minted
  have text : marking.nip44Decrypt ("+" ++ bytesToBase64 (drawnKey 1).toList) =
      .ok (bytesToBase64 (drawnKey 1).toList) := marking.opens () _
  have filled : "+" ++ bytesToBase64 (drawnKey 1).toList ≠ "" := marking.filled () _
  have unwrapped : ∃ later, exec (step marking) state
      [.reloaded, .call 1 true (drawnKey 2), .decrypted 1, .imported 1] = some later ∧
      later.calls 1 = some (.obtained ⟨(drawnKey 1).toList⟩) := by
    simp [exec, step, CacheKeys.begun, CacheKeys.put, CacheKeys.enter, CacheKeys.wrapped, item,
      Option.filter_some, filled, text, toImport_drawn, importKey_drawn]
  obtain ⟨later, unwraps, second⟩ := unwrapped
  have begins : Reaches (step marking) Alone (.begun none) state :=
    .of_permitted mints ⟨trivial, fun _ stepped => ⟨by cases stepped; rfl, fun _ _ =>
      ⟨trivial, fun _ _ => trivial⟩⟩⟩
  have goes : Reaches (step marking) Alone state later :=
    .of_permitted unwraps ⟨trivial, fun _ _ => ⟨trivial, fun _ _ => ⟨trivial, fun _ _ =>
      ⟨trivial, fun _ _ => trivial⟩⟩⟩⟩
  have agree := @cacheKeys_agree _ _ clearAead _ _ _ _ _ _ _ begins goes first second
  exact ⟨state, later, first, second, agree.2.1⟩

/-- Two first calls at once: the first keeps the key it minted, and the item in storage unwraps
to that of the second. -/
theorem two_first_calls_differ :
    ∃ state, exec (step marking) (.begun none)
        [.call 0 true (drawnKey 0), .call 1 true (drawnKey 1), .encrypted 0 (), .imported 0,
          .encrypted 1 (), .imported 1] = some state ∧
      state.calls 0 = some (.obtained ⟨(drawnKey 0).toList⟩) ∧
      state.calls 1 = some (.obtained ⟨(drawnKey 1).toList⟩) ∧
      CryptoKey.mk (drawnKey 0).toList ≠ ⟨(drawnKey 1).toList⟩ ∧
      ∃ text, state.wrapped = some text ∧
        unwrapKey marking text = .ok ⟨(drawnKey 1).toList⟩ := by
  have differ : CryptoKey.mk (drawnKey 0).toList ≠ ⟨(drawnKey 1).toList⟩ := by decide
  have ran : ∃ state, exec (step marking) (.begun none)
      [.call 0 true (drawnKey 0), .call 1 true (drawnKey 1), .encrypted 0 (), .imported 0,
        .encrypted 1 (), .imported 1] = some state ∧
      state.calls 0 = some (.obtained ⟨(drawnKey 0).toList⟩) ∧
      state.calls 1 = some (.obtained ⟨(drawnKey 1).toList⟩) ∧
      state.wrapped = some ("+" ++ bytesToBase64 (drawnKey 1).toList) := by
    simp [exec, step, CacheKeys.begun, CacheKeys.put, CacheKeys.enter, CacheKeys.wrapped,
      toImport_drawn, importKey_drawn]
    rfl
  obtain ⟨state, executed, first, second, wrapped⟩ := ran
  exact ⟨state, executed, first, second, differ, _, wrapped, unwrapKey_drawn 1⟩

end NostrWot.Dm
