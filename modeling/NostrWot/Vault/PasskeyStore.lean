import NostrWot.Vault.Credentials
import NostrWot.Vault.StrictJson
import NostrWot.Data.Decimal

namespace NostrWot.Vault

/-! # Stored records

A key, a seed or a vault, encrypted under a passkey's output and bound to its
type, relying party, author and credential.
-/

open Data Data.JsonSyntax
open Data.JsonValue (isObject isText isNumber isBoolean textField isTrue hasText)

/-- What the wallet packages compute; each `none` is a throw. -/
structure Wallets where
  isValidSecretKey : Bytes → Bool
  getPublicKey : Bytes → Option Bytes
  /-- The seed of the English mnemonic of this entropy, with its passphrase. -/
  mnemonicSeed : Bytes → Units → Option Bytes
  HDKey : Type
  fromMasterSeed : Bytes → Option HDKey
  deriveChild : HDKey → Nat → Option HDKey
  index : HDKey → Nat
  privateKey : HDKey → Option Bytes

structure Numerals (ν : Type) extends JsonValue.NumberFormat ν where
  /-- `Number.isSafeInteger(value) && value >= 0`. -/
  isSafeNatural : ν → Bool
  plain : ∀ value, isSafeNatural value = true → StrictJson.isPlainInteger (digits value) = true

/-! ## Payloads -/

inductive StoredPayloadType where
  | key
  | seed
  | vault
  deriving DecidableEq

inductive StoredPayload (ν : Type) where
  | key (key : Bytes)
  | seed (seed : JsonValue.Document ν)
  | vault (vault : JsonValue.Document ν)

def StoredPayload.type {ν : Type} : StoredPayload ν → StoredPayloadType
  | .key _ => .key
  | .seed _ => .seed
  | .vault _ => .vault

def TYPES : StoredPayloadType → UInt8
  | .key => 1
  | .seed => 2
  | .vault => 3

def HEADER : Bytes := [0x4e, 0x50, 0x4b, 0x01]

def HEADER_BYTES : Nat := 5 + 12 + 32

def TAG_BYTES : Nat := 16

def STORED_MAX_PLAINTEXT_BYTES : Nat := 65536

def MAX_RECORD_BYTES : Nat := HEADER_BYTES + STORED_MAX_PLAINTEXT_BYTES + TAG_BYTES

def LABEL : Units := Units.ofString "nostr-passkey:store:v1"

def NIP06_PATH : Units := Units.ofString "m/44'/1237'/0'/0/0"

def SEED_PATH_PREFIX : Units := Units.ofString "m/44'/1237'/"

def MAX_BIP32_INDEX : Nat := 0x7fffffff

def MAX_BIP32_DEPTH : Nat := 255

def MAX_BIP32_PATH_LENGTH : Nat := 2 + MAX_BIP32_DEPTH * 12

/-- What `String.prototype.trim` takes off. -/
def isTrimmedUnit (unit : UInt16) : Bool :=
  (9 ≤ unit && unit ≤ 13) || unit = 32 || unit = 0xA0 || unit = 0x1680 ||
    (0x2000 ≤ unit && unit ≤ 0x200A) || unit = 0x2028 || unit = 0x2029 || unit = 0x202F ||
    unit = 0x205F || unit = 0x3000 || unit = 0xFEFF

def trimUnits (text : Units) : Units :=
  ((text.dropWhile isTrimmedUnit).reverse.dropWhile isTrimmedUnit).reverse

/-- A level of a path by `/^(\d+)(['hH]?)$/`, as it is written canonically. -/
def canonicalLevel (part : Units) : Option Units :=
  let digits := part.takeWhile isDigit
  let mark := part.dropWhile isDigit
  if digits.isEmpty || MAX_BIP32_INDEX < Units.decimal digits then none
  else if mark = [] then some (Units.digits (Units.decimal digits))
  else if mark = [39] || mark = [104] || mark = [72] then
    some (Units.digits (Units.decimal digits) ++ [39])
  else none

def normalizeDerivationPath (value : Units) : Option Units :=
  if MAX_BIP32_PATH_LENGTH < value.length then none
  else
    match (trimUnits value).splitOn 47 with
    | [] => none
    | root :: parts =>
      if root ≠ [109] || MAX_BIP32_DEPTH < parts.length then none
      else (parts.mapM canonicalLevel).map fun levels => [47].intercalate ([109] :: levels)

def validSeedPath (path : Units) : Bool :=
  normalizeDerivationPath path = some path && SEED_PATH_PREFIX.isPrefixOf path &&
    SEED_PATH_PREFIX.length < path.length && (path.splitOn 47).length ≤ 256

section Payloads

variable {ν : Type} (packages : Packages) (wallets : Wallets) (numbers : Numerals ν)

def isValidPrivateKey (key : Bytes) : Bool := key.length = 32 && wallets.isValidSecretKey key

def validHexKey (hex : Units) : Bool :=
  isHex64 hex && (packages.hexToBytes hex).any (isValidPrivateKey wallets)

/-- `/^(?:[a-f0-9]{8}){4,8}$/`. -/
def isEntropy (text : Units) : Bool :=
  text.length % 8 = 0 && 32 ≤ text.length && text.length ≤ 64 && text.all isHexUnit

def validSeed (seed : JsonValue ν) : Bool :=
  isObject seed && (seed.field "entropy").any (isText isEntropy) &&
    (seed.field "passphrase").all (isText fun _ => true)

/-- An array that holds something. -/
def isFilled : JsonValue ν → Bool
  | .array items => !items.isEmpty
  | _ => false

def validVault (vault : JsonValue ν) : Bool :=
  isObject vault && (vault.field "seed").all validSeed && (vault.field "accounts").any isFilled &&
    (vault.field "ext").all isObject &&
    (vault.field "updated_at").all (isNumber numbers.isSafeNatural)

def usableAccount (account vault : JsonValue ν) : Bool :=
  isObject account && (account.field "label").all (isText fun _ => true) &&
    (account.field "default").all isBoolean &&
    if hasText account "kind" (Units.ofString "key") then
      (account.field "secret").any (isText (validHexKey packages wallets))
    else hasText account "kind" (Units.ofString "derived") && (vault.field "seed").isSome &&
      (account.field "path").any (isText validSeedPath)

/-! ### Keys -/

/-- `Number(level.replace("'", '')) + (level.endsWith("'") ? 0x80000000 : 0)`. -/
def levelIndex (level : Units) : Nat :=
  Units.decimal (level.erase 39) + if level.getLast? = some 39 then 0x80000000 else 0

def deriveLevels : wallets.HDKey → List Units → Option wallets.HDKey
  | node, [] => some node
  | node, level :: levels =>
    (wallets.deriveChild node (levelIndex level)).bind fun child =>
      if wallets.index child = levelIndex level then deriveLevels child levels else none

/-- Key at exactly `path` of a stored seed. -/
def storedSeedKey (seed : JsonValue ν) (path : Units) : Option Bytes :=
  if !validSeed seed || !validSeedPath path then none
  else do
    let entropy ← packages.hexToBytes ((textField seed "entropy").getD [])
    let bip39 ← wallets.mnemonicSeed entropy ((textField seed "passphrase").getD [])
    let master ← wallets.fromMasterSeed bip39
    let node ← deriveLevels wallets master ((path.splitOn 47).drop 1)
    wallets.privateKey node

/-- One importable identity of a payload. -/
structure StoredKey where
  pubkey : Units
  secret : Bytes
  label : Option Units
  default : Bool

def publicKeyFromPrivate (secret : Bytes) : Option Units :=
  (wallets.getPublicKey secret).map packages.bytesToHex

def entry (secret : Bytes) (account : JsonValue ν) : Option StoredKey :=
  (publicKeyFromPrivate packages wallets secret).map fun pubkey =>
    { pubkey, secret, label := textField account "label", default := isTrue account "default" }

def accountKey (vault account : JsonValue ν) : Option StoredKey :=
  if usableAccount packages wallets account vault then
    if hasText account "kind" (Units.ofString "key") then
      (packages.hexToBytes ((textField account "secret").getD [])).bind fun secret =>
        entry packages wallets secret account
    else
      (vault.field "seed").bind fun seed =>
        (storedSeedKey packages wallets seed ((textField account "path").getD [])).bind fun secret =>
          entry packages wallets secret account
  else none

def markDefault (keys : List StoredKey) : List StoredKey :=
  let selected := (keys.findIdx? fun key => key.default).getD 0
  keys.mapIdx fun index key => { key with default := index = selected }

def accountsOf (vault : JsonValue ν) : List (JsonValue ν) :=
  match vault.field "accounts" with
  | some (.array items) => items
  | _ => []

/-- The payload's importable identities, in order. -/
def storedPayloadKeys : StoredPayload ν → Option (List StoredKey)
  | .key key => (entry packages wallets key (.null : JsonValue ν)).map fun key => [key]
  | .seed seed =>
    (storedSeedKey packages wallets seed.value NIP06_PATH).bind fun secret =>
      (entry packages wallets secret (.null : JsonValue ν)).map fun key => [key]
  | .vault vault =>
    some (markDefault ((accountsOf vault.value).filterMap (accountKey packages wallets vault.value)))

def hasAuthor (payload : StoredPayload ν) (author : Units) : Option Bool :=
  (storedPayloadKeys packages wallets payload).map fun keys =>
    keys.any fun key => key.pubkey = author

/-! ### Plaintexts -/

/-- `{ seed, accounts: [{ kind: 'derived', path: NIP06_PATH }] }`. -/
def companion (seed : JsonValue ν) : JsonValue ν :=
  .object [(Units.ofString "seed", seed),
    (Units.ofString "accounts", .array [.object [
      (Units.ofString "kind", .text (Units.ofString "derived")),
      (Units.ofString "path", .text NIP06_PATH)]])]

theorem unique_companion {seed : JsonValue ν} (unique : seed.Unique) : (companion seed).Unique := by
  refine ⟨?_, unique, ⟨⟨?_, trivial, trivial, trivial⟩, trivial⟩, trivial⟩
  · simp only [List.map_cons, List.map_nil]
    decide
  · simp only [List.map_cons, List.map_nil]
    decide

def writablePayload : StoredPayload ν → StoredPayload ν
  | .seed seed => .vault ⟨companion seed.value, unique_companion seed.unique⟩
  | payload => payload

def encodeDocument (document : JsonValue.Document ν) : Option Bytes :=
  let bytes := Units.encode (JsonValue.stringify numbers.toNumberFormat document.value)
  if (StrictJson.strictJson numbers.toNumberFormat (Units.decode bytes)).isSome then
    if STORED_MAX_PLAINTEXT_BYTES < bytes.length then none else some bytes
  else none

def encodePayload : StoredPayload ν → Option Bytes
  | .key key =>
    if isValidPrivateKey wallets key then
      if STORED_MAX_PLAINTEXT_BYTES < key.length then none else some key
    else none
  | .seed seed => if validSeed seed.value then encodeDocument numbers seed else none
  | .vault vault => if validVault numbers vault.value then encodeDocument numbers vault else none

def decodePayload (type : StoredPayloadType) (plaintext : Bytes) : Option (StoredPayload ν) :=
  match type with
  | .key => if isValidPrivateKey wallets plaintext then some (.key plaintext) else none
  | .seed =>
    ((Units.decodeFatal plaintext).bind (StrictJson.strictJson numbers.toNumberFormat)).bind
      fun value => if validSeed value.value then some (.seed value) else none
  | .vault =>
    ((Units.decodeFatal plaintext).bind (StrictJson.strictJson numbers.toNumberFormat)).bind
      fun value => if validVault numbers value.value then some (.vault value) else none

end Payloads

/-! ## Records -/

structure StoredRecordContext where
  credentialId : Units
  rpId : Units
  author : Units

section Records

variable {ν : Type} (packages : Packages) (wallets : Wallets) (numbers : Numerals ν)

def credential (context : StoredRecordContext) : Option Bytes :=
  if (context.rpId = Units.ofString "localhost" || validPasskeyRpId context.rpId) &&
      isHex64 context.author then
    canonicalCredential packages context.credentialId
  else none

def isStoredRecord (bytes : Bytes) : Bool := HEADER.isPrefixOf bytes

def storedRecordAad (type : StoredPayloadType) (context : StoredRecordContext) : Option Bytes := do
  let id ← credential packages context
  let rp := Units.encode context.rpId
  let author ← packages.hexToBytes context.author
  return HEADER ++ [TYPES type] ++ [UInt8.ofNat rp.length] ++ rp ++ author ++
    [UInt8.ofNat (id.length / 256), UInt8.ofNat (id.length % 256)] ++ id

def recordKey (prf salt : Bytes) : Option Bytes :=
  if prf.length = 32 then some (packages.hkdf prf salt (Units.encode LABEL)) else none

def recordType (record : Bytes) : Option StoredPayloadType :=
  if isStoredRecord record then
    ([.key, .seed, .vault].find? fun type => some (TYPES type) = record[4]?).bind fun type =>
      if record.length ≤ HEADER_BYTES + TAG_BYTES || MAX_RECORD_BYTES < record.length ||
          (type = .key && record.length ≠ HEADER_BYTES + 32 + TAG_BYTES) then none
      else some type
  else none

def sealStoredRecord (plaintext prf : Bytes) (type : StoredPayloadType)
    (context : StoredRecordContext) (salt iv : Bytes) : Option Bytes :=
  (storedRecordAad packages type context).bind fun aad =>
    if plaintext.isEmpty || STORED_MAX_PLAINTEXT_BYTES < plaintext.length ||
        (type = .key && plaintext.length ≠ 32) then none
    else if salt.length ≠ 32 || iv.length ≠ 12 then none
    else
      (recordKey packages prf salt).map fun key =>
        HEADER ++ [TYPES type] ++ iv ++ salt ++ packages.encrypt key iv aad plaintext

def encryptStoredRecord (payload : StoredPayload ν) (prf : Bytes) (context : StoredRecordContext)
    (salt iv : Bytes) : Option Bytes :=
  (credential packages context).bind fun _ =>
    (encodePayload wallets numbers (writablePayload payload)).bind fun plaintext =>
      (hasAuthor packages wallets (writablePayload payload) context.author).bind fun among =>
        if among then
          sealStoredRecord packages plaintext prf (writablePayload payload).type context salt iv
        else none

/-- Decrypt, decode and check the author before returning anything. -/
def openStoredRecord (record prf : Bytes) (context : StoredRecordContext) :
    Option (StoredPayload ν) :=
  (recordType record).bind fun type =>
    (storedRecordAad packages type context).bind fun aad =>
      (recordKey packages prf ((record.drop 17).take 32)).bind fun key =>
        (packages.decrypt key ((record.drop 5).take 12) aad (record.drop HEADER_BYTES)).bind
          fun plaintext =>
            (decodePayload wallets numbers type plaintext).bind fun payload =>
              (hasAuthor packages wallets payload context.author).bind fun among =>
                if among then some payload else none

end Records

/-! ## A record opens as what it was made of -/

section Valid

variable {ν : Type} {packages : Packages} {wallets : Wallets} {numbers : Numerals ν}

/-- What a record may hold: a usable key, or a vault whose text is well formed and not too long. -/
def Writable (wallets : Wallets) (numbers : Numerals ν) : StoredPayload ν → Prop
  | .key key => isValidPrivateKey wallets key = true
  | .seed _ => False
  | .vault vault => validVault numbers vault.value = true ∧ StrictJson.Formed vault.value ∧
      (Units.encode (JsonValue.stringify numbers.toNumberFormat vault.value)).length ≤
        STORED_MAX_PLAINTEXT_BYTES

def StoredPayload.Valid (wallets : Wallets) (numbers : Numerals ν) (payload : StoredPayload ν) :
    Prop := Writable wallets numbers (writablePayload payload)

theorem stringify_object (value : JsonValue ν) (isOne : isObject value = true) :
    (JsonValue.stringify numbers.toNumberFormat value).head? ≠ some 0xFEFF := by
  cases value with
  | object fields => exact Option.some_inj.not.mpr (by decide)
  | _ => contradiction

theorem validVault_parts {vault : JsonValue ν} (valid : validVault numbers vault = true) :
    isObject vault = true ∧
      (vault.field "updated_at").all (isNumber numbers.isSafeNatural) = true := by
  simp only [validVault, Bool.and_eq_true] at valid
  exact ⟨valid.1.1.1.1, valid.2⟩

theorem timed_toNode {vault : JsonValue ν} (unique : vault.Unique)
    (valid : validVault numbers vault = true) :
    StrictJson.Timed (JsonValue.toNode numbers.toNumberFormat vault) := by
  obtain ⟨isOne, safe⟩ := validVault_parts valid
  cases vault with
  | object fields =>
    rw [JsonValue.toNode, StrictJson.toMembers_eq]
    intro member among named
    obtain ⟨field, held, rfl⟩ := List.mem_map.mp among
    obtain ⟨name, value⟩ := field
    have name_ : name = Units.ofString "updated_at" := named.trans (by decide)
    have found : JsonValue.field (.object fields) "updated_at" = some value := by
      rw [JsonValue.field, ← name_, JsonValue.find_mem unique.1 held]
      rfl
    rw [found, Option.all_some] at safe
    cases value with
    | number time => exact ⟨_, rfl, numbers.plain time safe⟩
    | _ => contradiction
  | _ => contradiction

theorem strictJson_stringify {vault : JsonValue.Document ν}
    (valid : validVault numbers vault.value = true) (formed : StrictJson.Formed vault.value) :
    StrictJson.strictJson numbers.toNumberFormat
      (JsonValue.stringify numbers.toNumberFormat vault.value) = some vault := by
  rw [StrictJson.strictJson_iff]
  refine ⟨JsonValue.parse_stringify _ vault, _, JsonValue.parseText_stringify _ vault.value, ?_, ?_⟩
  · exact StrictJson.sound_toNode _ vault.value vault.unique formed
  · exact timed_toNode vault.unique valid

theorem encodeDocument_valid {vault : JsonValue.Document ν}
    (valid : validVault numbers vault.value = true) (formed : StrictJson.Formed vault.value)
    (short : (Units.encode (JsonValue.stringify numbers.toNumberFormat vault.value)).length ≤
      STORED_MAX_PLAINTEXT_BYTES) :
    encodeDocument numbers vault =
      some (Units.encode (JsonValue.stringify numbers.toNumberFormat vault.value)) := by
  have whole := JsonValue.isWellFormed_stringify numbers.toNumberFormat vault.value
  have unmarked := @stringify_object ν numbers vault.value (validVault_parts valid).1
  unfold encodeDocument
  dsimp only
  rw [(Units.decode_encode_iff _).mpr ⟨whole, unmarked⟩, strictJson_stringify valid formed,
    Option.isSome_some, if_pos rfl, if_neg (Nat.not_lt.mpr short)]

variable {payload : StoredPayload ν}

theorem encodePayload_writable (writable : Writable wallets numbers payload) :
    ∃ plaintext, encodePayload wallets numbers payload = some plaintext ∧
      plaintext ≠ [] ∧ plaintext.length ≤ STORED_MAX_PLAINTEXT_BYTES ∧
      (payload.type = .key → plaintext.length = 32) ∧
      decodePayload wallets numbers payload.type plaintext = some payload := by
  cases payload with
  | key key =>
    have valid : isValidPrivateKey wallets key = true := writable
    have size : key.length = 32 := by
      simp only [isValidPrivateKey, Bool.and_eq_true, decide_eq_true_eq] at valid
      exact valid.1
    refine ⟨key, ?_, ?_, ?_, fun _ => size, ?_⟩
    · rw [encodePayload, if_pos valid, if_neg (by rw [size]; decide)]
    · rintro rfl
      contradiction
    · rw [size]
      decide
    · rw [StoredPayload.type, decodePayload, if_pos valid]
  | seed seed => exact writable.elim
  | vault vault =>
    obtain ⟨valid, formed, short⟩ := writable
    have whole := JsonValue.isWellFormed_stringify numbers.toNumberFormat vault.value
    refine ⟨_, ?_, ?_, short, nofun, ?_⟩
    · rw [encodePayload, if_pos valid, encodeDocument_valid valid formed short]
    · intro empty
      have back := Units.decodeFatal_encode whole
      rw [empty] at back
      obtain ⟨unit, more, begins, -⟩ :=
        JsonValue.stringify_begins numbers.toNumberFormat vault.value
      have nothing : Units.decodeFatal [] = some [] := rfl
      rw [begins, nothing] at back
      simp at back
    · rw [StoredPayload.type, decodePayload, Units.decodeFatal_encode whole, Option.bind_some,
        strictJson_stringify valid formed, Option.bind_some, if_pos valid]

/-! ### The record -/

variable {context : StoredRecordContext} {prf salt iv : Bytes}

theorem isHex_of_isHex64 {text : Units} (hex : isHex64 text = true) : isHex text = true := by
  simp only [isHex64, isHex, Bool.and_eq_true, decide_eq_true_eq] at hex ⊢
  obtain ⟨size, every⟩ := hex
  exact ⟨by rw [size], every⟩

theorem storedRecordAad_some (lawful : packages.Lawful)
    (accepted : (credential packages context).isSome = true) (type : StoredPayloadType) :
    ∃ aad, storedRecordAad packages type context = some aad := by
  obtain ⟨id, found⟩ := Option.isSome_iff_exists.mp accepted
  have author : isHex64 context.author = true := by
    unfold credential at found
    split at found
    · next both => exact ((Bool.and_eq_true _ _).mp both).2
    · contradiction
  obtain ⟨bytes, read, -⟩ := lawful.hex _ (isHex_of_isHex64 author)
  rw [storedRecordAad, found, read]
  exact ⟨_, rfl⟩

theorem record_parts {record ciphertext : Bytes} {type : UInt8} (salted : salt.length = 32)
    (nonce : iv.length = 12) (made : record = HEADER ++ [type] ++ iv ++ salt ++ ciphertext) :
    isStoredRecord record = true ∧ record[4]? = some type ∧ (record.drop 5).take 12 = iv ∧
      (record.drop 17).take 32 = salt ∧ record.drop HEADER_BYTES = ciphertext ∧
      record.length = HEADER_BYTES + ciphertext.length := by
  have five : record.drop 5 = iv ++ (salt ++ ciphertext) := by
    simp [made, HEADER]
  have seventeen : record.drop 17 = salt ++ ciphertext := by
    have split : record.drop 17 = (record.drop 5).drop 12 := by rw [List.drop_drop]
    rw [split, five, ← nonce, List.drop_left]
  refine ⟨by rw [made]; rfl, by rw [made]; rfl, ?_, ?_, ?_, ?_⟩
  · rw [five, ← nonce, List.take_left]
  · rw [seventeen, ← salted, List.take_left]
  · have split : record.drop HEADER_BYTES = (record.drop 17).drop 32 := by
      rw [List.drop_drop]
      rfl
    rw [split, seventeen, ← salted, List.drop_left]
  · simp only [made, HEADER, HEADER_BYTES, List.length_append, List.length_cons, List.length_nil,
      salted, nonce]

theorem recordType_sealed {type : StoredPayloadType} (salted : salt.length = 32)
    (nonce : iv.length = 12) {plaintext ciphertext : Bytes}
    (size : ciphertext.length = plaintext.length + TAG_BYTES) (some_ : plaintext ≠ [])
    (short : plaintext.length ≤ STORED_MAX_PLAINTEXT_BYTES)
    (exact_ : type = .key → plaintext.length = 32) :
    recordType (HEADER ++ [TYPES type] ++ iv ++ salt ++ ciphertext) = some type := by
  obtain ⟨header, byte, -, -, -, length⟩ := @record_parts salt iv _ ciphertext (TYPES type) salted nonce rfl
  have found : [StoredPayloadType.key, .seed, .vault].find? (fun other =>
      some (TYPES other) = some (TYPES type)) = some type := by
    cases type <;> rfl
  have positive := List.length_pos_iff.mpr some_
  unfold recordType
  rw [if_pos header, byte, found, Option.bind_some, length, size]
  refine if_neg ?_
  simp only [Bool.or_eq_true, Bool.and_eq_true, decide_eq_true_eq, MAX_RECORD_BYTES, not_or, not_and]
  refine ⟨⟨by omega, ?_⟩, ?_⟩
  · intro long
    have beyond := of_decide_eq_true long
    omega
  intro isKey
  rw [exact_ isKey]
  decide

theorem openStoredRecord_sealed (lawful : packages.Lawful) {plaintext : Bytes}
    (accepted : (credential packages context).isSome = true) (some_ : plaintext ≠ [])
    (short : plaintext.length ≤ STORED_MAX_PLAINTEXT_BYTES)
    (exact_ : payload.type = .key → plaintext.length = 32) (output : prf.length = 32)
    (salted : salt.length = 32) (nonce : iv.length = 12)
    (decoded : decodePayload wallets numbers payload.type plaintext = some payload)
    (among : hasAuthor packages wallets payload context.author = some true) :
    ∃ record, sealStoredRecord packages plaintext prf payload.type context salt iv = some record ∧
      openStoredRecord packages wallets numbers record prf context = some payload := by
  obtain ⟨aad, bound⟩ := storedRecordAad_some lawful accepted payload.type
  have key : ∀ salt, recordKey packages prf salt =
      some (packages.hkdf prf salt (Units.encode LABEL)) := fun salt => if_pos output
  have guard : (plaintext.isEmpty || decide (STORED_MAX_PLAINTEXT_BYTES < plaintext.length) ||
      (decide (payload.type = .key) && decide (plaintext.length ≠ 32))) = false := by
    rw [List.isEmpty_eq_false_iff.mpr some_, decide_eq_false (Nat.not_lt.mpr short)]
    simpa using exact_
  have nonces : (decide (salt.length ≠ 32) || decide (iv.length ≠ 12)) = false := by
    simp [salted, nonce]
  refine ⟨HEADER ++ [TYPES payload.type] ++ iv ++ salt ++ packages.encrypt
    (packages.hkdf prf salt (Units.encode LABEL)) iv aad plaintext, ?_, ?_⟩
  · rw [sealStoredRecord, bound, Option.bind_some, guard, if_neg (by decide), nonces,
      if_neg (by decide), key, Option.map_some]
  · obtain ⟨-, -, ivBack, saltBack, cipherBack, -⟩ := @record_parts salt iv _
      (packages.encrypt (packages.hkdf prf salt (Units.encode LABEL)) iv aad plaintext)
      (TYPES payload.type) salted nonce rfl
    rw [openStoredRecord, recordType_sealed salted nonce (lawful.tag _ _ _ _) some_ short exact_,
      Option.bind_some, bound, Option.bind_some, saltBack, key, Option.bind_some, ivBack, cipherBack,
      lawful.opens, Option.bind_some, decoded, Option.bind_some, among, Option.bind_some, if_pos rfl]

/-! ### The author of a writable form -/

theorem validSeedPath_NIP06 : validSeedPath NIP06_PATH = true := by decide

def mainAccount : JsonValue ν :=
  .object [(Units.ofString "kind", .text (Units.ofString "derived")),
    (Units.ofString "path", .text NIP06_PATH)]

theorem accountKey_companion (seed : JsonValue ν) :
    accountKey packages wallets (companion seed) mainAccount =
      (storedSeedKey packages wallets seed NIP06_PATH).bind fun secret =>
        entry packages wallets secret (mainAccount : JsonValue ν) := by
  have kind : hasText (mainAccount : JsonValue ν) "kind" (Units.ofString "key") = false := by
    change decide (Units.ofString "derived" = Units.ofString "key") = false
    decide
  have derived : hasText (mainAccount : JsonValue ν) "kind" (Units.ofString "derived") = true := by
    change decide (Units.ofString "derived" = Units.ofString "derived") = true
    decide
  have label : (mainAccount : JsonValue ν).field "label" = none := rfl
  have default_ : (mainAccount : JsonValue ν).field "default" = none := rfl
  have path : (mainAccount : JsonValue ν).field "path" = some (.text NIP06_PATH) := rfl
  have seeded : (companion seed).field "seed" = some seed := rfl
  have usable : usableAccount packages wallets mainAccount (companion seed) = true := by
    rw [usableAccount, kind, derived, label, default_, path, seeded, if_neg (by decide)]
    exact validSeedPath_NIP06
  rw [accountKey, if_pos usable, kind, if_neg (by decide), seeded, Option.bind_some, textField, path]
  rfl

theorem hasAuthor_writable {author : Units}
    (among : hasAuthor packages wallets payload author = some true) :
    hasAuthor packages wallets (writablePayload payload) author = some true := by
  cases payload with
  | key key => exact among
  | vault vault => exact among
  | seed seed =>
    obtain ⟨keys, listed, found⟩ := Option.map_eq_some_iff.mp among
    obtain ⟨secret, derived, made⟩ := Option.bind_eq_some_iff.mp listed
    obtain ⟨key, isKey, rfl⟩ := Option.map_eq_some_iff.mp made
    obtain ⟨pubkey, known, rfl⟩ := Option.map_eq_some_iff.mp isKey
    have accounts : accountsOf (companion seed.value) = [mainAccount] := rfl
    have only : ∃ key, accountKey packages wallets (companion seed.value) mainAccount = some key ∧
        key.pubkey = pubkey := by
      rw [accountKey_companion, derived, Option.bind_some, entry, known]
      exact ⟨_, rfl, rfl⟩
    obtain ⟨key, isOnly, same⟩ := only
    rw [writablePayload, hasAuthor, storedPayloadKeys, Option.map_some, accounts,
      List.filterMap_cons_some isOnly]
    simpa [markDefault, same] using found

/-- A record opens as the writable form of what it was made of, and its text is read exactly where
it is strict, as what it says. -/
theorem record_back_and_strict (lawful : packages.Lawful) :
    (∀ (payload : StoredPayload ν) (prf : Bytes) (context : StoredRecordContext) (salt iv : Bytes),
      payload.Valid wallets numbers →
      hasAuthor packages wallets payload context.author = some true →
      (credential packages context).isSome = true → prf.length = 32 → salt.length = 32 →
      iv.length = 12 →
      ∃ record, encryptStoredRecord packages wallets numbers payload prf context salt iv =
          some record ∧
        openStoredRecord packages wallets numbers record prf context =
          some (writablePayload payload)) ∧
    ∀ (text : Units) (document : JsonValue.Document ν),
      StrictJson.strictJson numbers.toNumberFormat text = some document ↔
        JsonValue.parse numbers.toNumberFormat text = some document ∧
          ∃ node, parseText text = some node ∧ StrictJson.Sound node ∧ StrictJson.Timed node := by
  refine ⟨?_, StrictJson.strictJson_iff⟩
  intro payload prf context salt iv valid among accepted output salted nonce
  obtain ⟨plaintext, encoded, some_, short, exact_, decoded⟩ := encodePayload_writable valid
  have authored := hasAuthor_writable among
  obtain ⟨record, made, opened⟩ := openStoredRecord_sealed lawful accepted some_ short exact_ output
    salted nonce decoded authored
  obtain ⟨id, found⟩ := Option.isSome_iff_exists.mp accepted
  refine ⟨record, ?_, opened⟩
  rw [encryptStoredRecord, found, Option.bind_some, encoded, Option.bind_some, authored,
    Option.bind_some, if_pos rfl, made]

end Valid

/-! ### A vault of one key -/

/-- A cipher whose tag is sixteen zeros. -/
def plainPackages : Packages where
  toCodecs := standard
  hkdf secret _ _ := secret
  encrypt _ _ _ plaintext := plaintext ++ List.replicate 16 0
  decrypt _ _ _ ciphertext := some (ciphertext.take (ciphertext.length - 16))

theorem plainPackages_lawful : plainPackages.Lawful where
  toLawful := standard_lawful
  opens key nonce aad plaintext := by
    simp [plainPackages]
  tag key nonce aad plaintext := by
    simp [plainPackages]

def plainWallets : Wallets where
  isValidSecretKey secret := secret ≠ List.replicate 32 0
  getPublicKey := some
  mnemonicSeed entropy _ := some entropy
  HDKey := Bytes
  fromMasterSeed := some
  deriveChild node _ := some node
  index _ := 0
  privateKey := some

def zeroNumerals : Numerals Unit where
  digits _ := [48]
  read _ := ()
  back _ := rfl
  number _ := rfl
  isSafeNatural _ := true
  plain _ _ := rfl

/-- `{ updated_at: 0, accounts: [{ kind: 'key', secret: '1111…' }] }`. -/
def oneKey : JsonValue Unit :=
  .object [(Units.ofString "updated_at", .number ()),
    (Units.ofString "accounts", .array [.object [
      (Units.ofString "kind", .text (Units.ofString "key")),
      (Units.ofString "secret", .text (List.replicate 64 49))]])]

theorem unique_oneKey : oneKey.Unique := by
  refine ⟨?_, trivial, ⟨⟨?_, trivial, trivial, trivial⟩, trivial⟩, trivial⟩
  · simp only [List.map_cons, List.map_nil]
    decide
  · simp only [List.map_cons, List.map_nil]
    decide

theorem formed_oneKey : StrictJson.Formed oneKey :=
  ⟨rfl, trivial, rfl, ⟨⟨rfl, rfl, rfl, rfl, trivial⟩, trivial⟩, trivial⟩

set_option maxRecDepth 4000 in
theorem record_back_and_strict_oneKey : ∃ record,
    encryptStoredRecord plainPackages plainWallets zeroNumerals (.vault ⟨oneKey, unique_oneKey⟩)
        (List.replicate 32 7)
        ⟨Units.ofString "AQ==", Units.ofString "localhost", List.replicate 64 49⟩
        (List.replicate 32 8) (List.replicate 12 9) = some record ∧
      openStoredRecord plainPackages plainWallets zeroNumerals record (List.replicate 32 7)
        ⟨Units.ofString "AQ==", Units.ofString "localhost", List.replicate 64 49⟩ =
          some (.vault ⟨oneKey, unique_oneKey⟩) :=
  (record_back_and_strict plainPackages_lawful).1 _ _ _ _ _
    ⟨by decide, formed_oneKey, by decide⟩ rfl rfl rfl rfl rfl

end NostrWot.Vault
