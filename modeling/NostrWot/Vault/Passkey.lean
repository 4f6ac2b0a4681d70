import NostrWot.Vault.Credentials
import NostrWot.Data.Decimal

namespace NostrWot.Vault

/-! # Passkey vault records

A vault sealed under one key, which each enrolled passkey wraps for itself.
-/

open Data
open Data.JsonValue (isText textField hasText)

structure Naturals (ν : Type) extends JsonValue.NumberFormat ν where
  /-- The value of a number that is a safe natural. -/
  natural : ν → Option Nat
  ofNatural : Nat → ν
  natural_ofNatural : ∀ value, value < 2 ^ 53 → natural (ofNatural value) = some value

namespace Passkey

def PASSKEY_RP_ID : Units := Units.ofString "passkeys.nostrwot.com"

def LEGACY_PASSKEY_RP_ID : Units := Units.ofString "passkeys.nostr-wot.com"

def PASSKEY_RECOVERY_PRF_SALT : Units := Units.ofString "a2V5dHItdjE="

def PASSKEY_VAULT_VERSION : Nat := 2

def PASSKEY_BACKUP_FORMAT : Units := Units.ofString "nostr-wot-passkey-vault"

def PASSKEY_MAX_BACKUP_BYTES : Nat := 16 * 1024 * 1024

def PASSKEY_MAX_CREDENTIALS : Nat := 8

def PASSKEY_KDF_CONTEXT : Units := Units.ofString "nostr-wot/vault/passkey-wrap/v1"

def RECOVERY_SCOPES : List Units := ["private-key", "seed", "vault"].map Units.ofString

structure PasskeyProof where
  credentialId : Units
  prf : Units

structure OpenedRecord (ν : Type) where
  accounts : List (JsonValue ν)
  activeAccountId : Option Units
  cacheKey : Units
  cacheKeyMinted : Bool

section Records

variable {ν : Type} (packages : Packages) (numbers : Naturals ν)

def isTruthy : JsonValue ν → Bool
  | .null => false
  | .boolean value => value
  | .number value => numbers.natural value ≠ some 0
  | .text said => said ≠ []
  | .array _ | .object _ => true

/-- `/^[a-f0-9]{64}$/.test(value)`, which reads a list of one as what it holds; the text of any
other value has no sixty-four digits. -/
def writesHex64 : JsonValue ν → Bool
  | .text said => isHex64 said
  | .array [item] => writesHex64 item
  | _ => false

/-! ### What is checked -/

def validBase64 (min max : Nat) (value : Units) : Bool :=
  value.length ≤ (max + 2) / 3 * 4 &&
    (packages.base64ToBytes value).any fun bytes =>
      min ≤ bytes.length && bytes.length ≤ max && packages.bytesToBase64 bytes = value

def validPrfSalt (value : Units) : Bool :=
  value = PASSKEY_RECOVERY_PRF_SALT || validBase64 packages 32 32 value

def validMetadata (value : JsonValue ν) : Bool :=
  (value.field "recoveryPubkey").isNone = (value.field "recoveryScope").isNone &&
    (value.field "rpId").all (isText validPasskeyRpId) &&
    (value.field "recoveryPubkey").all writesHex64 &&
    (value.field "recoveryScope").all (isText fun scope => scope ∈ RECOVERY_SCOPES)

def validatePasskeyInput (input : JsonValue ν) : Bool :=
  (input.field "credentialId").any (isText (validBase64 packages 1 1024)) &&
    (input.field "prfSalt").any (isText (validPrfSalt packages)) && validMetadata input &&
    (input.field "prf").any (isText (validBase64 packages 32 32))

def validWrapper (value : JsonValue ν) : Bool :=
  (value.field "credentialId").any (isText (validBase64 packages 1 1024)) &&
    (value.field "prfSalt").any (isText (validPrfSalt packages)) && validMetadata value &&
    (value.field "iv").any (isText (validBase64 packages 12 12)) &&
    (value.field "ciphertext").any (isText (validBase64 packages 48 48))

def listField (value : JsonValue ν) (name : String) : Option (List (JsonValue ν)) :=
  match value.field name with
  | some (.array items) => some items
  | _ => none

def effectiveRp (passkey : JsonValue ν) : JsonValue ν :=
  match passkey.field "rpId" with
  | none | some .null => .text LEGACY_PASSKEY_RP_ID
  | some value => value

def validatePasskeyEnrollment (record : JsonValue ν) : Bool :=
  (record.field "rpId").any (isText validPasskeyRpId) &&
    (listField record "passkeys").any fun passkeys =>
      1 ≤ passkeys.length && passkeys.length ≤ PASSKEY_MAX_CREDENTIALS &&
        passkeys.all (validWrapper packages) &&
        passkeys.head?.any (fun first =>
          isText (fun rp => textField record "rpId" = some rp) (effectiveRp first)) &&
        decide ((passkeys.map fun passkey => textField passkey "credentialId").Nodup)

def naturalField (value : JsonValue ν) (name : String) : Option Nat :=
  match value.field name with
  | some (.number number) => numbers.natural number
  | _ => none

def validatePasskeyRecord (record : JsonValue ν) : Bool :=
  validatePasskeyEnrollment packages record &&
    naturalField numbers record "version" = some PASSKEY_VAULT_VERSION &&
    hasText record "protection" (Units.ofString "passkey") &&
    (record.field "iv").any (isText (validBase64 packages 12 12)) &&
    (record.field "ciphertext").any (isText (validBase64 packages 16 PASSKEY_MAX_BACKUP_BYTES))

def parsePasskeyBackup (text : Units) : Option (JsonValue ν) :=
  if PASSKEY_MAX_BACKUP_BYTES < text.length then none
  else
    (JsonValue.parse numbers.toNumberFormat text).bind fun value =>
      if hasText value.value "format" PASSKEY_BACKUP_FORMAT then
        (value.value.field "vault").bind fun vault =>
          if validatePasskeyRecord packages numbers vault then some vault else none
      else none

def backupOf (record : JsonValue ν) : JsonValue ν :=
  .object [(Units.ofString "format", .text PASSKEY_BACKUP_FORMAT), (Units.ofString "vault", record)]

def serializePasskeyBackup (record : JsonValue ν) : Option Units :=
  if validatePasskeyRecord packages numbers record then
    let text := JsonValue.stringify numbers.toNumberFormat (backupOf record)
    if PASSKEY_MAX_BACKUP_BYTES < text.length then none else some text
  else none

/-! ### The vault key -/

def wrappingKey (input : JsonValue ν) : Option Bytes :=
  if validatePasskeyInput packages input then do
    let prf ← packages.base64ToBytes ((textField input "prf").getD [])
    let salt ← packages.base64ToBytes ((textField input "prfSalt").getD [])
    return packages.hkdf prf salt (Units.encode PASSKEY_KDF_CONTEXT)
  else none

/-- `value[name]` as an item of a list that is written as JSON. -/
def itemField (value : JsonValue ν) (name : String) : JsonValue ν := (value.field name).getD .null

def bound (wrapper : JsonValue ν) : List (JsonValue ν) :=
  [.text PASSKEY_KDF_CONTEXT, effectiveRp wrapper, itemField wrapper "credentialId",
    itemField wrapper "prfSalt"] ++
    if (wrapper.field "recoveryPubkey").any (isTruthy numbers) then
      [itemField wrapper "recoveryPubkey", itemField wrapper "recoveryScope"]
    else []

def binding (wrapper : JsonValue ν) : Bytes :=
  Units.encode (JsonValue.stringify numbers.toNumberFormat (.array (bound numbers wrapper)))

/-- `{ [name]: value[name] }`, where it is defined. -/
def copied (value : JsonValue ν) (name : String) : List (Units × JsonValue ν) :=
  ((value.field name).map fun inside => (Units.ofString name, inside)).toList

def wrapVaultKey (bytes : Bytes) (input : JsonValue ν) (iv : Bytes) : Option (JsonValue ν) :=
  if bytes.length ≠ 32 then none
  else
    (wrappingKey packages input).map fun key =>
      .object ((if (input.field "rpId").any (isTruthy numbers) then copied input "rpId" else []) ++
        (if (input.field "recoveryPubkey").any (isTruthy numbers) then
          copied input "recoveryPubkey" ++ copied input "recoveryScope" else []) ++
        copied input "credentialId" ++ copied input "prfSalt" ++
        [(Units.ofString "iv", .text (packages.bytesToBase64 iv)),
          (Units.ofString "ciphertext",
            .text (packages.bytesToBase64 (packages.encrypt key iv (binding numbers input) bytes)))])

def withText (value : JsonValue ν) (name : String) (said : Units) : JsonValue ν :=
  match value with
  | .object fields => .object (JsonValue.setField fields (Units.ofString name) (.text said))
  | _ => .object [(Units.ofString name, .text said)]

def unwrapVaultKey (wrapper : JsonValue ν) (proof : PasskeyProof) : Option Bytes :=
  if validWrapper packages wrapper && textField wrapper "credentialId" = some proof.credentialId then do
    let key ← wrappingKey packages (withText wrapper "prf" proof.prf)
    let iv ← packages.base64ToBytes ((textField wrapper "iv").getD [])
    let ciphertext ← packages.base64ToBytes ((textField wrapper "ciphertext").getD [])
    packages.decrypt key iv (binding numbers wrapper) ciphertext
  else none

def withPasskeyVaultKey {β : Type} (record : JsonValue ν) (proof : PasskeyProof)
    (operation : Bytes → Option β) : Option β :=
  if validatePasskeyRecord packages numbers record then do
    let passkeys ← listField record "passkeys"
    let wrapper ← passkeys.find? fun passkey =>
      textField passkey "credentialId" = some proof.credentialId
    let key ← unwrapVaultKey packages numbers wrapper proof
    operation key
  else none

/-! ### The payload -/

/-- AES-GCM of a text under a vault key, without associated data. -/
def encryptText (key iv : Bytes) (plaintext : Units) : Option Bytes :=
  if key.length = 32 then some (packages.encrypt key iv [] (Units.encode plaintext)) else none

def decryptText (key iv ciphertext : Bytes) : Option Units :=
  if key.length = 32 then (packages.decrypt key iv [] ciphertext).map Units.decode else none

/-- `payload.cacheKey || bytesToBase64(randomBytes(32))`. -/
def cacheKeyOf (payload : JsonValue ν) (random : Bytes) : Units :=
  match textField payload "cacheKey" with
  | some said => if said = [] then packages.bytesToBase64 random else said
  | none => packages.bytesToBase64 random

def sealPasskeyPayload (payload : JsonValue ν) (key : Bytes) (enrollment : JsonValue ν)
    (random iv : Bytes) : Option (JsonValue ν) :=
  if validatePasskeyEnrollment packages enrollment then do
    let text := JsonValue.stringify numbers.toNumberFormat
      (withText payload "cacheKey" (cacheKeyOf packages payload random))
    let ciphertext ← encryptText packages key iv text
    let record : JsonValue ν := .object [
      (Units.ofString "version", .number (numbers.ofNatural PASSKEY_VAULT_VERSION)),
      (Units.ofString "protection", .text (Units.ofString "passkey")),
      (Units.ofString "rpId", itemField enrollment "rpId"),
      (Units.ofString "passkeys", itemField enrollment "passkeys"),
      (Units.ofString "iv", .text (packages.bytesToBase64 iv)),
      (Units.ofString "ciphertext", .text (packages.bytesToBase64 ciphertext))]
    if validatePasskeyRecord packages numbers record then some record else none
  else none

def activeOf (accounts : List (JsonValue ν)) (payload : JsonValue ν) : Option (Option Units) :=
  match payload.field "activeAccountId" with
  | some .null => some none
  | some (.text id) =>
    if accounts.any (fun account => textField account "id" = some id) then some (some id) else none
  | _ => none

def openedOf (payload : JsonValue ν) (random : Bytes) : Option (OpenedRecord ν) := do
  let accounts ← listField payload "accounts"
  let active ← activeOf accounts payload
  if (payload.field "cacheKey").all (isText (validBase64 packages 32 32)) then
    some
      { accounts, activeAccountId := active, cacheKey := cacheKeyOf packages payload random,
        cacheKeyMinted := (payload.field "cacheKey").isNone }
  else none

def openPasskeyRecord (record : JsonValue ν) (proof : PasskeyProof) (random : Bytes) :
    Option (OpenedRecord ν) :=
  withPasskeyVaultKey packages numbers record proof fun key => do
    let iv ← packages.base64ToBytes ((textField record "iv").getD [])
    let ciphertext ← packages.base64ToBytes ((textField record "ciphertext").getD [])
    let text ← decryptText packages key iv ciphertext
    let parsed ← JsonValue.parse numbers.toNumberFormat text
    openedOf packages parsed.value random

def createPasskeyRecord (payload input : JsonValue ν) (key nonce random iv : Bytes) :
    Option (JsonValue ν) := do
  let rp := (textField input "rpId").getD PASSKEY_RP_ID
  let wrapper ← wrapVaultKey packages numbers key (withText input "rpId" rp) nonce
  sealPasskeyPayload packages numbers payload key
    (.object [(Units.ofString "rpId", .text rp), (Units.ofString "passkeys", .array [wrapper])])
    random iv

end Records

/-! ## Fields -/

section Fields

variable {ν : Type} {packages : Packages} {numbers : Naturals ν}

theorem field_withText {fields : List (Units × JsonValue ν)} {name other : String} {said : Units} :
    (withText (.object fields) other said).field name =
      if Units.ofString name = Units.ofString other then some (.text said)
      else (JsonValue.object fields).field name := by
  rw [withText, JsonValue.field, JsonValue.field]
  induction fields with
  | nil =>
    rw [JsonValue.setField, List.find?_cons]
    by_cases same : Units.ofString other = Units.ofString name
    · simp [same]
    · have different : ¬ Units.ofString name = Units.ofString other := fun equal => same equal.symm
      simp [same, different]
  | cons field rest ih =>
    obtain ⟨first, before⟩ := field
    rw [JsonValue.setField]
    by_cases here : first = Units.ofString other
    · rw [if_pos here, List.find?_cons, List.find?_cons, here]
      by_cases same : Units.ofString other = Units.ofString name
      · simp [same]
      · have different : ¬ Units.ofString name = Units.ofString other := fun equal => same equal.symm
        simp [same, different]
    · rw [if_neg here, List.find?_cons, List.find?_cons]
      by_cases found : first = Units.ofString name
      · have different : ¬ Units.ofString name = Units.ofString other := fun equal =>
          here (found.trans equal)
        simp [found, different]
      · simpa [found] using ih

theorem isText_some {value : JsonValue ν} {name : String} {test : Units → Bool}
    (valid : (value.field name).any (isText test) = true) :
    ∃ said, value.field name = some (.text said) ∧ textField value name = some said ∧
      test said = true := by
  cases found : value.field name with
  | none =>
    rw [found] at valid
    contradiction
  | some inside =>
    rw [found, Option.any_some] at valid
    cases inside with
    | text said => exact ⟨said, rfl, by rw [textField, found], valid⟩
    | _ => contradiction

theorem validBase64_parts {min max : Nat} {value : Units}
    (valid : validBase64 packages min max value = true) :
    ∃ bytes, packages.base64ToBytes value = some bytes ∧ packages.bytesToBase64 bytes = value ∧
      min ≤ bytes.length ∧ bytes.length ≤ max := by
  obtain ⟨-, inner⟩ := (Bool.and_eq_true _ _).mp valid
  cases read : packages.base64ToBytes value with
  | none =>
    rw [read] at inner
    contradiction
  | some bytes =>
    simp only [read, Option.any_some, Bool.and_eq_true, decide_eq_true_eq] at inner
    exact ⟨bytes, rfl, inner.2, inner.1.1, inner.1.2⟩

theorem isTruthy_of_writesHex64 {value : JsonValue ν} (hex : writesHex64 value = true) :
    isTruthy numbers value = true := by
  cases value with
  | text said =>
    have some_ : said ≠ [] := by
      rintro rfl
      contradiction
    simpa [isTruthy] using some_
  | array items => rfl
  | _ => contradiction

theorem validMetadata_parts {value : JsonValue ν} (valid : validMetadata value = true) :
    (value.field "rpId" = none ∨ ∃ rp, value.field "rpId" = some (.text rp) ∧ rp ≠ []) ∧
      ((value.field "recoveryPubkey" = none ∧ value.field "recoveryScope" = none) ∨
        ∃ author scope, value.field "recoveryPubkey" = some author ∧
          value.field "recoveryScope" = some scope ∧ writesHex64 author = true) := by
  simp only [validMetadata, Bool.and_eq_true, decide_eq_true_eq] at valid
  obtain ⟨⟨⟨both, rp⟩, author⟩, -⟩ := valid
  constructor
  · cases found : value.field "rpId" with
    | none => exact .inl rfl
    | some inside =>
      rw [found, Option.all_some] at rp
      cases inside with
      | text said =>
        refine .inr ⟨said, rfl, ?_⟩
        rintro rfl
        contradiction
      | _ => contradiction
  · cases found : value.field "recoveryPubkey" with
    | none =>
      rw [found] at both
      exact .inl ⟨rfl, Option.isNone_iff_eq_none.mp both.symm⟩
    | some inside =>
      rw [found, Option.all_some] at author
      rw [found] at both
      cases limit : value.field "recoveryScope" with
      | none =>
        rw [limit] at both
        contradiction
      | some scope => exact .inr ⟨inside, scope, rfl, rfl, author⟩

theorem validatePasskeyInput_parts {input : JsonValue ν}
    (valid : validatePasskeyInput packages input = true) :
    (∃ credential, input.field "credentialId" = some (.text credential)) ∧
      (∃ salt, input.field "prfSalt" = some (.text salt)) ∧ validMetadata input = true ∧
      ∃ prf, input.field "prf" = some (.text prf) ∧ textField input "prf" = some prf ∧
        validBase64 packages 32 32 prf = true := by
  simp only [validatePasskeyInput, Bool.and_eq_true] at valid
  obtain ⟨⟨⟨credential, salt⟩, metadata⟩, prf⟩ := valid
  obtain ⟨id, found, -⟩ := isText_some credential
  obtain ⟨said, salted, -⟩ := isText_some salt
  exact ⟨⟨id, found⟩, ⟨said, salted⟩, metadata, isText_some prf⟩

theorem wrapVaultKey_parts {bytes iv : Bytes} {input wrapper : JsonValue ν}
    (wrapped : wrapVaultKey packages numbers bytes input iv = some wrapper) :
    ∃ key, wrappingKey packages input = some key ∧ bytes.length = 32 ∧
      (∃ fields, wrapper = .object fields) ∧
      (∀ name ∈ ["rpId", "recoveryPubkey", "recoveryScope", "credentialId", "prfSalt"],
        wrapper.field name = input.field name) ∧
      wrapper.field "iv" = some (.text (packages.bytesToBase64 iv)) ∧
      wrapper.field "ciphertext" = some (.text (packages.bytesToBase64
        (packages.encrypt key iv (binding numbers input) bytes))) := by
  unfold wrapVaultKey at wrapped
  split at wrapped
  · contradiction
  · next size =>
    obtain ⟨key, made, shape⟩ := Option.map_eq_some_iff.mp wrapped
    have valid : validatePasskeyInput packages input = true := by
      unfold wrappingKey at made
      split at made
      · assumption
      · contradiction
    obtain ⟨⟨id, isId⟩, ⟨salt, isSalt⟩, metadata, -⟩ := validatePasskeyInput_parts valid
    obtain ⟨rp, recovery⟩ := validMetadata_parts metadata
    refine ⟨key, made, not_not.mp size, ⟨_, shape.symm⟩, ?_⟩
    simp only [List.forall_mem_cons]
    rw [← shape]
    simp only [copied, isId, isSalt]
    rcases rp with noRp | ⟨rp, isRp, some_⟩
    · rcases recovery with ⟨noAuthor, noScope⟩ | ⟨author, scope, isAuthor, isScope, hex⟩
      · simp only [noRp, noAuthor, noScope]
        exact ⟨⟨rfl, rfl, rfl, rfl, rfl, nofun⟩, rfl, rfl⟩
      · have truthy := @isTruthy_of_writesHex64 ν numbers _ hex
        simp only [noRp, isAuthor, isScope, Option.any_some, truthy]
        exact ⟨⟨rfl, rfl, rfl, rfl, rfl, nofun⟩, rfl, rfl⟩
    · have named : isTruthy numbers (.text rp) = true := by simpa [isTruthy] using some_
      rcases recovery with ⟨noAuthor, noScope⟩ | ⟨author, scope, isAuthor, isScope, hex⟩
      · simp only [isRp, noAuthor, noScope, Option.any_some, named]
        exact ⟨⟨rfl, rfl, rfl, rfl, rfl, nofun⟩, rfl, rfl⟩
      · have truthy := @isTruthy_of_writesHex64 ν numbers _ hex
        simp only [isRp, isAuthor, isScope, Option.any_some, truthy, named]
        exact ⟨⟨rfl, rfl, rfl, rfl, rfl, nofun⟩, rfl, rfl⟩

theorem isObject_of_field {value inside : JsonValue ν} {name : String}
    (found : value.field name = some inside) : ∃ fields, value = .object fields := by
  cases value with
  | object fields => exact ⟨fields, rfl⟩
  | _ => contradiction

def BOUND_NAMES : List String := ["rpId", "recoveryPubkey", "recoveryScope", "credentialId", "prfSalt"]

def SameBinding (passkey other : JsonValue ν) : Prop :=
  effectiveRp passkey = effectiveRp other ∧
    ∀ name ∈ ["credentialId", "prfSalt", "recoveryPubkey", "recoveryScope"],
      passkey.field name = other.field name

theorem binding_fields {passkey other : JsonValue ν}
    (same : ∀ name ∈ BOUND_NAMES, passkey.field name = other.field name) :
    binding numbers passkey = binding numbers other := by
  simp only [BOUND_NAMES, List.forall_mem_cons] at same
  obtain ⟨rp, author, scope, id, salt, -⟩ := same
  simp only [binding, bound, effectiveRp, itemField, rp, author, scope, id, salt]

theorem wrappingKey_fields {input other : JsonValue ν}
    (same : ∀ name ∈ "prf" :: BOUND_NAMES, input.field name = other.field name) :
    wrappingKey packages input = wrappingKey packages other := by
  simp only [BOUND_NAMES, List.forall_mem_cons] at same
  obtain ⟨prf, rp, author, scope, id, salt, -⟩ := same
  unfold wrappingKey validatePasskeyInput validMetadata textField
  rw [prf, rp, author, scope, id, salt]

theorem wrappingKey_parts {input : JsonValue ν} {key : Bytes}
    (made : wrappingKey packages input = some key) :
    ∃ prf salt, textField input "prf" = some (packages.bytesToBase64 prf) ∧ prf.length = 32 ∧
      packages.base64ToBytes ((textField input "prfSalt").getD []) = some salt ∧
      key = packages.hkdf prf salt (Units.encode PASSKEY_KDF_CONTEXT) := by
  unfold wrappingKey at made
  split at made
  · next valid =>
    obtain ⟨-, -, -, said, -, isPrf, canonical⟩ := validatePasskeyInput_parts valid
    obtain ⟨bytes, read, back, low, high⟩ := validBase64_parts canonical
    obtain ⟨prf, isOutput, made⟩ := Option.bind_eq_some_iff.mp made
    obtain ⟨salt, isSalt, made⟩ := Option.bind_eq_some_iff.mp made
    rw [isPrf, Option.getD_some, read] at isOutput
    cases isOutput
    cases made
    exact ⟨bytes, salt, by rw [isPrf, back], Nat.le_antisymm high low, isSalt, rfl⟩
  · contradiction

theorem unwrapVaultKey_parts {wrapper : JsonValue ν} {proof : PasskeyProof} {bytes : Bytes}
    (opened : unwrapVaultKey packages numbers wrapper proof = some bytes) :
    validWrapper packages wrapper = true ∧
      ∃ key iv ciphertext, wrappingKey packages (withText wrapper "prf" proof.prf) = some key ∧
        packages.base64ToBytes ((textField wrapper "iv").getD []) = some iv ∧
        packages.base64ToBytes ((textField wrapper "ciphertext").getD []) = some ciphertext ∧
        packages.decrypt key iv (binding numbers wrapper) ciphertext = some bytes := by
  unfold unwrapVaultKey at opened
  split at opened
  · next both =>
    obtain ⟨key, made, opened⟩ := Option.bind_eq_some_iff.mp opened
    obtain ⟨iv, isIv, opened⟩ := Option.bind_eq_some_iff.mp opened
    obtain ⟨ciphertext, isCiphertext, opened⟩ := Option.bind_eq_some_iff.mp opened
    exact ⟨((Bool.and_eq_true _ _).mp both).1, key, iv, ciphertext, made, isIv, isCiphertext, opened⟩
  · contradiction

theorem unwrapVaultKey_own (lawful : packages.Lawful) {bytes nonce : Bytes}
    {input wrapper : JsonValue ν} {proof : PasskeyProof}
    (wrapped : wrapVaultKey packages numbers bytes input nonce = some wrapper)
    (valid : validWrapper packages wrapper = true)
    (id : textField input "credentialId" = some proof.credentialId)
    (output : textField input "prf" = some proof.prf) :
    unwrapVaultKey packages numbers wrapper proof = some bytes := by
  obtain ⟨key, made, -, ⟨fields, rfl⟩, same, iv, ciphertext⟩ := wrapVaultKey_parts wrapped
  have named : textField (.object fields) "credentialId" = some proof.credentialId := by
    rw [← id, textField, textField, same "credentialId" (by decide)]
  have again : wrappingKey packages (withText (.object fields) "prf" proof.prf) = some key := by
    rw [← made]
    refine wrappingKey_fields (List.forall_mem_cons.mpr ⟨?_, ?_⟩)
    · rw [field_withText, if_pos rfl]
      unfold textField at output
      split at output
      · next said found =>
        cases output
        exact found.symm
      · contradiction
    · intro name among
      have other : Units.ofString name ≠ Units.ofString "prf" := by
        simp only [BOUND_NAMES, List.mem_cons, List.not_mem_nil, or_false] at among
        rcases among with rfl | rfl | rfl | rfl | rfl <;> decide
      rw [field_withText, if_neg other]
      exact same name among
  have ivText : textField (.object fields) "iv" = some (packages.bytesToBase64 nonce) := by
    rw [textField, iv]
  have cipherText : textField (.object fields) "ciphertext" = some (packages.bytesToBase64
      (packages.encrypt key nonce (binding numbers input) bytes)) := by
    rw [textField, ciphertext]
  have bound : binding numbers (.object fields) = binding numbers input := binding_fields same
  rw [unwrapVaultKey, valid, named, again, ivText, cipherText, bound]
  simp [lawful.base64, lawful.opens]

end Fields

/-! ## What only a passkey's own proof opens -/

section Bound

variable {ν : Type} {packages : Packages} {numbers : Naturals ν}

def Binds (packages : Packages) (key nonce aad plaintext : Bytes) : Prop :=
  ∀ key' aad' opened,
    packages.decrypt key' nonce aad' (packages.encrypt key nonce aad plaintext) = some opened →
      key' = key ∧ aad' = aad

/-- Two outputs of an authenticator give two keys. -/
def Separates (packages : Packages) : Prop :=
  ∀ salt info one other, one.length = 32 → other.length = 32 →
    packages.hkdf one salt info = packages.hkdf other salt info → one = other

theorem sameBinding_of_binding {passkey other : JsonValue ν} (unique : passkey.Unique)
    (unique' : other.Unique) (valid : validMetadata passkey = true)
    (valid' : validMetadata other = true) {id id' salt salt' : JsonValue ν}
    (isId : passkey.field "credentialId" = some id) (isId' : other.field "credentialId" = some id')
    (isSalt : passkey.field "prfSalt" = some salt) (isSalt' : other.field "prfSalt" = some salt')
    (same : binding numbers passkey = binding numbers other) : SameBinding passkey other := by
  have whole : ∀ passkey : JsonValue ν, passkey.Unique →
      (JsonValue.array (bound numbers passkey)).Unique := by
    intro passkey unique
    have inside : ∀ name, (itemField passkey name).Unique := by
      intro name
      rw [itemField]
      cases found : passkey.field name with
      | none => trivial
      | some value => exact JsonValue.unique_field unique found
    have rp : (effectiveRp passkey).Unique := by
      unfold effectiveRp
      split
      · trivial
      · trivial
      · next value _ found => exact JsonValue.unique_field unique found
    refine JsonValue.uniqueItems_of_mem ?_
    intro item among
    simp only [bound, List.mem_append, List.mem_cons, List.not_mem_nil, or_false] at among
    rcases among with (rfl | rfl | rfl | rfl) | among
    · trivial
    · exact rp
    · exact inside _
    · exact inside _
    · split at among
      · simp only [List.mem_cons, List.not_mem_nil, or_false] at among
        rcases among with rfl | rfl
        · exact inside _
        · exact inside _
      · contradiction
  have texts : JsonValue.stringify numbers.toNumberFormat (.array (bound numbers passkey)) =
      JsonValue.stringify numbers.toNumberFormat (.array (bound numbers other)) := by
    have decoded := congrArg Units.decodeFatal same
    rw [binding, binding, Units.decodeFatal_encode (JsonValue.isWellFormed_stringify _ _),
      Units.decodeFatal_encode (JsonValue.isWellFormed_stringify _ _)] at decoded
    exact Option.some_inj.mp decoded
  have items := JsonValue.stringify_injective _ (whole passkey unique) (whole other unique') texts
  simp only [JsonValue.array.injEq, bound, itemField, isId, isId', isSalt, isSalt', Option.getD_some,
    List.cons_append, List.nil_append, List.cons.injEq, true_and] at items
  obtain ⟨rp, sameId, sameSalt, rest⟩ := items
  refine ⟨rp, ?_⟩
  simp only [List.forall_mem_cons]
  rw [isId, isId', isSalt, isSalt', sameId, sameSalt]
  obtain ⟨-, recovery⟩ := validMetadata_parts valid
  obtain ⟨-, recovery'⟩ := validMetadata_parts valid'
  rcases recovery with ⟨noAuthor, noScope⟩ | ⟨author, scope, isAuthor, isScope, hex⟩
  · rcases recovery' with ⟨noAuthor', noScope'⟩ | ⟨author', scope', isAuthor', isScope', hex'⟩
    · rw [noAuthor, noAuthor', noScope, noScope']
      exact ⟨rfl, rfl, rfl, rfl, List.forall_mem_nil _⟩
    · simp [noAuthor, isAuthor', @isTruthy_of_writesHex64 ν numbers _ hex'] at rest
  · have truthy := @isTruthy_of_writesHex64 ν numbers _ hex
    rcases recovery' with ⟨noAuthor', noScope'⟩ | ⟨author', scope', isAuthor', isScope', hex'⟩
    · simp [isAuthor, noAuthor', truthy] at rest
    · have truthy' := @isTruthy_of_writesHex64 ν numbers _ hex'
      simp only [isAuthor, isAuthor', isScope, isScope', Option.any_some, truthy, truthy', if_true,
        Option.getD_some, List.cons.injEq, and_true] at rest
      rw [isAuthor, isAuthor', isScope, isScope', rest.1, rest.2]
      exact ⟨rfl, rfl, rfl, rfl, List.forall_mem_nil _⟩

/-! ### Opening a record -/

theorem find_of_nodup {α β : Type} [DecidableEq β] {name : α → β} {list : List α}
    (apart : (list.map name).Nodup) {item : α} (among : item ∈ list) :
    list.find? (fun other => name other = name item) = some item := by
  induction list with
  | nil => contradiction
  | cons first rest ih =>
    rw [List.map_cons, List.nodup_cons] at apart
    rcases List.mem_cons.mp among with rfl | later
    · exact List.find?_cons_of_pos (by simp)
    · have different : name first ≠ name item := by
        intro same
        exact apart.1 (same ▸ List.mem_map_of_mem later)
      rw [List.find?_cons_of_neg (by simpa using different)]
      exact ih apart.2 later

variable {record : JsonValue ν}

theorem validatePasskeyRecord_parts (valid : validatePasskeyRecord packages numbers record = true) :
    ∃ passkeys, listField record "passkeys" = some passkeys ∧
      (∀ passkey ∈ passkeys, validWrapper packages passkey = true) ∧
      (passkeys.map fun passkey => textField passkey "credentialId").Nodup := by
  simp only [validatePasskeyRecord, validatePasskeyEnrollment, Bool.and_eq_true] at valid
  obtain ⟨⟨⟨⟨⟨-, listed⟩, -⟩, -⟩, -⟩, -⟩ := valid
  cases found : listField record "passkeys" with
  | none =>
    rw [found] at listed
    contradiction
  | some passkeys =>
    simp only [found, Option.any_some, Bool.and_eq_true, decide_eq_true_eq, List.all_eq_true]
      at listed
    exact ⟨passkeys, rfl, listed.1.1.2, listed.2⟩

variable {proof : PasskeyProof}

theorem withPasskeyVaultKey_listed {β : Type} {wrapper : JsonValue ν}
    {passkeys : List (JsonValue ν)} (valid : validatePasskeyRecord packages numbers record = true)
    (listed : listField record "passkeys" = some passkeys) (among : wrapper ∈ passkeys)
    (named : textField wrapper "credentialId" = some proof.credentialId)
    (operation : Bytes → Option β) :
    withPasskeyVaultKey packages numbers record proof operation =
      (unwrapVaultKey packages numbers wrapper proof).bind operation := by
  obtain ⟨list, isList, -, apart⟩ := validatePasskeyRecord_parts valid
  rw [listed] at isList
  cases isList
  have found := find_of_nodup apart among
  rw [named] at found
  rw [withPasskeyVaultKey, if_pos valid, listed]
  simp [found]

theorem withPasskeyVaultKey_missing {β : Type} {passkeys : List (JsonValue ν)}
    (listed : listField record "passkeys" = some passkeys)
    (missing : ∀ wrapper ∈ passkeys, textField wrapper "credentialId" ≠ some proof.credentialId)
    (operation : Bytes → Option β) :
    withPasskeyVaultKey packages numbers record proof operation = none := by
  have none_ : passkeys.find? (fun passkey =>
      textField passkey "credentialId" = some proof.credentialId) = none := by
    rw [List.find?_eq_none]
    intro wrapper among
    simpa using missing wrapper among
  unfold withPasskeyVaultKey
  split
  · rw [listed]
    simp [none_]
  · rfl

theorem sealPasskeyPayload_parts {payload enrollment : JsonValue ν} {key random iv : Bytes}
    {wrappers : List (JsonValue ν)}
    (made : sealPasskeyPayload packages numbers payload key enrollment random iv = some record)
    (listed : listField enrollment "passkeys" = some wrappers) :
    key.length = 32 ∧ validatePasskeyRecord packages numbers record = true ∧
      listField record "passkeys" = some wrappers ∧
      textField record "iv" = some (packages.bytesToBase64 iv) ∧
      textField record "ciphertext" = some (packages.bytesToBase64 (packages.encrypt key iv []
        (Units.encode (JsonValue.stringify numbers.toNumberFormat
          (withText payload "cacheKey" (cacheKeyOf packages payload random)))))) ∧
      (enrollment.Unique → record.Unique) := by
  unfold sealPasskeyPayload at made
  split at made
  · obtain ⟨ciphertext, ciphered, made⟩ := Option.bind_eq_some_iff.mp made
    unfold encryptText at ciphered
    split at ciphered
    · next size =>
      cases ciphered
      dsimp only at made
      split at made
      · next valid =>
        have isList : itemField enrollment "passkeys" = .array wrappers := by
          unfold listField at listed
          split at listed
          · next items found =>
            cases listed
            rw [itemField, found, Option.getD_some]
          · contradiction
        cases made
        refine ⟨size, valid, ?_, rfl, rfl, ?_⟩
        · rw [isList]
          rfl
        · intro unique
          have inside : ∀ name, (itemField enrollment name).Unique := by
            intro name
            rw [itemField]
            cases found : enrollment.field name with
            | none => trivial
            | some value => exact JsonValue.unique_field unique found
          refine ⟨?_, trivial, trivial, inside _, inside _, trivial, trivial, trivial⟩
          simp only [List.map_cons, List.map_nil]
          decide
      · contradiction
    · contradiction
  · contradiction

theorem parsePasskeyBackup_serialized {text : Units} (unique : record.Unique)
    (serialized : serializePasskeyBackup packages numbers record = some text) :
    parsePasskeyBackup packages numbers text = some record := by
  have whole : (backupOf record).Unique := by
    refine ⟨?_, trivial, unique, trivial⟩
    simp only [List.map_cons, List.map_nil]
    decide
  unfold serializePasskeyBackup at serialized
  split at serialized
  · next valid =>
    dsimp only at serialized
    split at serialized
    · contradiction
    · next short =>
      cases serialized
      have formatted : hasText (backupOf record) "format" PASSKEY_BACKUP_FORMAT = true := by
        change decide (PASSKEY_BACKUP_FORMAT = PASSKEY_BACKUP_FORMAT) = true
        exact decide_eq_true rfl
      have held : (backupOf record).field "vault" = some record := rfl
      rw [parsePasskeyBackup, if_neg short, JsonValue.parse_stringify _ ⟨_, whole⟩,
        Option.bind_some, formatted, if_pos rfl, held, Option.bind_some, if_pos valid]
  · contradiction

theorem openedOf_withText {payload : JsonValue.Document ν} {accounts : List (JsonValue ν)}
    {active : Option Units} {said : Units} (random : Bytes)
    (isAccounts : listField payload.value "accounts" = some accounts)
    (isActive : activeOf accounts payload.value = some active)
    (canonical : validBase64 packages 32 32 said = true) (some_ : said ≠ []) :
    openedOf packages (withText payload.value "cacheKey" said) random =
      some ⟨accounts, active, said, false⟩ := by
  obtain ⟨value, unique⟩ := payload
  obtain ⟨fields, rfl⟩ : ∃ fields, value = .object fields := by
    unfold listField at isAccounts
    split at isAccounts
    · next items found => exact isObject_of_field found
    · contradiction
  have cached : (withText (.object fields) "cacheKey" said).field "cacheKey" = some (.text said) := by
    rw [field_withText, if_pos rfl]
  have kept : (withText (.object fields) "cacheKey" said).field "accounts" =
      (JsonValue.object fields).field "accounts" := by
    rw [field_withText, if_neg (by decide)]
  have chosen : (withText (.object fields) "cacheKey" said).field "activeAccountId" =
      (JsonValue.object fields).field "activeAccountId" := by
    rw [field_withText, if_neg (by decide)]
  have accounts_ : listField (withText (.object fields) "cacheKey" said) "accounts" =
      some accounts := by
    rw [← isAccounts, listField, listField, kept]
  have active_ : activeOf accounts (withText (.object fields) "cacheKey" said) = some active := by
    rw [← isActive, activeOf, activeOf, chosen]
  have valid : isText (validBase64 packages 32 32) (.text said : JsonValue ν) = true := canonical
  have key : cacheKeyOf packages (withText (.object fields) "cacheKey" said) random = said := by
    rw [cacheKeyOf, textField, cached]
    exact if_neg some_
  rw [openedOf, accounts_]
  simp only [Option.bind_eq_bind, Option.bind_some, active_, cached, Option.all_some, valid,
    if_true, key]
  rfl

/-- A passkey enrolled with a vault, and the nonce that its wrapper was sealed with. -/
structure Enrolled (ν : Type) where
  input : JsonValue.Document ν
  nonce : Bytes

def IsProof (input : JsonValue ν) (proof : PasskeyProof) : Prop :=
  textField input "credentialId" = some proof.credentialId ∧
    textField input "prf" = some proof.prf

def Wraps (packages : Packages) (numbers : Naturals ν) (key : Bytes) (passkey : Enrolled ν)
    (wrapper : JsonValue ν) : Prop :=
  wrapVaultKey packages numbers key passkey.input.value passkey.nonce = some wrapper

theorem exists_of_forall₂ {α β : Type} {relation : α → β → Prop} {list : List α} {other : List β}
    (related : List.Forall₂ relation list other) :
    (∀ one ∈ list, ∃ two ∈ other, relation one two) ∧
      ∀ two ∈ other, ∃ one ∈ list, relation one two := by
  induction related with
  | nil => exact ⟨nofun, nofun⟩
  | @cons one two list other here _ ih =>
    refine ⟨List.forall_mem_cons.mpr ⟨⟨two, List.mem_cons_self, here⟩, ?_⟩,
      List.forall_mem_cons.mpr ⟨⟨one, List.mem_cons_self, here⟩, ?_⟩⟩
    · intro later among
      obtain ⟨found, held, same⟩ := ih.1 later among
      exact ⟨found, List.mem_cons_of_mem _ held, same⟩
    · intro later among
      obtain ⟨found, held, same⟩ := ih.2 later among
      exact ⟨found, List.mem_cons_of_mem _ held, same⟩

theorem opened_bound (lawful : packages.Lawful) {key : Bytes} {passkey : Enrolled ν}
    {wrapper opening : JsonValue ν} {opened : Bytes}
    (wraps : Wraps packages numbers key passkey wrapper)
    (binds : ∀ wrapping, wrappingKey packages passkey.input.value = some wrapping →
      Binds packages wrapping passkey.nonce (binding numbers passkey.input.value) key)
    (iv : textField opening "iv" = textField wrapper "iv")
    (ciphertext : textField opening "ciphertext" = textField wrapper "ciphertext")
    (unwrapped : unwrapVaultKey packages numbers opening proof = some opened) :
    binding numbers opening = binding numbers passkey.input.value ∧
      wrappingKey packages (withText opening "prf" proof.prf) =
        wrappingKey packages passkey.input.value := by
  obtain ⟨wrapping, made, -, -, -, ivField, cipherField⟩ := wrapVaultKey_parts wraps
  obtain ⟨-, key', iv', ciphertext', made', isIv, isCiphertext, decrypted⟩ :=
    unwrapVaultKey_parts unwrapped
  rw [iv, textField, ivField, Option.getD_some, lawful.base64] at isIv
  rw [ciphertext, textField, cipherField, Option.getD_some, lawful.base64] at isCiphertext
  cases isIv
  cases isCiphertext
  obtain ⟨rfl, bound⟩ := binds wrapping made _ _ _ decrypted
  exact ⟨bound, by rw [made', made]⟩

theorem cacheKeyOf_canonical (lawful : packages.Lawful) (sized : packages.Sized)
    {payload : JsonValue ν} {random : Bytes} (size : random.length = 32)
    (cached : (payload.field "cacheKey").all (isText (validBase64 packages 32 32)) = true) :
    validBase64 packages 32 32 (cacheKeyOf packages payload random) = true ∧
      cacheKeyOf packages payload random ≠ [] := by
  have written : ∀ bytes : Bytes, bytes.length = 32 →
      validBase64 packages 32 32 (packages.bytesToBase64 bytes) = true ∧
        packages.bytesToBase64 bytes ≠ [] := by
    intro bytes size
    have long := sized.base64 bytes
    rw [size] at long
    constructor
    · rw [validBase64, lawful.base64, long, Option.any_some, size]
      simp
    · intro empty
      rw [empty] at long
      contradiction
  cases found : payload.field "cacheKey" with
  | none =>
    have minted : cacheKeyOf packages payload random = packages.bytesToBase64 random := by
      rw [cacheKeyOf, textField, found]
    rw [minted]
    exact written random size
  | some value =>
    rw [found, Option.all_some] at cached
    cases value with
    | text said =>
      have valid : validBase64 packages 32 32 said = true := cached
      obtain ⟨bytes, -, back, low, high⟩ := validBase64_parts valid
      obtain ⟨-, some_⟩ := written bytes (Nat.le_antisymm high low)
      rw [back] at some_
      have kept : cacheKeyOf packages payload random = said := by
        rw [cacheKeyOf, textField, found]
        exact if_neg some_
      rw [kept]
      exact ⟨valid, some_⟩
    | _ => contradiction

section Backup

variable {payload enrollment : JsonValue.Document ν} {accounts wrappers : List (JsonValue ν)}
  {active : Option Units} {key random iv : Bytes} {record : JsonValue ν}
  {enrolled : List (Enrolled ν)}

variable {proof : PasskeyProof}

theorem openPasskeyRecord_own {enrollment : JsonValue ν} (lawful : packages.Lawful)
    (sized : packages.Sized)
    (isAccounts : listField payload.value "accounts" = some accounts)
    (isActive : activeOf accounts payload.value = some active)
    (cached : (payload.value.field "cacheKey").all (isText (validBase64 packages 32 32)) = true)
    (size : random.length = 32)
    (wrapped : List.Forall₂ (Wraps packages numbers key) enrolled wrappers)
    (listed : listField enrollment "passkeys" = some wrappers)
    (made : sealPasskeyPayload packages numbers payload.value key enrollment random iv =
      some record) {passkey : Enrolled ν} (among : passkey ∈ enrolled)
    (own : IsProof passkey.input.value proof) (random' : Bytes) :
    openPasskeyRecord packages numbers record proof random' =
      some ⟨accounts, active, cacheKeyOf packages payload.value random, false⟩ := by
  obtain ⟨keySize, valid, isList, ivText, cipherText, -⟩ := sealPasskeyPayload_parts made listed
  obtain ⟨canonical, some_⟩ := cacheKeyOf_canonical lawful sized size cached
  obtain ⟨wrapper, held, wraps⟩ := (exists_of_forall₂ wrapped).1 passkey among
  obtain ⟨passkeys, isPasskeys, every, -⟩ := validatePasskeyRecord_parts valid
  rw [isList] at isPasskeys
  cases isPasskeys
  obtain ⟨-, -, -, -, same, -, -⟩ := wrapVaultKey_parts wraps
  have named : textField wrapper "credentialId" = some proof.credentialId := by
    rw [← own.1, textField, textField, same "credentialId" (by decide)]
  have unwrapped := unwrapVaultKey_own lawful wraps (every wrapper held) own.1 own.2
  have object : ∃ fields, payload.value = .object fields := by
    unfold listField at isAccounts
    split at isAccounts
    · next items found => exact isObject_of_field found
    · contradiction
  have whole : (withText payload.value "cacheKey" (cacheKeyOf packages payload.value random)).Unique := by
    obtain ⟨fields, shape⟩ := object
    have unique := payload.unique
    rw [shape] at unique ⊢
    exact ⟨JsonValue.setField_nodup unique.1 _ _, JsonValue.setField_unique unique.2 _ trivial⟩
  have unmarked : (JsonValue.stringify numbers.toNumberFormat
      (withText payload.value "cacheKey" (cacheKeyOf packages payload.value random))).head? ≠
        some 0xFEFF := by
    obtain ⟨fields, shape⟩ := object
    rw [shape]
    exact Option.some_inj.not.mpr (by decide)
  have read := (Units.decode_encode_iff _).mpr
    ⟨JsonValue.isWellFormed_stringify numbers.toNumberFormat _, unmarked⟩
  rw [openPasskeyRecord, withPasskeyVaultKey_listed valid isList held named, unwrapped,
    Option.bind_some, ivText, cipherText]
  simp only [Option.getD_some, lawful.base64, Option.bind_eq_bind, Option.bind_some, decryptText,
    keySize, if_true, lawful.opens, Option.map_some, read,
    JsonValue.parse_stringify numbers.toNumberFormat ⟨_, whole⟩]
  exact openedOf_withText random' isAccounts isActive canonical some_

theorem openPasskeyRecord_other (lawful : packages.Lawful) (separates : Separates packages)
    (wrapped : List.Forall₂ (Wraps packages numbers key) enrolled wrappers)
    (listed : listField enrollment.value "passkeys" = some wrappers)
    (made : sealPasskeyPayload packages numbers payload.value key enrollment.value random iv =
      some record) (binds : ∀ passkey ∈ enrolled, ∀ wrapping,
      wrappingKey packages passkey.input.value = some wrapping →
        Binds packages wrapping passkey.nonce (binding numbers passkey.input.value) key)
    (other : ∀ passkey ∈ enrolled, ¬ IsProof passkey.input.value proof) (random' : Bytes) :
    openPasskeyRecord packages numbers record proof random' = none := by
  obtain ⟨-, valid, isList, -⟩ := sealPasskeyPayload_parts made listed
  by_cases enrolled_ : ∃ wrapper ∈ wrappers,
      textField wrapper "credentialId" = some proof.credentialId
  · obtain ⟨wrapper, held, named⟩ := enrolled_
    obtain ⟨passkey, among, wraps⟩ := (exists_of_forall₂ wrapped).2 wrapper held
    rw [openPasskeyRecord, withPasskeyVaultKey_listed valid isList held named]
    cases unwrapped : unwrapVaultKey packages numbers wrapper proof with
    | none => rfl
    | some opened =>
      obtain ⟨wrapping, made', -, ⟨fields, rfl⟩, same, -, -⟩ := wrapVaultKey_parts wraps
      obtain ⟨-, sameKey⟩ := opened_bound lawful wraps (binds passkey among) rfl rfl unwrapped
      rw [made'] at sameKey
      obtain ⟨prf, salt, isPrf, prfSize, isSalt, isKey⟩ := wrappingKey_parts made'
      obtain ⟨prf', salt', isPrf', prfSize', isSalt', isKey'⟩ := wrappingKey_parts sameKey
      have salted : textField (withText (.object fields) "prf" proof.prf) "prfSalt" =
          textField passkey.input.value "prfSalt" := by
        rw [textField, textField, field_withText, if_neg (by decide), same "prfSalt" (by decide)]
      rw [salted, isSalt] at isSalt'
      cases isSalt'
      have outputs := separates _ _ _ _ prfSize prfSize' (isKey.symm.trans isKey')
      have said : textField (withText (.object fields) "prf" proof.prf) "prf" = some proof.prf := by
        rw [textField, field_withText, if_pos rfl]
      have id : textField passkey.input.value "credentialId" = some proof.credentialId := by
        rw [← named, textField, textField, same "credentialId" (by decide)]
      refine absurd ⟨id, ?_⟩ (other passkey among)
      rw [isPrf, outputs, ← isPrf', said]
  · push Not at enrolled_
    exact withPasskeyVaultKey_missing isList enrolled_ _

theorem openPasskeyRecord_changed (lawful : packages.Lawful)
    (wrapped : List.Forall₂ (Wraps packages numbers key) enrolled wrappers)
    (listed : listField enrollment.value "passkeys" = some wrappers)
    (binds : ∀ passkey ∈ enrolled, ∀ wrapping,
      wrappingKey packages passkey.input.value = some wrapping →
        Binds packages wrapping passkey.nonce (binding numbers passkey.input.value) key)
    {changed : JsonValue.Document ν}
    (valid : validatePasskeyRecord packages numbers changed.value = true)
    {passkeys : List (JsonValue ν)} (isList : listField changed.value "passkeys" = some passkeys)
    {wrapper opening : JsonValue ν} (held : wrapper ∈ wrappers) (among : opening ∈ passkeys)
    (iv : textField opening "iv" = textField wrapper "iv")
    (ciphertext : textField opening "ciphertext" = textField wrapper "ciphertext")
    (different : ¬ SameBinding opening wrapper)
    (named : textField opening "credentialId" = some proof.credentialId) (random' : Bytes) :
    openPasskeyRecord packages numbers changed.value proof random' = none := by
  obtain ⟨passkey, member, wraps⟩ := (exists_of_forall₂ wrapped).2 wrapper held
  rw [openPasskeyRecord, withPasskeyVaultKey_listed valid isList among named]
  cases unwrapped : unwrapVaultKey packages numbers opening proof with
  | none => rfl
  | some opened =>
    refine absurd ?_ different
    obtain ⟨bound, -⟩ := opened_bound lawful wraps (binds passkey member) iv ciphertext unwrapped
    obtain ⟨-, -, -, -, same, -, -⟩ := wrapVaultKey_parts wraps
    rw [← @binding_fields ν numbers wrapper passkey.input.value same] at bound
    have inList : ∀ {list : List (JsonValue ν)} {document : JsonValue.Document ν},
        listField document.value "passkeys" = some list → ∀ item ∈ list, item.Unique := by
      intro list document isList item among
      unfold listField at isList
      split at isList
      · next items found =>
        have whole : (JsonValue.array items).Unique := JsonValue.unique_field document.unique found
        cases isList
        exact JsonValue.uniqueItems_mem whole among
      · contradiction
    have parts : ∀ {passkey : JsonValue ν}, validWrapper packages passkey = true →
        validMetadata passkey = true ∧ (∃ id, passkey.field "credentialId" = some id) ∧
          ∃ salt, passkey.field "prfSalt" = some salt := by
      intro passkey valid
      simp only [validWrapper, Bool.and_eq_true] at valid
      obtain ⟨⟨⟨⟨id, salt⟩, metadata⟩, -⟩, -⟩ := valid
      obtain ⟨said, isId, -⟩ := isText_some id
      obtain ⟨salted, isSalt, -⟩ := isText_some salt
      exact ⟨metadata, ⟨_, isId⟩, ⟨_, isSalt⟩⟩
    obtain ⟨list, isList', every, -⟩ := validatePasskeyRecord_parts valid
    rw [isList] at isList'
    cases isList'
    obtain ⟨metadata, ⟨id, isId⟩, ⟨salt, isSalt⟩⟩ := parts (every opening among)
    obtain ⟨wrapping, made', -⟩ := wrapVaultKey_parts wraps
    have input : validatePasskeyInput packages passkey.input.value = true := by
      unfold wrappingKey at made'
      split at made'
      · assumption
      · contradiction
    obtain ⟨⟨id', isId'⟩, ⟨salt', isSalt'⟩, metadata', -⟩ := validatePasskeyInput_parts input
    have metadata'' : validMetadata wrapper = true := by
      simp only [List.forall_mem_cons] at same
      obtain ⟨rp, author, scope, -⟩ := same
      rw [← metadata', validMetadata, validMetadata, rp, author, scope]
    have held_ : wrapper.field "credentialId" = some (.text id') := by
      rw [same "credentialId" (by decide), isId']
    have salted : wrapper.field "prfSalt" = some (.text salt') := by
      rw [same "prfSalt" (by decide), isSalt']
    exact sameBinding_of_binding (inList isList opening among) (inList listed wrapper held) metadata
      metadata'' isId held_ isSalt salted bound

/-- A sealed record that can be serialized opens by the proof of each enrolled passkey as what was
sealed, by no other proof, and through no wrapper whose metadata was changed. -/
theorem passkey_backup (lawful : packages.Lawful) (sized : packages.Sized)
    (separates : Separates packages)
    (isAccounts : listField payload.value "accounts" = some accounts)
    (isActive : activeOf accounts payload.value = some active)
    (cached : (payload.value.field "cacheKey").all (isText (validBase64 packages 32 32)) = true)
    (size : random.length = 32)
    (wrapped : List.Forall₂ (Wraps packages numbers key) enrolled wrappers)
    (listed : listField enrollment.value "passkeys" = some wrappers)
    (binds : ∀ passkey ∈ enrolled, ∀ wrapping,
      wrappingKey packages passkey.input.value = some wrapping →
        Binds packages wrapping passkey.nonce (binding numbers passkey.input.value) key)
    (made : sealPasskeyPayload packages numbers payload.value key enrollment.value random iv =
      some record) {text : Units}
    (serialized : serializePasskeyBackup packages numbers record = some text) :
    parsePasskeyBackup packages numbers text = some record ∧
      (∀ passkey ∈ enrolled, ∀ proof random', IsProof passkey.input.value proof →
        openPasskeyRecord packages numbers record proof random' =
          some ⟨accounts, active, cacheKeyOf packages payload.value random, false⟩) ∧
      (∀ proof random', (∀ passkey ∈ enrolled, ¬ IsProof passkey.input.value proof) →
        openPasskeyRecord packages numbers record proof random' = none) ∧
      ∀ changed : JsonValue.Document ν,
        validatePasskeyRecord packages numbers changed.value = true →
        ∀ passkeys, listField changed.value "passkeys" = some passkeys →
        ∀ wrapper ∈ wrappers, ∀ opening ∈ passkeys,
          textField opening "iv" = textField wrapper "iv" →
          textField opening "ciphertext" = textField wrapper "ciphertext" →
          ¬ SameBinding opening wrapper →
          ∀ proof random', textField opening "credentialId" = some proof.credentialId →
            openPasskeyRecord packages numbers changed.value proof random' = none := by
  obtain ⟨-, -, -, -, -, unique⟩ := sealPasskeyPayload_parts made listed
  refine ⟨parsePasskeyBackup_serialized (unique enrollment.unique) serialized, ?_, ?_, ?_⟩
  · intro passkey among proof random' own
    exact openPasskeyRecord_own lawful sized isAccounts isActive cached size wrapped listed made among
      own random'
  · intro proof random' other
    exact openPasskeyRecord_other lawful separates wrapped listed made binds other random'
  · intro changed valid passkeys isList wrapper held opening among iv ciphertext different proof
      random' named
    exact openPasskeyRecord_changed lawful wrapped listed binds valid isList held among iv ciphertext
      different named random'

/-- A record that is created opens to its payload with the output of its passkey. -/
theorem createPasskeyRecord_opens (lawful : packages.Lawful) (sized : packages.Sized)
    {input : JsonValue.Document ν} {nonce : Bytes}
    (isAccounts : listField payload.value "accounts" = some accounts)
    (isActive : activeOf accounts payload.value = some active)
    (cached : (payload.value.field "cacheKey").all (isText (validBase64 packages 32 32)) = true)
    (size : random.length = 32)
    (made : createPasskeyRecord packages numbers payload.value input.value key nonce random iv =
      some record) (own : IsProof input.value proof) (random' : Bytes) :
    openPasskeyRecord packages numbers record proof random' =
      some ⟨accounts, active, cacheKeyOf packages payload.value random, false⟩ := by
  obtain ⟨wrapper, wrapped, made⟩ := Option.bind_eq_some_iff.mp made
  obtain ⟨value, unique⟩ := input
  obtain ⟨fields, rfl⟩ : ∃ fields, value = .object fields := by
    cases value with
    | object fields => exact ⟨fields, rfl⟩
    | _ => exact nomatch own.1
  let rp := (textField (.object fields) "rpId").getD PASSKEY_RP_ID
  have whole : (withText (.object fields) "rpId" rp).Unique :=
    ⟨JsonValue.setField_nodup unique.1 _ _, JsonValue.setField_unique unique.2 _ trivial⟩
  have wraps : List.Forall₂ (Wraps packages numbers key) [⟨⟨_, whole⟩, nonce⟩] [wrapper] :=
    .cons wrapped .nil
  have kept : IsProof (withText (.object fields) "rpId" rp) proof := by
    unfold IsProof textField
    rw [field_withText, field_withText, if_neg (by decide), if_neg (by decide)]
    exact own
  exact openPasskeyRecord_own lawful sized isAccounts isActive cached size wraps rfl made
    List.mem_cons_self kept random'

end Backup

end Bound

/-! ### A vault of one passkey -/

def decimalNaturals : Naturals Nat where
  toNumberFormat := decimalFormat
  natural := some
  ofNatural value := value
  natural_ofNatural _ _ := rfl

/-- A passkey whose output is thirty-two sevens. -/
def oneInput : JsonValue Nat :=
  .object [(Units.ofString "credentialId", .text (Units.ofString "AQ==")),
    (Units.ofString "prfSalt", .text PASSKEY_RECOVERY_PRF_SALT),
    (Units.ofString "prf", .text (standard.bytesToBase64 (List.replicate 32 7)))]

def markedPackages (key aad : Bytes) : Packages where
  toCodecs := standard
  hkdf secret _ _ := secret
  encrypt key' _ aad' plaintext :=
    plaintext ++ List.replicate 16 (if key' = key ∧ aad' = aad then 1 else 0)
  decrypt key' _ aad' ciphertext :=
    if ciphertext.drop (ciphertext.length - 16) =
        List.replicate 16 (if key' = key ∧ aad' = aad then 1 else 0) then
      some (ciphertext.take (ciphertext.length - 16))
    else none

theorem markedPackages_lawful (key aad : Bytes) : (markedPackages key aad).Lawful where
  toLawful := standard_lawful
  opens key' nonce aad' plaintext := by
    simp [markedPackages]
  tag key' nonce aad' plaintext := by
    simp [markedPackages]

theorem markedPackages_sized (key aad : Bytes) : (markedPackages key aad).Sized := ⟨length_standard⟩

theorem markedPackages_separates (key aad : Bytes) : Separates (markedPackages key aad) :=
  fun _ _ _ _ _ _ same => same

theorem markedPackages_binds (key aad nonce plaintext : Bytes) :
    Binds (markedPackages key aad) key nonce aad plaintext := by
  intro key' aad' opened decrypted
  by_contra other
  have zero : (if key' = key ∧ aad' = aad then 1 else 0 : UInt8) = 0 := if_neg other
  simp [markedPackages, zero] at decrypted

/-- The packages that seal under the passkey's own key and binding. -/
def ownPackages : Packages := markedPackages (List.replicate 32 7) (binding decimalNaturals oneInput)

def onePasskey : Enrolled Nat := ⟨⟨oneInput, ⟨by decide, trivial, trivial, trivial, trivial⟩⟩, List.replicate 12 5⟩

def oneWrapper : JsonValue Nat :=
  .object [(Units.ofString "credentialId", .text (Units.ofString "AQ==")),
    (Units.ofString "prfSalt", .text PASSKEY_RECOVERY_PRF_SALT),
    (Units.ofString "iv", .text (standard.bytesToBase64 (List.replicate 12 5))),
    (Units.ofString "ciphertext",
      .text (standard.bytesToBase64 (List.replicate 32 9 ++ List.replicate 16 1)))]

def onePayload : JsonValue.Document Nat :=
  ⟨.object [(Units.ofString "accounts", .array [.object [(Units.ofString "id", .text [97])]]),
    (Units.ofString "activeAccountId", .text [97])],
    by decide, ⟨⟨by decide, trivial, trivial⟩, trivial⟩, trivial, trivial⟩

def oneEnrollment : JsonValue.Document Nat :=
  ⟨.object [(Units.ofString "rpId", .text LEGACY_PASSKEY_RP_ID),
    (Units.ofString "passkeys", .array [oneWrapper])],
    by decide, trivial, ⟨⟨by decide, trivial, trivial, trivial, trivial, trivial⟩, trivial⟩, trivial⟩

set_option maxRecDepth 10000 in
theorem oneWrapper_wraps :
    Wraps ownPackages decimalNaturals (List.replicate 32 9) onePasskey oneWrapper := by
  unfold Wraps
  rfl

def oneBackup : Option Units :=
  (sealPasskeyPayload ownPackages decimalNaturals onePayload.value (List.replicate 32 9)
    oneEnrollment.value (List.replicate 32 3) (List.replicate 12 4)).bind
      (serializePasskeyBackup ownPackages decimalNaturals)

set_option maxRecDepth 10000 in
theorem oneBackup_some : oneBackup.isSome = true := by rfl

theorem passkey_backup_one : ∃ text record, oneBackup = some text ∧
    parsePasskeyBackup ownPackages decimalNaturals text = some record ∧
    openPasskeyRecord ownPackages decimalNaturals record
      ⟨Units.ofString "AQ==", standard.bytesToBase64 (List.replicate 32 7)⟩ [] =
        some ⟨[.object [(Units.ofString "id", .text [97])]], some [97],
          standard.bytesToBase64 (List.replicate 32 3), false⟩ := by
  obtain ⟨text, isText⟩ := Option.isSome_iff_exists.mp oneBackup_some
  obtain ⟨record, made, serialized⟩ := Option.bind_eq_some_iff.mp isText
  have binds : ∀ passkey ∈ [onePasskey], ∀ wrapping,
      wrappingKey ownPackages passkey.input.value = some wrapping →
        Binds ownPackages wrapping passkey.nonce (binding decimalNaturals passkey.input.value)
          (List.replicate 32 9) := by
    intro passkey among wrapping isKey
    cases List.mem_singleton.mp among
    have known : wrappingKey ownPackages onePasskey.input.value = some (List.replicate 32 7) := rfl
    cases known.symm.trans isKey
    exact markedPackages_binds _ _ _ _
  obtain ⟨parsed, own, -⟩ := passkey_backup (markedPackages_lawful _ _) (markedPackages_sized _ _)
    (markedPackages_separates _ _) rfl rfl rfl rfl (.cons oneWrapper_wraps .nil) rfl binds made
    serialized
  exact ⟨text, record, isText, parsed, own onePasskey List.mem_cons_self _ _ ⟨rfl, rfl⟩⟩

def oneCreated : Option (JsonValue Nat) :=
  createPasskeyRecord ownPackages decimalNaturals onePayload.value onePasskey.input.value
    (List.replicate 32 9) (List.replicate 12 5) (List.replicate 32 3) (List.replicate 12 4)

set_option maxRecDepth 10000 in
theorem createPasskeyRecord_opens_one : ∃ record, oneCreated = some record ∧
    openPasskeyRecord ownPackages decimalNaturals record
      ⟨Units.ofString "AQ==", standard.bytesToBase64 (List.replicate 32 7)⟩ [] =
        some ⟨[.object [(Units.ofString "id", .text [97])]], some [97],
          standard.bytesToBase64 (List.replicate 32 3), false⟩ := by
  obtain ⟨record, made⟩ := Option.isSome_iff_exists.mp (show oneCreated.isSome = true by rfl)
  refine ⟨record, made, ?_⟩
  unfold oneCreated at made
  exact createPasskeyRecord_opens (markedPackages_lawful _ _) (markedPackages_sized _ _) rfl rfl rfl
    rfl made ⟨rfl, rfl⟩ []

end Passkey

end NostrWot.Vault
