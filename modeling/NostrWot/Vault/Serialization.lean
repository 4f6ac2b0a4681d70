import NostrWot.Data.Base64
import NostrWot.Data.CodeUnits
import NostrWot.Data.Value

namespace NostrWot.Vault

open NostrWot.Data

/-! # Accounts in storage and in memory

The stored JSON shape of an account and the shape an unlocked vault holds, whose
secrets are bytes that a lock can zero.
-/

/-- A value, its objects as what they hold under each name. -/
inductive Val where
  | undefined
  | null
  | boolean (value : Bool)
  | number (value : Number)
  | text (value : Units)
  /-- A `Uint8Array`. -/
  | bytes (value : List UInt8)
  | array (items : List Val)
  | object (fields : Units → Option Val)

/-- The own properties of an object. -/
abbrev Fields : Type := Units → Option Val

namespace Fields

def empty : Fields := fun _ => none

def own (fields : Fields) (name : String) : Option Val := fields (Units.ofString name)

def get (fields : Fields) (name : String) : Val := (fields.own name).getD .undefined

def put (fields : Fields) (name : String) (value : Val) : Fields := fun other =>
  if other = Units.ofString name then some value else fields other

/-- `{ ...fields, ...(value !== undefined ? { name: value } : {}) }`. -/
def putDefined (fields : Fields) (name : String) (value : Val) : Fields :=
  match value with
  | .undefined => fields
  | value => fields.put name value

/-- The rest of a destructuring that names these properties. -/
def without (fields : Fields) (names : List String) : Fields := fun other =>
  if other ∈ names.map Units.ofString then none else fields other

end Fields

/-- What the encodings do that come from packages, and the language's own conversions of values
that no account holds in these places. -/
structure Codecs where
  hexToBytes : Units → Option (List UInt8)
  bytesToHex : List UInt8 → Units
  base64ToBytes : Units → Option (List UInt8)
  bytesToBase64 : List UInt8 → Units
  stringOf : Val → Option Units
  /-- What `...value` spreads of a value that is not an object. -/
  spreadOf : Val → Fields

def isHexUnit (unit : UInt16) : Bool := (48 ≤ unit && unit ≤ 57) || (97 ≤ unit && unit ≤ 102)

/-- Lowercase hex of whole bytes. -/
def isHex (text : Units) : Bool := text.length % 2 = 0 && text.all isHexUnit

/-- What the packages document: each encoding gives back what it took. -/
structure Codecs.Lawful (codecs : Codecs) : Prop where
  hex : ∀ text, isHex text = true →
    ∃ bytes, codecs.hexToBytes text = some bytes ∧ codecs.bytesToHex bytes = text
  base64 : ∀ bytes, codecs.base64ToBytes (codecs.bytesToBase64 bytes) = some bytes

def isTruthy : Val → Bool
  | .undefined | .null => false
  | .boolean value => value
  | .number value => value ≠ 0 && value ≠ .nan
  | .text value => value ≠ []
  | .bytes _ | .array _ | .object _ => true

def isDefined : Val → Bool
  | .undefined => false
  | _ => true

/-- `value.name`; `none` is a `TypeError`. -/
def read (value : Val) (name : String) : Option Val :=
  match value with
  | .undefined | .null => none
  | .object fields => some (Fields.get fields name)
  | _ => some .undefined

def orNull (value : Val) (convert : Val → Option Val) : Option Val :=
  if isTruthy value then convert value else some .null

/-- What a property that may be missing is converted to. -/
def ifDefined (value : Val) (convert : Val → Option Val) : Option Val :=
  match value with
  | .undefined => some .undefined
  | value => convert value

def unlessNull (value : Val) (convert : Val → Option Val) : Option Val :=
  match value with
  | .null => some .null
  | value => convert value

section Conversions

variable (codecs : Codecs)

/-- The own properties of a destructured value. -/
def spread (value : Val) : Fields :=
  match value with
  | .object fields => fields
  | value => codecs.spreadOf value

def encodeText (value : Val) : Option Val :=
  match value with
  | .text text => some (.bytes (Units.encode text))
  | .null => some (.bytes (Units.encode (Units.ofString "null")))
  | value => (codecs.stringOf value).map fun text => .bytes (Units.encode text)

def decodeText : Val → Option Val
  | .bytes bytes => some (.text (Units.decode bytes))
  | _ => none

def hexToBytes : Val → Option Val
  | .text text => (codecs.hexToBytes text).map .bytes
  | _ => none

def bytesToHex : Val → Option Val
  | .bytes bytes => some (.text (codecs.bytesToHex bytes))
  | _ => none

def base64ToBytes : Val → Option Val
  | .text text => (codecs.base64ToBytes text).map .bytes
  | _ => none

def bytesToBase64 : Val → Option Val
  | .bytes bytes => some (.text (codecs.bytesToBase64 bytes))
  | _ => none

/-! ## Remote signers -/

def toMemoryConfig (fields : Fields) : Option Fields := do
  let secret ← ifDefined (fields.get "secret") fun secret => unlessNull secret (encodeText codecs)
  let localPrivkey ← ifDefined (fields.get "localPrivkey") (encodeText codecs)
  let rest := fields.without ["secret", "localPrivkey"]
  return (rest.putDefined "secretBytes" secret).putDefined "localPrivkeyBytes" localPrivkey

def toMemoryNip46 (config : Val) : Option Val :=
  unlessNull config fun config => (toMemoryConfig codecs (spread codecs config)).map .object

def toStorageConfig (fields : Fields) : Option Fields := do
  let secret ← ifDefined (fields.get "secretBytes") fun secret => unlessNull secret decodeText
  let localPrivkey ← ifDefined (fields.get "localPrivkeyBytes") decodeText
  let rest := fields.without ["secretBytes", "localPrivkeyBytes", "localPubkey"]
  return ((rest.putDefined "secret" secret).putDefined "localPrivkey" localPrivkey).putDefined
    "localPubkey" (fields.get "localPubkey")

def toStorageNip46 (config : Val) : Option Val :=
  unlessNull config fun config => (toStorageConfig (spread codecs config)).map .object

/-! ## Accounts -/

/-- What `rest[name] = value` leaves of a walk over an account's entries: a property `__proto__`
sets the prototype, and of two entries that set `renamed` the one walked last stays. -/
def restOf (account : Fields) (skipped : List String) (renamed : String) (value : Val)
    (renamedLast : Bool) : Fields := fun name =>
  if name ∈ ("__proto__" :: skipped).map Units.ofString then none
  else if renamedLast || (account name).isNone then (account.putDefined renamed value) name
  else account name

def pqPublicOf (pqKeys : Val) : Option Val := do
  let profile ← read pqKeys "profile"
  let kem ← read (← read pqKeys "kem") "public"
  let dsa ← read (← read pqKeys "dsa") "public"
  let importedAt ← read pqKeys "importedAt"
  return .object ((((Fields.empty.put "profile" profile).put "kem" kem).put "dsa" dsa).put
    "importedAt" importedAt)

def secretBytesOf (key : String) (pqKeys : Val) : Option Val := do
  base64ToBytes codecs (← read (← read pqKeys key) "secret")

/-- `configLast` where an account's `nip46Config` comes after a field named `nip46`. -/
def toMemoryAccount (configLast : Bool) (acct : Fields) : Option Fields := do
  let config ← ifDefined (acct.get "nip46Config") (toMemoryNip46 codecs)
  let privkeyBytes ← orNull (acct.get "privkey") (hexToBytes codecs)
  let mnemonicBytes ← orNull (acct.get "mnemonic") (encodeText codecs)
  let pqPublic ← ifDefined (acct.get "pqKeys") fun pqKeys => orNull pqKeys pqPublicOf
  let kem ← orNull (acct.get "pqKeys") (secretBytesOf codecs "kem")
  let dsa ← orNull (acct.get "pqKeys") (secretBytesOf codecs "dsa")
  let rest := restOf acct ["privkey", "mnemonic", "pqKeys", "nip46Config"] "nip46" config configLast
  return (((((rest.put "privkeyBytes" privkeyBytes).put "mnemonicBytes" mnemonicBytes).putDefined
    "pqPublic" pqPublic).put "pqKemSecretBytes" kem).put "pqDsaSecretBytes" dsa)

/-- A key's two halves as they are stored. -/
def halves (public_ secret : Val) : Val :=
  .object ((Fields.empty.put "public" public_).put "secret" secret)

def pqKeysOf (pqPublic kemSecret dsaSecret : Val) : Option Val :=
  if isTruthy pqPublic && isTruthy kemSecret && isTruthy dsaSecret then do
    let profile ← read pqPublic "profile"
    let kem ← read pqPublic "kem"
    let kemSecret ← bytesToBase64 codecs kemSecret
    let dsa ← read pqPublic "dsa"
    let dsaSecret ← bytesToBase64 codecs dsaSecret
    let importedAt ← read pqPublic "importedAt"
    return .object ((((Fields.empty.put "profile" profile).put "kem" (halves kem kemSecret)).put
      "dsa" (halves dsa dsaSecret)).put "importedAt" importedAt)
  else some .null

/-- `configLast` where `nip46` comes after a field named `nip46Config`. -/
def toStorageAccount (configLast : Bool) (acct : Fields) : Option Fields := do
  let config ← ifDefined (acct.get "nip46") (toStorageNip46 codecs)
  let privkey ← orNull (acct.get "privkeyBytes") (bytesToHex codecs)
  let mnemonic ← orNull (acct.get "mnemonicBytes") decodeText
  let pqKeys ← ifDefined (acct.get "pqPublic") fun pqPublic =>
    pqKeysOf codecs pqPublic (acct.get "pqKemSecretBytes") (acct.get "pqDsaSecretBytes")
  let rest := restOf acct ["privkeyBytes", "mnemonicBytes", "pqPublic", "pqKemSecretBytes",
    "pqDsaSecretBytes", "nip46"] "nip46Config" config configLast
  return ((rest.put "privkey" privkey).put "mnemonic" mnemonic).putDefined "pqKeys" pqKeys

/-! ## Payloads -/

structure Payload where
  cacheKey : Option Units
  accounts : List Fields
  activeAccountId : Option Units

structure MemoryPayload where
  cacheKeyBytes : Option (List UInt8)
  accounts : List Fields
  activeAccountId : Option Units

/-- Each account with the order of its own properties. -/
def toStoragePayload (configLast : Fields → Bool) (mem : MemoryPayload) : Option Payload := do
  let accounts ← mem.accounts.mapM fun acct => toStorageAccount codecs (configLast acct) acct
  return ⟨mem.cacheKeyBytes.map codecs.bytesToBase64, accounts, mem.activeAccountId⟩

def cacheKeyBytes (cacheKey : Option Units) : Option (Option (List UInt8)) :=
  match cacheKey with
  | some (unit :: rest) => (codecs.base64ToBytes (unit :: rest)).map some
  | some [] | none => some none

def toMemoryPayload (configLast : Fields → Bool) (payload : Payload) : Option MemoryPayload := do
  let cacheKeyBytes ← cacheKeyBytes codecs payload.cacheKey
  let accounts ← payload.accounts.mapM fun acct => toMemoryAccount codecs (configLast acct) acct
  return ⟨cacheKeyBytes, accounts, payload.activeAccountId⟩

end Conversions

/-! ## One property at a time -/

/-- The property that a conditional spread leaves. -/
def asField : Val → Option Val
  | .undefined => none
  | value => some value

section Properties

variable {fields : Fields} {name : String} {other : Units} {value : Val}

@[simp] theorem put_same : fields.put name value (Units.ofString name) = some value := if_pos rfl

@[simp] theorem put_other (different : other ≠ Units.ofString name) :
    fields.put name value other = fields other := if_neg different

@[simp] theorem putDefined_same : fields.putDefined name value (Units.ofString name) =
    (asField value).or (fields (Units.ofString name)) := by
  cases value with
  | undefined => rfl
  | null | boolean | number | text | bytes | array | object => exact put_same

@[simp] theorem putDefined_other (different : other ≠ Units.ofString name) :
    fields.putDefined name value other = fields other := by
  cases value with
  | undefined => rfl
  | null | boolean | number | text | bytes | array | object => exact put_other different

@[simp] theorem without_of_mem {names : List String} (named : other ∈ names.map Units.ofString) :
    fields.without names other = none := if_pos named

@[simp] theorem without_of_notMem {names : List String} (free : other ∉ names.map Units.ofString) :
    fields.without names other = fields other := if_neg free

theorem get_of_own (owned : fields.own name = some value) : fields.get name = value := by
  rw [Fields.get, owned]
  rfl

theorem get_of_absent (absent : fields.own name = none) : fields.get name = .undefined := by
  rw [Fields.get, absent]
  rfl

theorem get_of_asField (owned : fields.own name = asField value) : fields.get name = value := by
  cases value with
  | undefined => exact get_of_absent owned
  | null | boolean | number | text | bytes | array | object => exact get_of_own owned

end Properties

/-- A text that a decoder gives back as it was encoded. -/
def TextKept (text : Units) : Prop := Units.isWellFormed text ∧ text.head? ≠ some 0xFEFF

instance (text : Units) : Decidable (TextKept text) := by
  unfold TextKept
  infer_instance

theorem textKept_iff (text : Units) : Units.decode (Units.encode text) = text ↔ TextKept text :=
  Units.decode_encode_iff text

/-- Absent, `null` or a text. -/
def MayBeText (field : Option Val) : Prop :=
  field = none ∨ field = some .null ∨ ∃ text, field = some (.text text)

/-! ### Remote signers -/

structure AcceptedConfig (fields : Fields) : Prop where
  secret : MayBeText (fields.own "secret")
  localPrivkey : MayBeText (fields.own "localPrivkey")
  localPubkey : fields.own "localPubkey" ≠ some .undefined

structure ConfigKept (fields : Fields) : Prop where
  secret : ∀ text, fields.own "secret" = some (.text text) → TextKept text
  localPrivkey : ∀ text, fields.own "localPrivkey" = some (.text text) → TextKept text
  notNull : fields.own "localPrivkey" ≠ some .null
  noSecretBytes : fields.own "secretBytes" = none
  noLocalPrivkeyBytes : fields.own "localPrivkeyBytes" = none

section Configs

variable {codecs : Codecs} {fields : Fields}

theorem toStorageConfig_names {back : Fields} (stored : toStorageConfig fields = some back) :
    back.own "secretBytes" = none ∧ back.own "localPrivkeyBytes" = none := by
  obtain ⟨secret, -, stored⟩ := Option.bind_eq_some_iff.mp stored
  obtain ⟨localPrivkey, -, stored⟩ := Option.bind_eq_some_iff.mp stored
  cases stored
  simp only [Fields.own]
  constructor <;> simp (disch := decide)

theorem config_rebuilt {secretBytes localPrivkeyBytes secret localPrivkey : Val}
    (accepted : AcceptedConfig fields) (noSecretBytes : fields.own "secretBytes" = none)
    (noLocalPrivkeyBytes : fields.own "localPrivkeyBytes" = none)
    (encoded : (ifDefined (fields.get "secret") fun secret =>
      unlessNull secret (encodeText codecs)) = some secretBytes)
    (encoded' : ifDefined (fields.get "localPrivkey") (encodeText codecs) = some localPrivkeyBytes)
    (decoded : (ifDefined secretBytes fun secret => unlessNull secret decodeText) = some secret)
    (decoded' : ifDefined localPrivkeyBytes decodeText = some localPrivkey) :
    toMemoryConfig codecs fields >>= toStorageConfig = some fields ↔
      asField secret = fields.own "secret" ∧ asField localPrivkey = fields.own "localPrivkey" := by
  let mem := ((fields.without ["secret", "localPrivkey"]).putDefined "secretBytes"
    secretBytes).putDefined "localPrivkeyBytes" localPrivkeyBytes
  have inMemory : toMemoryConfig codecs fields = some mem := by
    simp only [toMemoryConfig, encoded, encoded', Option.bind_eq_bind, Option.bind_some]
    rfl
  have ownSecret : mem.own "secretBytes" = asField secretBytes := by
    simp only [Fields.own, mem] at noSecretBytes ⊢
    simp (disch := decide) [noSecretBytes]
  have ownPrivkey : mem.own "localPrivkeyBytes" = asField localPrivkeyBytes := by
    simp only [Fields.own, mem] at noLocalPrivkeyBytes ⊢
    simp (disch := decide) [noLocalPrivkeyBytes]
  have ownPubkey : mem.own "localPubkey" = fields.own "localPubkey" := by
    simp (disch := decide) [Fields.own, mem]
  have pubkey : asField (fields.get "localPubkey") = fields.own "localPubkey" := by
    have defined := accepted.localPubkey
    rw [Fields.get]
    cases owned : fields.own "localPubkey" with
    | none => rfl
    | some value =>
      cases value with
      | undefined => exact absurd owned defined
      | null | boolean | number | text | bytes | array | object => rfl
  let back := (((mem.without ["secretBytes", "localPrivkeyBytes", "localPubkey"]).putDefined "secret"
    secret).putDefined "localPrivkey" localPrivkey).putDefined "localPubkey"
      (fields.get "localPubkey")
  have stored : toStorageConfig mem = some back := by
    have samePubkey : mem.get "localPubkey" = fields.get "localPubkey" := by
      rw [Fields.get, Fields.get, ownPubkey]
    simp only [toStorageConfig, get_of_asField ownSecret, get_of_asField ownPrivkey, decoded, decoded',
      samePubkey, Option.bind_eq_bind, Option.bind_some]
    rfl
  have backSecret : back.own "secret" = asField secret := by
    simp (disch := decide) [Fields.own, back, mem]
  have backPrivkey : back.own "localPrivkey" = asField localPrivkey := by
    simp (disch := decide) [Fields.own, back, mem]
  rw [inMemory]
  show toStorageConfig mem = some fields ↔ _
  rw [stored, Option.some.injEq]
  constructor
  · intro same
    rw [← backSecret, ← backPrivkey, same]
    exact ⟨rfl, rfl⟩
  · rintro ⟨sameSecret, samePrivkey⟩
    funext name
    by_cases isSecret : name = Units.ofString "secret"
    · rw [isSecret]
      exact backSecret.trans sameSecret
    by_cases isPrivkey : name = Units.ofString "localPrivkey"
    · rw [isPrivkey]
      exact backPrivkey.trans samePrivkey
    by_cases isPubkey : name = Units.ofString "localPubkey"
    · rw [isPubkey]
      simp (disch := decide) [back, pubkey, Fields.own]
    by_cases isSecretBytes : name = Units.ofString "secretBytes"
    · rw [isSecretBytes]
      exact (toStorageConfig_names stored).1.trans noSecretBytes.symm
    by_cases isPrivkeyBytes : name = Units.ofString "localPrivkeyBytes"
    · rw [isPrivkeyBytes]
      exact (toStorageConfig_names stored).2.trans noLocalPrivkeyBytes.symm
    simp [back, mem, isPubkey, isPrivkey, isSecret, isSecretBytes, isPrivkeyBytes]

theorem secret_back (mayBe : MayBeText (fields.own "secret")) :
    ∃ bytes secret,
      (ifDefined (fields.get "secret") fun secret =>
        unlessNull secret (encodeText codecs)) = some bytes ∧
      (ifDefined bytes fun secret => unlessNull secret decodeText) = some secret ∧
      (asField secret = fields.own "secret" ↔
        ∀ text, fields.own "secret" = some (.text text) → TextKept text) := by
  rcases mayBe with absent | null | ⟨text, owned⟩
  · rw [get_of_absent absent, absent]
    exact ⟨.undefined, .undefined, rfl, rfl, by simp [asField]⟩
  · rw [get_of_own null, null]
    exact ⟨.null, .null, rfl, rfl, by simp [asField]⟩
  · rw [get_of_own owned, owned]
    refine ⟨.bytes (Units.encode text), .text (Units.decode (Units.encode text)), rfl, rfl, ?_⟩
    simp [asField, textKept_iff]

theorem localPrivkey_back (mayBe : MayBeText (fields.own "localPrivkey")) :
    ∃ bytes localPrivkey,
      ifDefined (fields.get "localPrivkey") (encodeText codecs) = some bytes ∧
      ifDefined bytes decodeText = some localPrivkey ∧
      (asField localPrivkey = fields.own "localPrivkey" ↔
        (∀ text, fields.own "localPrivkey" = some (.text text) → TextKept text) ∧
          fields.own "localPrivkey" ≠ some .null) := by
  rcases mayBe with absent | null | ⟨text, owned⟩
  · rw [get_of_absent absent, absent]
    exact ⟨.undefined, .undefined, rfl, rfl, by simp [asField]⟩
  · rw [get_of_own null, null]
    exact ⟨_, _, rfl, rfl, by simp [asField]⟩
  · rw [get_of_own owned, owned]
    refine ⟨.bytes (Units.encode text), .text (Units.decode (Units.encode text)), rfl, rfl, ?_⟩
    simp [asField, textKept_iff]

theorem config_back (accepted : AcceptedConfig fields) :
    toMemoryConfig codecs fields >>= toStorageConfig = some fields ↔ ConfigKept fields := by
  obtain ⟨_, _, encoded, decoded, keptSecret⟩ := @secret_back codecs fields accepted.secret
  obtain ⟨_, _, encoded', decoded', keptPrivkey⟩ :=
    @localPrivkey_back codecs fields accepted.localPrivkey
  constructor
  · intro same
    obtain ⟨mem, -, stored⟩ := Option.bind_eq_some_iff.mp same
    obtain ⟨noSecretBytes, noLocalPrivkeyBytes⟩ := toStorageConfig_names stored
    obtain ⟨sameSecret, samePrivkey⟩ := (config_rebuilt accepted noSecretBytes noLocalPrivkeyBytes
      encoded encoded' decoded decoded').mp same
    obtain ⟨privkey, notNull⟩ := keptPrivkey.mp samePrivkey
    exact ⟨keptSecret.mp sameSecret, privkey, notNull, noSecretBytes, noLocalPrivkeyBytes⟩
  · intro kept
    exact (config_rebuilt accepted kept.noSecretBytes kept.noLocalPrivkeyBytes encoded encoded'
      decoded decoded').mpr
        ⟨keptSecret.mpr kept.secret, keptPrivkey.mpr ⟨kept.localPrivkey, kept.notNull⟩⟩

theorem toMemoryConfig_some (accepted : AcceptedConfig fields) :
    ∃ mem, toMemoryConfig codecs fields = some mem := by
  obtain ⟨_, _, encoded, -⟩ := @secret_back codecs fields accepted.secret
  obtain ⟨_, _, encoded', -⟩ := @localPrivkey_back codecs fields accepted.localPrivkey
  simp only [toMemoryConfig, encoded, encoded', Option.bind_eq_bind, Option.bind_some]
  exact ⟨_, rfl⟩

end Configs

/-! ### Post-quantum keys -/

/-- A key as it is stored, with its secret half in canonical base64. -/
def AcceptedHalves (codecs : Codecs) (field : Option Val) (inner : Fields) (secret : List UInt8) :
    Prop :=
  field = some (.object inner) ∧ (∃ public_, inner.own "public" = some public_) ∧
    inner.own "secret" = some (.text (codecs.bytesToBase64 secret))

structure AcceptedKeys (codecs : Codecs) (fields : Fields) : Prop where
  profile : ∃ profile, fields.own "profile" = some profile
  kem : ∃ inner secret, AcceptedHalves codecs (fields.own "kem") inner secret
  dsa : ∃ inner secret, AcceptedHalves codecs (fields.own "dsa") inner secret
  importedAt : ∃ importedAt, fields.own "importedAt" = some importedAt

def Only (names : List String) (fields : Fields) : Prop :=
  ∀ name, fields name ≠ none → name ∈ names.map Units.ofString

structure KeysKept (fields : Fields) : Prop where
  only : Only ["profile", "kem", "dsa", "importedAt"] fields
  kem : ∀ inner, fields.own "kem" = some (.object inner) → Only ["public", "secret"] inner
  dsa : ∀ inner, fields.own "dsa" = some (.object inner) → Only ["public", "secret"] inner

section Keys

variable {codecs : Codecs} {fields inner : Fields}

theorem halves_eq_iff {public_ secret : Val} (public' : inner.own "public" = some public_)
    (secret' : inner.own "secret" = some secret) :
    halves public_ secret = .object inner ↔ Only ["public", "secret"] inner := by
  have rebuilt : halves public_ secret = .object inner ↔
      (Fields.empty.put "public" public_).put "secret" secret = inner := by
    rw [halves, Val.object.injEq]
  rw [rebuilt]
  constructor
  · rintro rfl name named
    by_contra free
    simp only [List.map_cons, List.map_nil, List.mem_cons, List.not_mem_nil, or_false, not_or] at free
    rw [put_other free.2, put_other free.1] at named
    exact named rfl
  · intro only
    funext name
    by_cases isSecret : name = Units.ofString "secret"
    · rw [isSecret, put_same]
      exact secret'.symm
    by_cases isPublic : name = Units.ofString "public"
    · rw [isPublic, put_other (by decide), put_same]
      exact public'.symm
    rw [put_other isSecret, put_other isPublic]
    by_contra differs
    have named := only name (Ne.symm differs)
    simp [isSecret, isPublic] at named

theorem keys_back (lawful : codecs.Lawful) (accepted : AcceptedKeys codecs fields) :
    ∃ pqPublic kem dsa back, pqPublicOf (.object fields) = some pqPublic ∧
      secretBytesOf codecs "kem" (.object fields) = some kem ∧
      secretBytesOf codecs "dsa" (.object fields) = some dsa ∧
      isDefined pqPublic = true ∧
      pqKeysOf codecs pqPublic kem dsa = some back ∧ isDefined back = true ∧
      (back = .object fields ↔ KeysKept fields) := by
  obtain ⟨profile, ownProfile⟩ := accepted.profile
  obtain ⟨importedAt, ownImportedAt⟩ := accepted.importedAt
  obtain ⟨kem, kemSecret, ownKem, ⟨kemPublic, ownKemPublic⟩, ownKemSecret⟩ := accepted.kem
  obtain ⟨dsa, dsaSecret, ownDsa, ⟨dsaPublic, ownDsaPublic⟩, ownDsaSecret⟩ := accepted.dsa
  let pub := (((Fields.empty.put "profile" profile).put "kem" kemPublic).put "dsa" dsaPublic).put
    "importedAt" importedAt
  have gotProfile : pub.get "profile" = profile :=
    get_of_own <| by simp (disch := decide) [Fields.own, pub]
  have gotKem : pub.get "kem" = kemPublic :=
    get_of_own <| by simp (disch := decide) [Fields.own, pub]
  have gotDsa : pub.get "dsa" = dsaPublic :=
    get_of_own <| by simp (disch := decide) [Fields.own, pub]
  have gotImportedAt : pub.get "importedAt" = importedAt := get_of_own <| by simp [Fields.own, pub]
  let kemBack := halves kemPublic (.text (codecs.bytesToBase64 kemSecret))
  let dsaBack := halves dsaPublic (.text (codecs.bytesToBase64 dsaSecret))
  let back := (((Fields.empty.put "profile" profile).put "kem" kemBack).put "dsa" dsaBack).put
    "importedAt" importedAt
  refine ⟨.object pub, .bytes kemSecret, .bytes dsaSecret, .object back, ?_, ?_, ?_, rfl, ?_, rfl, ?_⟩
  · simp only [pqPublicOf, read, get_of_own ownProfile, get_of_own ownKem, get_of_own ownDsa,
      get_of_own ownImportedAt, get_of_own ownKemPublic, get_of_own ownDsaPublic,
      Option.bind_eq_bind, Option.bind_some]
    rfl
  · simp only [secretBytesOf, read, get_of_own ownKem, get_of_own ownKemSecret, base64ToBytes,
      lawful.base64, Option.bind_eq_bind, Option.bind_some, Option.map_some]
  · simp only [secretBytesOf, read, get_of_own ownDsa, get_of_own ownDsaSecret, base64ToBytes,
      lawful.base64, Option.bind_eq_bind, Option.bind_some, Option.map_some]
  · simp only [pqKeysOf, isTruthy, Bool.and_self, if_true, read, gotProfile, gotKem, gotDsa,
      gotImportedAt, bytesToBase64, Option.bind_eq_bind, Option.bind_some]
    rfl
  · rw [Val.object.injEq]
    constructor
    · intro same
      have only : Only ["profile", "kem", "dsa", "importedAt"] fields := by
        intro name named
        by_contra free
        simp only [List.map_cons, List.map_nil, List.mem_cons, List.not_mem_nil, or_false,
          not_or] at free
        obtain ⟨notProfile, notKem, notDsa, notImportedAt⟩ := free
        rw [← same] at named
        simp only [back] at named
        rw [put_other notImportedAt, put_other notDsa, put_other notKem, put_other notProfile] at named
        exact named rfl
      have sameKem : some kemBack = some (.object kem) := by
        rw [← ownKem, ← same]
        simp (disch := decide) [Fields.own, back]
      have sameDsa : some dsaBack = some (.object dsa) := by
        rw [← ownDsa, ← same]
        simp (disch := decide) [Fields.own, back]
      have kemOnly := (halves_eq_iff ownKemPublic ownKemSecret).mp (Option.some.inj sameKem)
      have dsaOnly := (halves_eq_iff ownDsaPublic ownDsaSecret).mp (Option.some.inj sameDsa)
      refine ⟨only, fun inner owned => ?_, fun inner owned => ?_⟩
      · rw [ownKem] at owned
        cases owned
        exact kemOnly
      · rw [ownDsa] at owned
        cases owned
        exact dsaOnly
    · intro kept
      have sameKem := (halves_eq_iff ownKemPublic ownKemSecret).mpr (kept.kem kem ownKem)
      have sameDsa := (halves_eq_iff ownDsaPublic ownDsaSecret).mpr (kept.dsa dsa ownDsa)
      funext name
      simp only [back]
      by_cases isImportedAt : name = Units.ofString "importedAt"
      · rw [isImportedAt, put_same]
        exact ownImportedAt.symm
      by_cases isDsa : name = Units.ofString "dsa"
      · rw [isDsa, put_other (by decide), put_same]
        exact (congrArg some sameDsa).trans ownDsa.symm
      by_cases isKem : name = Units.ofString "kem"
      · rw [isKem, put_other (by decide), put_other (by decide), put_same]
        exact (congrArg some sameKem).trans ownKem.symm
      by_cases isProfile : name = Units.ofString "profile"
      · rw [isProfile, put_other (by decide), put_other (by decide), put_other (by decide), put_same]
        exact ownProfile.symm
      rw [put_other isImportedAt, put_other isDsa, put_other isKem, put_other isProfile]
      by_contra differs
      have named := kept.only name (Ne.symm differs)
      simp [isImportedAt, isDsa, isKem, isProfile] at named

end Keys

/-! ### Whole accounts -/

/-- The names that only an account in memory has, and the one that sets a prototype. -/
def RESERVED : List String :=
  ["__proto__", "privkeyBytes", "mnemonicBytes", "pqPublic", "pqKemSecretBytes", "pqDsaSecretBytes",
    "nip46"]

/-- An account as the vault takes it. -/
structure Accepted (codecs : Codecs) (acct : Fields) : Prop where
  privkey : acct.own "privkey" = none ∨ acct.own "privkey" = some .null ∨
    ∃ text, acct.own "privkey" = some (.text text) ∧ isHex text = true
  mnemonic : MayBeText (acct.own "mnemonic")
  nip46Config : acct.own "nip46Config" = none ∨ acct.own "nip46Config" = some .null ∨
    ∃ fields, acct.own "nip46Config" = some (.object fields) ∧ AcceptedConfig fields
  pqKeys : acct.own "pqKeys" = none ∨ acct.own "pqKeys" = some .null ∨
    ∃ fields, acct.own "pqKeys" = some (.object fields) ∧ AcceptedKeys codecs fields

/-- What an account must be to come back from memory as it was. -/
structure Kept (acct : Fields) : Prop where
  privkey : acct.own "privkey" ≠ none ∧ acct.own "privkey" ≠ some (.text [])
  mnemonic : acct.own "mnemonic" ≠ none ∧ acct.own "mnemonic" ≠ some (.text []) ∧
    ∀ text, acct.own "mnemonic" = some (.text text) → TextKept text
  nip46Config : ∀ fields, acct.own "nip46Config" = some (.object fields) → ConfigKept fields
  pqKeys : ∀ fields, acct.own "pqKeys" = some (.object fields) → KeysKept fields
  unreserved : ∀ name ∈ RESERVED, acct.own name = none

/-- One unlock and one save. -/
def roundTrip (codecs : Codecs) (configLast storedLast : Fields → Bool) (acct : Fields) :
    Option Fields :=
  toMemoryAccount codecs (configLast acct) acct >>= fun mem =>
    toStorageAccount codecs (storedLast mem) mem

section Accounts

variable {codecs : Codecs} {acct : Fields} {configLast storedLast : Fields → Bool}

variable {last : Bool}

variable {value : Val} {skipped : List String} {renamed : String}

theorem restOf_skipped {name : Units} (named : name ∈ ("__proto__" :: skipped).map Units.ofString) :
    restOf acct skipped renamed value last name = none := if_pos named

theorem restOf_other {name : Units} (free : name ∉ ("__proto__" :: skipped).map Units.ofString)
    (different : name ≠ Units.ofString renamed) :
    restOf acct skipped renamed value last name = acct name := by
  rw [restOf, if_neg free, putDefined_other different, ite_self]

theorem restOf_renamed (free : Units.ofString renamed ∉ ("__proto__" :: skipped).map Units.ofString)
    (absent : acct (Units.ofString renamed) = none) :
    restOf acct skipped renamed value last (Units.ofString renamed) = asField value := by
  rw [restOf, if_neg free, if_pos (by simp [absent]), putDefined_same, absent, Option.or_none]

theorem toStorageAccount_names {mem back : Fields}
    (stored : toStorageAccount codecs last mem = some back) :
    ∀ name ∈ RESERVED, back.own name = none := by
  obtain ⟨config, -, stored⟩ := Option.bind_eq_some_iff.mp stored
  obtain ⟨privkey, -, stored⟩ := Option.bind_eq_some_iff.mp stored
  obtain ⟨mnemonic, -, stored⟩ := Option.bind_eq_some_iff.mp stored
  obtain ⟨pqKeys, -, stored⟩ := Option.bind_eq_some_iff.mp stored
  cases stored
  simp only [RESERVED, List.forall_mem_cons]
  simp (disch := decide) [Fields.own, restOf_skipped]

theorem ifDefined_of_isDefined {convert : Val → Option Val} (defined : isDefined value = true) :
    ifDefined value convert = convert value := by
  cases value with
  | undefined => contradiction
  | null | boolean | number | text | bytes | array | object => rfl

theorem privkey_back (lawful : codecs.Lawful) (accepted : Accepted codecs acct) :
    ∃ bytes back, orNull (acct.get "privkey") (hexToBytes codecs) = some bytes ∧
      orNull bytes (bytesToHex codecs) = some back ∧
      (some back = acct.own "privkey" ↔
        acct.own "privkey" ≠ none ∧ acct.own "privkey" ≠ some (.text [])) := by
  rcases accepted.privkey with absent | null | ⟨text, owned, hex⟩
  · rw [get_of_absent absent, absent]
    exact ⟨.null, .null, rfl, rfl, by simp⟩
  · rw [get_of_own null, null]
    exact ⟨.null, .null, rfl, rfl, by simp⟩
  · rw [get_of_own owned, owned]
    cases text with
    | nil => exact ⟨.null, .null, rfl, rfl, by simp⟩
    | cons unit rest =>
      obtain ⟨bytes, decoded, encoded⟩ := lawful.hex _ hex
      refine ⟨.bytes bytes, .text (unit :: rest), ?_, ?_, by simp⟩
      · simp [orNull, isTruthy, hexToBytes, decoded]
      · simp [orNull, isTruthy, bytesToHex, encoded]

theorem mnemonic_back (accepted : Accepted codecs acct) :
    ∃ bytes back, orNull (acct.get "mnemonic") (encodeText codecs) = some bytes ∧
      orNull bytes decodeText = some back ∧
      (some back = acct.own "mnemonic" ↔
        acct.own "mnemonic" ≠ none ∧ acct.own "mnemonic" ≠ some (.text []) ∧
          ∀ text, acct.own "mnemonic" = some (.text text) → TextKept text) := by
  rcases accepted.mnemonic with absent | null | ⟨text, owned⟩
  · rw [get_of_absent absent, absent]
    exact ⟨.null, .null, rfl, rfl, by simp⟩
  · rw [get_of_own null, null]
    exact ⟨.null, .null, rfl, rfl, by simp⟩
  · rw [get_of_own owned, owned]
    cases text with
    | nil => exact ⟨.null, .null, rfl, rfl, by simp⟩
    | cons unit rest =>
      refine ⟨.bytes (Units.encode (unit :: rest)),
        .text (Units.decode (Units.encode (unit :: rest))), rfl, rfl, ?_⟩
      simp [textKept_iff]

theorem nip46Config_back (accepted : Accepted codecs acct) :
    ∃ mem, ifDefined (acct.get "nip46Config") (toMemoryNip46 codecs) = some mem ∧
      ((∃ back, ifDefined mem (toStorageNip46 codecs) = some back ∧
        asField back = acct.own "nip46Config") ↔
        ∀ fields, acct.own "nip46Config" = some (.object fields) → ConfigKept fields) := by
  rcases accepted.nip46Config with absent | null | ⟨fields, owned, config⟩
  · rw [get_of_absent absent, absent]
    exact ⟨.undefined, rfl, iff_of_true ⟨.undefined, rfl, rfl⟩ (by simp)⟩
  · rw [get_of_own null, null]
    exact ⟨.null, rfl, iff_of_true ⟨.null, rfl, rfl⟩ (by simp)⟩
  · rw [get_of_own owned, owned]
    obtain ⟨mem, inMemory⟩ := @toMemoryConfig_some codecs fields config
    have back := @config_back codecs fields config
    rw [inMemory] at back
    refine ⟨.object mem, ?_, ?_⟩
    · show (toMemoryConfig codecs fields).map Val.object = _
      rw [inMemory]
      rfl
    · have same : (∃ back, ifDefined (.object mem) (toStorageNip46 codecs) = some back ∧
          asField back = some (.object fields)) ↔ toStorageConfig mem = some fields := by
        show (∃ back, (toStorageConfig mem).map Val.object = some back ∧
          asField back = some (.object fields)) ↔ _
        cases toStorageConfig mem with
        | none => simp
        | some stored => simp [asField]
      rw [same]
      refine Iff.trans back ⟨fun kept other owned => ?_, fun kept => kept fields rfl⟩
      cases owned
      exact kept

theorem pqKeys_back (lawful : codecs.Lawful) (accepted : Accepted codecs acct) :
    ∃ pqPublic kem dsa back,
      (ifDefined (acct.get "pqKeys") fun pqKeys => orNull pqKeys pqPublicOf) = some pqPublic ∧
      orNull (acct.get "pqKeys") (secretBytesOf codecs "kem") = some kem ∧
      orNull (acct.get "pqKeys") (secretBytesOf codecs "dsa") = some dsa ∧
      (ifDefined pqPublic fun pqPublic => pqKeysOf codecs pqPublic kem dsa) = some back ∧
      (asField back = acct.own "pqKeys" ↔
        ∀ fields, acct.own "pqKeys" = some (.object fields) → KeysKept fields) := by
  rcases accepted.pqKeys with absent | null | ⟨fields, owned, keys⟩
  · rw [get_of_absent absent, absent]
    exact ⟨.undefined, .null, .null, .undefined, rfl, rfl, rfl, rfl, by simp [asField]⟩
  · rw [get_of_own null, null]
    exact ⟨.null, .null, .null, .null, rfl, rfl, rfl, rfl, by simp [asField]⟩
  · rw [get_of_own owned, owned]
    obtain ⟨pqPublic, kem, dsa, back, public_, kemSecret, dsaSecret, defined, stored, defined',
      same⟩ := keys_back lawful keys
    refine ⟨pqPublic, kem, dsa, back, public_, kemSecret, dsaSecret, ?_, ?_⟩
    · rw [ifDefined_of_isDefined defined, stored]
    · have field : asField back = some back := by
        cases back with
        | undefined => contradiction
        | null | boolean | number | text | bytes | array | object => rfl
      rw [field, Option.some.injEq, same]
      refine ⟨fun kept other owned => ?_, fun kept => kept fields rfl⟩
      cases owned
      exact kept

theorem account_rebuilt
    {config privkeyBytes mnemonicBytes pqPublic kem dsa privkey mnemonic pqKeys : Val}
    (unreserved : ∀ name ∈ RESERVED, acct.own name = none)
    (converted : ifDefined (acct.get "nip46Config") (toMemoryNip46 codecs) = some config)
    (decoded : orNull (acct.get "privkey") (hexToBytes codecs) = some privkeyBytes)
    (encoded : orNull (acct.get "mnemonic") (encodeText codecs) = some mnemonicBytes)
    (public_ : (ifDefined (acct.get "pqKeys") fun pqKeys => orNull pqKeys pqPublicOf) =
      some pqPublic)
    (kemSecret : orNull (acct.get "pqKeys") (secretBytesOf codecs "kem") = some kem)
    (dsaSecret : orNull (acct.get "pqKeys") (secretBytesOf codecs "dsa") = some dsa)
    (storedPrivkey : orNull privkeyBytes (bytesToHex codecs) = some privkey)
    (storedMnemonic : orNull mnemonicBytes decodeText = some mnemonic)
    (storedKeys : (ifDefined pqPublic fun pqPublic => pqKeysOf codecs pqPublic kem dsa) =
      some pqKeys) :
    roundTrip codecs configLast storedLast acct = some acct ↔
      (∃ back, ifDefined config (toStorageNip46 codecs) = some back ∧
        asField back = acct.own "nip46Config") ∧
      some privkey = acct.own "privkey" ∧ some mnemonic = acct.own "mnemonic" ∧
      asField pqKeys = acct.own "pqKeys" := by
  let rest := restOf acct ["privkey", "mnemonic", "pqKeys", "nip46Config"] "nip46" config
    (configLast acct)
  let mem := ((((rest.put "privkeyBytes" privkeyBytes).put "mnemonicBytes" mnemonicBytes).putDefined
    "pqPublic" pqPublic).put "pqKemSecretBytes" kem).put "pqDsaSecretBytes" dsa
  have inMemory : toMemoryAccount codecs (configLast acct) acct = some mem := by
    simp only [toMemoryAccount, converted, decoded, encoded, public_, kemSecret, dsaSecret,
      Option.bind_eq_bind, Option.bind_some]
    rfl
  have free : ∀ name ∈ RESERVED, acct (Units.ofString name) = none := unreserved
  have gotConfig : mem.get "nip46" = config := get_of_asField <| by
    have unnamed := free "nip46" (by decide)
    simp (disch := first | decide | exact unnamed) [Fields.own, mem, rest, restOf_renamed]
  have gotPrivkey : mem.get "privkeyBytes" = privkeyBytes :=
    get_of_own <| by simp (disch := decide) [Fields.own, mem]
  have gotMnemonic : mem.get "mnemonicBytes" = mnemonicBytes :=
    get_of_own <| by simp (disch := decide) [Fields.own, mem]
  have gotPublic : mem.get "pqPublic" = pqPublic := get_of_asField <| by
    simp (disch := decide) [Fields.own, mem, rest, restOf_other, free]
  have gotKem : mem.get "pqKemSecretBytes" = kem :=
    get_of_own <| by simp (disch := decide) [Fields.own, mem]
  have gotDsa : mem.get "pqDsaSecretBytes" = dsa := get_of_own <| by simp [Fields.own, mem]
  have round : roundTrip codecs configLast storedLast acct =
      (ifDefined config (toStorageNip46 codecs)).map fun back =>
        (((restOf mem ["privkeyBytes", "mnemonicBytes", "pqPublic", "pqKemSecretBytes",
          "pqDsaSecretBytes", "nip46"] "nip46Config" back (storedLast mem)).put "privkey" privkey).put
            "mnemonic" mnemonic).putDefined "pqKeys" pqKeys := by
    rw [roundTrip, inMemory]
    show toStorageAccount codecs (storedLast mem) mem = _
    simp only [toStorageAccount, gotConfig, gotPrivkey, gotMnemonic, gotPublic, gotKem, gotDsa,
      storedPrivkey, storedMnemonic, storedKeys, Option.bind_eq_bind, Option.bind_some]
    cases ifDefined config (toStorageNip46 codecs) <;> rfl
  cases stored : ifDefined config (toStorageNip46 codecs) with
  | none =>
    rw [round, stored]
    simp
  | some back =>
    rw [round, stored, Option.map_some, Option.some.injEq]
    have memSkipped : ∀ name ∈ ["privkey", "mnemonic", "pqKeys", "nip46Config"],
        mem (Units.ofString name) = none := by
      simp only [List.forall_mem_cons]
      simp (disch := decide) [mem, rest, restOf_skipped]
    let result := (((restOf mem ["privkeyBytes", "mnemonicBytes", "pqPublic", "pqKemSecretBytes",
      "pqDsaSecretBytes", "nip46"] "nip46Config" back (storedLast mem)).put "privkey" privkey).put
        "mnemonic" mnemonic).putDefined "pqKeys" pqKeys
    have resultConfig : result (Units.ofString "nip46Config") = asField back := by
      have unnamed := memSkipped "nip46Config" (by decide)
      simp (disch := first | decide | exact unnamed) [result, restOf_renamed]
    have resultPrivkey : result (Units.ofString "privkey") = some privkey := by
      simp (disch := decide) [result]
    have resultMnemonic : result (Units.ofString "mnemonic") = some mnemonic := by
      simp (disch := decide) [result]
    have resultKeys : result (Units.ofString "pqKeys") = asField pqKeys := by
      simp (disch := decide) [result, restOf_other, memSkipped]
    show result = acct ↔ _
    constructor
    · intro same
      rw [same] at resultConfig resultPrivkey resultMnemonic resultKeys
      exact ⟨⟨back, rfl, resultConfig.symm⟩, resultPrivkey.symm, resultMnemonic.symm,
        resultKeys.symm⟩
    · rintro ⟨⟨other, sameBack, sameConfig⟩, samePrivkey, sameMnemonic, sameKeys⟩
      cases sameBack
      funext name
      by_cases isConfig : name = Units.ofString "nip46Config"
      · rw [isConfig]
        exact resultConfig.trans sameConfig
      by_cases isPrivkey : name = Units.ofString "privkey"
      · rw [isPrivkey]
        exact resultPrivkey.trans samePrivkey
      by_cases isMnemonic : name = Units.ofString "mnemonic"
      · rw [isMnemonic]
        exact resultMnemonic.trans sameMnemonic
      by_cases isKeys : name = Units.ofString "pqKeys"
      · rw [isKeys]
        exact resultKeys.trans sameKeys
      by_cases reserved : name ∈ RESERVED.map Units.ofString
      · obtain ⟨spelled, named, rfl⟩ := List.mem_map.mp reserved
        have whole : roundTrip codecs configLast storedLast acct = some result := by
          rw [round, stored]
          rfl
        obtain ⟨memory, -, saved⟩ := Option.bind_eq_some_iff.mp whole
        exact (toStorageAccount_names saved spelled named).trans (free spelled named).symm
      · simp only [RESERVED, List.map_cons, List.map_nil, List.mem_cons, List.not_mem_nil, or_false,
          not_or] at reserved
        obtain ⟨notProto, notPrivkey, notMnemonic, notPublic, notKem, notDsa, notConfig⟩ := reserved
        simp [result, mem, rest, restOf_other, notProto, notPrivkey, notMnemonic, notPublic, notKem,
          notDsa, notConfig, isKeys, isMnemonic, isPrivkey, isConfig]

theorem roundTrip_iff (lawful : codecs.Lawful) (accepted : Accepted codecs acct) :
    roundTrip codecs configLast storedLast acct = some acct ↔ Kept acct := by
  obtain ⟨privkeyBytes, privkey, decoded, storedPrivkey, keptPrivkey⟩ := privkey_back lawful accepted
  obtain ⟨mnemonicBytes, mnemonic, encoded, storedMnemonic, keptMnemonic⟩ := mnemonic_back accepted
  obtain ⟨config, converted, keptConfig⟩ := nip46Config_back accepted
  obtain ⟨pqPublic, kem, dsa, pqKeys, public_, kemSecret, dsaSecret, storedKeys, keptKeys⟩ :=
    pqKeys_back lawful accepted
  have rebuilt : (∀ name ∈ RESERVED, acct.own name = none) → (_ ↔ _) := fun unreserved =>
    @account_rebuilt codecs acct configLast storedLast _ _ _ _ _ _ _ _ _ unreserved converted decoded
      encoded public_ kemSecret dsaSecret storedPrivkey storedMnemonic storedKeys
  constructor
  · intro same
    obtain ⟨mem, -, stored⟩ := Option.bind_eq_some_iff.mp same
    have unreserved := toStorageAccount_names stored
    obtain ⟨configBack, privkeyBack, mnemonicBack, keysBack⟩ := (rebuilt unreserved).mp same
    exact ⟨keptPrivkey.mp privkeyBack, keptMnemonic.mp mnemonicBack, keptConfig.mp configBack,
      keptKeys.mp keysBack, unreserved⟩
  · intro kept
    exact (rebuilt kept.unreserved).mpr ⟨keptConfig.mpr kept.nip46Config,
      keptPrivkey.mpr kept.privkey, keptMnemonic.mpr kept.mnemonic, keptKeys.mpr kept.pqKeys⟩

end Accounts

/-! ### Whole payloads -/

structure AcceptedPayload (codecs : Codecs) (payload : Payload) : Prop where
  cacheKey : ∀ key, payload.cacheKey = some key → ∃ bytes, key = codecs.bytesToBase64 bytes
  accounts : ∀ acct ∈ payload.accounts, Accepted codecs acct

structure PayloadKept (payload : Payload) : Prop where
  cacheKey : payload.cacheKey ≠ some []
  accounts : ∀ acct ∈ payload.accounts, Kept acct

def payloadRoundTrip (codecs : Codecs) (configLast storedLast : Fields → Bool) (payload : Payload) :
    Option Payload :=
  toMemoryPayload codecs configLast payload >>= toStoragePayload codecs storedLast

section Payloads

variable {codecs : Codecs}

theorem mapM_back {α β : Type} {there : α → Option β} {back : β → Option α} (items : List α) :
    (items.mapM there >>= fun moved => moved.mapM back) = some items ↔
      ∀ item ∈ items, there item >>= back = some item := by
  induction items with
  | nil => simp
  | cons item rest ih =>
    rw [List.forall_mem_cons, ← ih, List.mapM_cons]
    cases there item with
    | none => simp
    | some moved =>
      cases rest.mapM there with
      | none => simp
      | some others =>
        simp only [Option.bind_eq_bind, Option.bind_some, List.mapM_cons, Option.pure_def]
        cases back moved with
        | none => simp
        | some first =>
          cases others.mapM back with
          | none => simp
          | some rest => simp

theorem payloadRoundTrip_iff (lawful : codecs.Lawful) {configLast storedLast : Fields → Bool}
    {payload : Payload} (accepted : AcceptedPayload codecs payload) :
    payloadRoundTrip codecs configLast storedLast payload = some payload ↔ PayloadKept payload := by
  have accounts := @mapM_back _ _ (fun acct => toMemoryAccount codecs (configLast acct) acct)
    (fun mem => toStorageAccount codecs (storedLast mem) mem) payload.accounts
  have each : (∀ acct ∈ payload.accounts, roundTrip codecs configLast storedLast acct = some acct) ↔
      ∀ acct ∈ payload.accounts, Kept acct := by
    constructor
    · intro same acct member
      exact (roundTrip_iff lawful (accepted.accounts acct member)).mp (same acct member)
    · intro kept acct member
      exact (roundTrip_iff lawful (accepted.accounts acct member)).mpr (kept acct member)
  obtain ⟨bytes, decoded, sameKey⟩ : ∃ bytes, cacheKeyBytes codecs payload.cacheKey = some bytes ∧
      (bytes.map codecs.bytesToBase64 = payload.cacheKey ↔ payload.cacheKey ≠ some []) := by
    cases owned : payload.cacheKey with
    | none => exact ⟨none, rfl, by simp⟩
    | some key =>
      cases key with
      | nil => exact ⟨none, rfl, by simp⟩
      | cons unit rest =>
        obtain ⟨bytes, spelled⟩ := accepted.cacheKey _ owned
        refine ⟨some bytes, ?_, by simp [← spelled]⟩
        rw [cacheKeyBytes, spelled, lawful.base64]
        rfl
  have round : payloadRoundTrip codecs configLast storedLast payload =
      (payload.accounts.mapM (fun acct => toMemoryAccount codecs (configLast acct) acct) >>=
        fun moved => moved.mapM fun mem => toStorageAccount codecs (storedLast mem) mem).map
          fun accounts => ⟨bytes.map codecs.bytesToBase64, accounts, payload.activeAccountId⟩ := by
    rw [payloadRoundTrip, toMemoryPayload, decoded]
    cases moved : payload.accounts.mapM fun acct => toMemoryAccount codecs (configLast acct) acct with
    | none => rfl
    | some mems =>
      simp only [Option.bind_eq_bind, Option.bind_some, Option.pure_def, toStoragePayload]
      cases mems.mapM fun mem => toStorageAccount codecs (storedLast mem) mem <;> rfl
  rw [round]
  constructor
  · intro same
    obtain ⟨stored, back, shape⟩ := Option.map_eq_some_iff.mp same
    have parts := Payload.mk.inj shape
    rw [parts.2.1] at back
    exact ⟨sameKey.mp parts.1, each.mp (accounts.mp back)⟩
  · intro kept
    rw [accounts.mpr (each.mpr kept.accounts), Option.map_some, sameKey.mpr kept.cacheKey]

/-- Accounts and payloads come back from memory exactly when they are kept, and kept payloads
outlast any number of rounds. -/
theorem saves_lose_nothing_iff (lawful : codecs.Lawful) :
    (∀ acct configLast storedLast, Accepted codecs acct →
      (roundTrip codecs configLast storedLast acct = some acct ↔ Kept acct)) ∧
    (∀ payload configLast storedLast, AcceptedPayload codecs payload →
      (payloadRoundTrip codecs configLast storedLast payload = some payload ↔
        PayloadKept payload)) ∧
    ∀ payload, AcceptedPayload codecs payload → PayloadKept payload →
      ∀ rounds : List ((Fields → Bool) × (Fields → Bool)),
        rounds.foldlM (fun payload orders =>
          payloadRoundTrip codecs orders.1 orders.2 payload) payload = some payload := by
  refine ⟨fun acct _ _ accepted => roundTrip_iff lawful accepted,
    fun payload _ _ accepted => payloadRoundTrip_iff lawful accepted, ?_⟩
  intro payload accepted kept rounds
  induction rounds with
  | nil => rfl
  | cons orders rest ih =>
    rw [List.foldlM_cons, (payloadRoundTrip_iff lawful accepted).mpr kept]
    exact ih

end Payloads

/-! ### A mnemonic that loses its first character -/

def nibble (unit : UInt16) : Nat := if unit < 97 then unit.toNat - 48 else unit.toNat - 87

def pairBytes : Units → Option (List UInt8)
  | [] => some []
  | [_] => none
  | high :: low :: rest =>
    (pairBytes rest).map fun bytes => UInt8.ofNat (nibble high * 16 + nibble low) :: bytes

def standard : Codecs where
  hexToBytes text := if isHex text then pairBytes text else none
  bytesToHex bytes := bytes.flatMap fun byte =>
    [Units.hexUnit (byte.toNat / 16), Units.hexUnit (byte.toNat % 16)]
  base64ToBytes text := Base64.atob (Units.scalars text)
  bytesToBase64 bytes := (Base64.btoa bytes).flatMap Units.ofChar
  stringOf _ := none
  spreadOf _ := Fields.empty

theorem hexUnit_nibble {unit : UInt16} (hex : isHexUnit unit = true) :
    nibble unit < 16 ∧ Units.hexUnit (nibble unit) = unit := by
  have every : ∀ code : Fin 128, isHexUnit (UInt16.ofNat code) = true →
      nibble (UInt16.ofNat code) < 16 ∧
        Units.hexUnit (nibble (UInt16.ofNat code)) = UInt16.ofNat code := by
    decide
  have digit := hex
  simp only [isHexUnit, Bool.or_eq_true, Bool.and_eq_true, decide_eq_true_eq,
    UInt16.le_iff_toNat_le] at digit
  have bound : unit.toNat < 128 := by
    rcases digit with ⟨-, below⟩ | ⟨-, below⟩
    · exact Nat.lt_of_le_of_lt below (by decide)
    · exact Nat.lt_of_le_of_lt below (by decide)
  have known := every ⟨unit.toNat, bound⟩
  rw [UInt16.ofNat_toNat] at known
  exact known hex

theorem standard_lawful : standard.Lawful where
  hex text hex := by
    have decoded : ∀ text : Units, text.length % 2 = 0 → text.all isHexUnit = true →
        ∃ bytes, pairBytes text = some bytes ∧ standard.bytesToHex bytes = text := by
      intro text
      fun_induction pairBytes text with
      | case1 => exact fun _ _ => ⟨[], rfl, rfl⟩
      | case2 unit => exact fun even _ => absurd even (by simp)
      | case3 high low rest ih =>
        intro even every
        simp only [List.all_cons, Bool.and_eq_true] at every
        have short : rest.length % 2 = 0 := by
          simp only [List.length_cons] at even
          omega
        obtain ⟨bytes, read, written⟩ := ih short every.2.2
        obtain ⟨highSmall, highBack⟩ := hexUnit_nibble every.1
        obtain ⟨lowSmall, lowBack⟩ := hexUnit_nibble every.2.1
        have byte : (UInt8.ofNat (nibble high * 16 + nibble low)).toNat =
            nibble high * 16 + nibble low := by
          rw [UInt8.toNat_ofNat']
          exact Nat.mod_eq_of_lt (by omega)
        have first : (nibble high * 16 + nibble low) / 16 = nibble high := by omega
        have second : (nibble high * 16 + nibble low) % 16 = nibble low := by omega
        refine ⟨_, by rw [read]; rfl, ?_⟩
        simp only [standard] at written ⊢
        rw [List.flatMap_cons, written, byte, first, second, highBack, lowBack]
        rfl
    obtain ⟨even, every⟩ := (Bool.and_eq_true _ _).mp hex
    obtain ⟨bytes, read, written⟩ := decoded text (of_decide_eq_true even) every
    exact ⟨bytes, by rw [← read]; exact if_pos hex, written⟩
  base64 bytes := by
    simp only [standard]
    rw [Units.scalars_ofChars, Base64.atob_btoa]

/-- An account whose mnemonic begins with a byte order mark. -/
def marked : Fields :=
  (Fields.empty.put "privkey" (.text (Units.ofString "0a1b"))).put "mnemonic"
    (.text (Units.ofString "\uFEFFabandon ability"))

theorem marked_accepted : Accepted standard marked where
  privkey := .inr (.inr ⟨_, rfl, by decide⟩)
  mnemonic := .inr (.inr ⟨_, rfl⟩)
  nip46Config := .inl rfl
  pqKeys := .inl rfl

/-- The mark is gone after one round. -/
theorem mnemonic_loses_mark : ¬ ∀ codecs : Codecs, codecs.Lawful → ∀ acct configLast storedLast,
    Accepted codecs acct → roundTrip codecs configLast storedLast acct = some acct := by
  intro lossless
  have same := lossless standard standard_lawful marked (fun _ => true) (fun _ => true)
    marked_accepted
  have kept := (roundTrip_iff standard_lawful marked_accepted).mp same
  exact (kept.mnemonic.2.2 _ rfl).2 rfl

/-- The account of that mnemonic comes back exactly when the mark may stay, which it may not. -/
theorem saves_lose_nothing_iff_marked :
    roundTrip standard (fun _ => true) (fun _ => true) marked = some marked ↔ Kept marked :=
  (saves_lose_nothing_iff standard_lawful).1 marked _ _ marked_accepted

end NostrWot.Vault
