import NostrWot.Data.Outcome
import NostrWot.Vault.PasskeyStore

namespace NostrWot.Identity.Ncryptsec

/-! # Encrypted private keys

A private key under a password, in NIP-49's format, and the older format that
is still read.
-/

open Data NostrWot.Vault

/-- What the packages compute; each `none` is a throw. -/
structure Packages where
  /-- `password.normalize('NFKC')`. -/
  normalize : Units → Units
  /-- Of a password, a salt and a cost exponent. -/
  scrypt : Bytes → Bytes → Nat → Option Bytes
  pbkdf2 : Bytes → Bytes → Nat → Bytes
  /-- `xchacha20poly1305(key, nonce, aad).encrypt(plaintext)`. -/
  seal_ : Bytes → Bytes → Bytes → Bytes → Option Bytes
  open_ : Bytes → Bytes → Bytes → Bytes → Option Bytes
  /-- `gcm(key, iv).decrypt(ciphertext)`. -/
  gcmOpen : Bytes → Bytes → Bytes → Option Bytes
  /-- `bech32.encode(hrp, bech32.toWords(bytes), limit)`. -/
  encode : Units → Bytes → Nat → Option Units
  decode : Units → Nat → Option (Units × Bytes)

def VERSION_V2 : UInt8 := 2

def VERSION_LEGACY : UInt8 := 1

def MIN_LOG_N : Nat := 16

def MAX_LOG_N : Nat := 22

def KEY_SECURITY_UNKNOWN : UInt8 := 2

def V2_PAYLOAD_LENGTH : Nat := 1 + 1 + 16 + 24 + 1 + 48

def LEGACY_PBKDF2_ITERATIONS : Nat := 210000

def PRIVKEY_BYTES : Nat := 32

def BECH32_LIMIT : Nat := 5000

def HRP : Units := Units.ofString "ncryptsec"

variable (packages : Packages)

def deriveScryptKey (password : Units) (salt : Bytes) (logN : Nat) : Except String Bytes :=
  match packages.scrypt (Units.encode (packages.normalize password)) salt logN with
  | some key => .ok key
  | none => .error "Could not derive a key from this backup's scrypt parameters"

def costOf : Number → Option Nat
  | .finite value =>
    if value.den = 1 && MIN_LOG_N ≤ value && value ≤ MAX_LOG_N then some value.num.toNat else none
  | _ => none

/-- `salt` and `nonce` are what is drawn. -/
def encryptNcryptsec (privkey : Bytes) (password : Units) (logn : Number) (salt nonce : Bytes) :
    Except String Units := do
  if privkey.length ≠ PRIVKEY_BYTES then throw "Invalid private key length"
  let some cost := costOf logn |
    throw "Unsupported scrypt cost factor: log_n must be between 16 and 22"
  let key ← deriveScryptKey packages password salt cost
  let some ciphertext := packages.seal_ key nonce [KEY_SECURITY_UNKNOWN] privkey |
    throw "invalid cipher parameters"
  let payload := [VERSION_V2, UInt8.ofNat cost] ++ salt ++ nonce ++ [KEY_SECURITY_UNKNOWN] ++ ciphertext
  if V2_PAYLOAD_LENGTH < payload.length then throw "offset is out of bounds"
  let some text := packages.encode HRP
    (payload ++ List.replicate (V2_PAYLOAD_LENGTH - payload.length) 0) BECH32_LIMIT |
    throw "bech32: too long"
  return text

def wrongPassword : String := "Wrong password or corrupted data"

def decodeV2 (payload : Bytes) (password : Units) : Except String Bytes := do
  if payload.length ≠ V2_PAYLOAD_LENGTH then throw "Invalid ncryptsec payload length"
  let logN := (payload[1]?.getD 0).toNat
  if logN < 1 || MAX_LOG_N < logN then throw "Unsupported scrypt cost factor"
  let salt := (payload.take 18).drop 2
  let nonce := (payload.take 42).drop 18
  let key ← deriveScryptKey packages password salt logN
  match packages.open_ key nonce [payload[42]?.getD 0] (payload.drop 43) with
  | some privkey => return privkey
  | none => throw wrongPassword

def legacyOpens (payload : Bytes) (password : Units) : Option Bytes :=
  packages.gcmOpen
    (packages.pbkdf2 (Units.encode password) ((payload.take 17).drop 1) LEGACY_PBKDF2_ITERATIONS)
    ((payload.take 29).drop 17) (payload.drop 29)

def decodeLegacy (payload : Bytes) (password : Units) : Except String Bytes :=
  match legacyOpens packages payload password with
  | some privkey => .ok privkey
  | none => .error wrongPassword

def payloadOf (payload : Units) : Option Bytes :=
  match packages.decode (trimUnits payload) BECH32_LIMIT with
  | some (hrp, bytes) => if hrp = HRP then some bytes else none
  | none => none

def decryptNcryptsec (payload password : Units) : Except String Bytes :=
  match payloadOf packages payload with
  | none => .error "Invalid ncryptsec"
  | some bytes =>
    if bytes.head? = some VERSION_V2 then decodeV2 packages bytes password
    else if bytes.head? = some VERSION_LEGACY then decodeLegacy packages bytes password
    else .error "Unsupported ncryptsec version"

/-! ## What the packages document -/

/-- The ciphers are authenticated with a tag of sixteen bytes, keys are derived at every cost that
is written, and what is encoded is read back. -/
structure Packages.Lawful : Prop where
  derives : ∀ password salt cost, MIN_LOG_N ≤ cost → cost ≤ MAX_LOG_N →
    ∃ key, packages.scrypt password salt cost = some key
  opens : ∀ key nonce aad plaintext, nonce.length = 24 → ∃ ciphertext,
    packages.seal_ key nonce aad plaintext = some ciphertext ∧
      packages.open_ key nonce aad ciphertext = some plaintext
  tagged : ∀ key nonce aad ciphertext plaintext, packages.open_ key nonce aad ciphertext = some plaintext →
    ciphertext.length = plaintext.length + 16
  gcmTagged : ∀ key iv ciphertext plaintext, packages.gcmOpen key iv ciphertext = some plaintext →
    ciphertext.length = plaintext.length + 16
  encodes : ∀ hrp bytes limit, hrp ≠ [] → (∀ unit ∈ hrp, 97 ≤ unit.toNat ∧ unit.toNat ≤ 122) →
    hrp.length + 7 + (bytes.length * 8 + 4) / 5 ≤ limit → ∃ data,
      packages.encode hrp bytes limit = some (hrp ++ 49 :: data) ∧
        data ≠ [] ∧ (∀ unit ∈ data, isAlphanumeric unit = true) ∧
        packages.decode (hrp ++ 49 :: data) limit = some (hrp, bytes)

/-! ## What comes back -/

section Keys

variable {packages}

theorem trimUnits_plain {text : Units} (plain : ∀ unit ∈ text, isTrimmedUnit unit = false) :
    trimUnits text = text := by
  have kept : ∀ text : Units, (∀ unit ∈ text, isTrimmedUnit unit = false) →
      text.dropWhile isTrimmedUnit = text := by
    intro text plain
    cases text with
    | nil => rfl
    | cons unit rest => rw [List.dropWhile_cons, plain unit List.mem_cons_self, if_neg Bool.false_ne_true]
  rw [trimUnits, kept text plain, kept _ fun unit among => plain unit (List.mem_reverse.mp among),
    List.reverse_reverse]

theorem untrimmed {unit : UInt16} (plain : isAlphanumeric unit = true) : isTrimmedUnit unit = false := by
  simp only [isAlphanumeric, Bool.or_eq_true, Bool.and_eq_true, decide_eq_true_eq,
    UInt16.le_iff_toNat_le] at plain
  have bounds : (48 ≤ unit.toNat ∧ unit.toNat ≤ 57) ∨ (97 ≤ unit.toNat ∧ unit.toNat ≤ 122) := plain
  have small : unit.toNat < 128 := by omega
  have every : ∀ code : Fin 128, isAlphanumeric (UInt16.ofNat code) = true →
      isTrimmedUnit (UInt16.ofNat code) = false := by decide
  have known := every ⟨unit.toNat, small⟩
  rw [UInt16.ofNat_toNat] at known
  apply known
  simpa [isAlphanumeric, UInt16.le_iff_toNat_le] using plain

theorem payload_parts {payload salt nonce ciphertext : Bytes} {cost : UInt8} (salted : salt.length = 16)
    (drawn : nonce.length = 24) (made : payload = [VERSION_V2, cost] ++ salt ++ nonce ++
      [KEY_SECURITY_UNKNOWN] ++ ciphertext) :
    payload.head? = some VERSION_V2 ∧ payload[1]? = some cost ∧ (payload.take 18).drop 2 = salt ∧
      (payload.take 42).drop 18 = nonce ∧ payload[42]? = some KEY_SECURITY_UNKNOWN ∧
      payload.drop 43 = ciphertext := by
  have front : ([VERSION_V2, cost] ++ salt).length = 18 := by
    rw [List.length_append, salted]
    rfl
  have middle : ([VERSION_V2, cost] ++ salt ++ nonce).length = 42 := by
    rw [List.length_append, front, drawn]
  have back : ([VERSION_V2, cost] ++ salt ++ nonce ++ [KEY_SECURITY_UNKNOWN]).length = 43 := by
    rw [List.length_append, middle]
    rfl
  subst made
  refine ⟨rfl, rfl, ?_, ?_, ?_, ?_⟩
  · rw [List.append_assoc, List.append_assoc, List.take_left' front]
    rfl
  · rw [List.append_assoc, List.take_left' middle, List.drop_left' front]
  · rw [List.append_assoc, List.getElem?_append_right (by omega), middle]
    rfl
  · exact List.drop_left' back

theorem cost_bounds {logn : Number} {cost : Nat} (accepted : costOf logn = some cost) :
    MIN_LOG_N ≤ cost ∧ cost ≤ MAX_LOG_N := by
  cases logn with
  | finite value =>
    simp only [costOf] at accepted
    split at accepted
    · next range =>
      cases accepted
      simp only [Bool.and_eq_true, decide_eq_true_eq] at range
      obtain ⟨⟨whole, least⟩, most⟩ := range
      have integer : ((value.num : ℤ) : ℚ) = value := Rat.coe_int_num_of_den_eq_one whole
      rw [← integer] at least most
      have least : (16 : ℤ) ≤ value.num := by exact_mod_cast least
      have most : value.num ≤ (22 : ℤ) := by exact_mod_cast most
      have lower : MIN_LOG_N = 16 := rfl
      have upper : MAX_LOG_N = 22 := rfl
      omega
    · contradiction
  | infinity => contradiction
  | negInfinity => contradiction
  | nan => contradiction

variable (lawful : packages.Lawful)
include lawful

theorem decryptNcryptsec_encryptNcryptsec {privkey salt nonce : Bytes} {logn : Number}
    (password : Units) (whole : privkey.length = PRIVKEY_BYTES) (accepted : (costOf logn).isSome = true)
    (salted : salt.length = 16) (drawn : nonce.length = 24) :
    ∃ text, encryptNcryptsec packages privkey password logn salt nonce = .ok text ∧
      decryptNcryptsec packages text password = .ok privkey := by
  obtain ⟨cost, costs⟩ := Option.isSome_iff_exists.mp accepted
  obtain ⟨least, most⟩ := cost_bounds costs
  obtain ⟨key, derived⟩ := lawful.derives (Units.encode (packages.normalize password)) salt cost least most
  obtain ⟨ciphertext, sealed, opened⟩ := lawful.opens key nonce [KEY_SECURITY_UNKNOWN] privkey drawn
  have size := lawful.tagged _ _ _ _ _ opened
  have bytes : PRIVKEY_BYTES = 32 := rfl
  generalize made : [VERSION_V2, UInt8.ofNat cost] ++ salt ++ nonce ++ [KEY_SECURITY_UNKNOWN] ++
    ciphertext = payload
  have length : payload.length = V2_PAYLOAD_LENGTH := by
    have total : V2_PAYLOAD_LENGTH = 91 := rfl
    rw [← made]
    simp only [List.length_append, List.length_cons, List.length_nil]
    omega
  obtain ⟨version, exponent, salt_, nonce_, security, sealed_⟩ := payload_parts salted drawn made.symm
  have room : HRP.length + 7 + (payload.length * 8 + 4) / 5 ≤ BECH32_LIMIT := by
    have prefix_ : HRP.length = 9 := by decide
    have total : V2_PAYLOAD_LENGTH = 91 := rfl
    have limit : BECH32_LIMIT = 5000 := rfl
    omega
  have letters : HRP.all (fun unit => 97 ≤ unit.toNat && unit.toNat ≤ 122) = true := by decide
  obtain ⟨data, encoded, -, alphabet, decoded⟩ := lawful.encodes HRP payload BECH32_LIMIT (by decide)
    (fun unit among => by simpa using List.all_eq_true.mp letters unit among) room
  refine ⟨HRP ++ 49 :: data, ?_, ?_⟩
  · have filled : payload ++ List.replicate (V2_PAYLOAD_LENGTH - payload.length) 0 = payload := by
      rw [length, Nat.sub_self, List.replicate_zero, List.append_nil]
    unfold encryptNcryptsec
    rw [if_neg (fun differ => differ whole), costs]
    simp only [deriveScryptKey, derived, sealed, made, bind, Except.bind]
    rw [if_neg (by omega), filled, encoded]
    rfl
  · have trimmed : trimUnits (HRP ++ 49 :: data) = HRP ++ 49 :: data := by
      apply trimUnits_plain
      intro unit among
      apply untrimmed
      rcases List.mem_append.mp among with among | among
      · have plain : HRP.all isAlphanumeric = true := by decide
        exact List.all_eq_true.mp plain unit among
      · rcases List.mem_cons.mp among with rfl | among
        · decide
        · exact alphabet unit among
    have read : payloadOf packages (HRP ++ 49 :: data) = some payload := by
      rw [payloadOf, trimmed, decoded]
      exact if_pos rfl
    have small : (UInt8.ofNat cost).toNat = cost := by
      have upper : MAX_LOG_N = 22 := rfl
      exact Utf8.toNat_ofNat (by omega)
    have lower : MIN_LOG_N = 16 := rfl
    have range : ¬ ((decide (cost < 1) || decide (MAX_LOG_N < cost)) = true) := by
      simp only [Bool.or_eq_true, decide_eq_true_eq, not_or]
      omega
    unfold decryptNcryptsec
    rw [read]
    dsimp only
    rw [if_pos version, decodeV2, if_neg (fun differ => differ length)]
    simp only [exponent, Option.getD_some, small, bind, Except.bind]
    rw [if_neg range, salt_, nonce_, security, sealed_]
    simp only [deriveScryptKey, derived, Option.getD_some, opened]
    rfl

theorem length_of_decodeV2 {payload key : Bytes} {password : Units}
    (decoded : decodeV2 packages payload password = .ok key) : key.length = PRIVKEY_BYTES := by
  unfold decodeV2 at decoded
  by_cases whole : payload.length = V2_PAYLOAD_LENGTH
  · rw [if_neg (fun differ => differ whole)] at decoded
    simp only [bind, Except.bind] at decoded
    split at decoded
    · cases decoded
    · split at decoded
      · cases decoded
      · split at decoded
        · next privkey opened =>
          cases decoded
          have size := lawful.tagged _ _ _ _ _ opened
          have total : V2_PAYLOAD_LENGTH = 91 := rfl
          have bytes : PRIVKEY_BYTES = 32 := rfl
          rw [List.length_drop] at size
          omega
        · cases decoded
  · rw [if_pos whole] at decoded
    cases decoded

omit lawful in
theorem decodeLegacy_ok {payload key : Bytes} {password : Units} :
    decodeLegacy packages payload password = .ok key ↔ legacyOpens packages payload password = some key := by
  unfold decodeLegacy
  cases legacyOpens packages payload password <;> simp

end Keys

def LegacySized (payload password : Units) : Prop :=
  ∀ bytes, payloadOf packages payload = some bytes → bytes.head? = some VERSION_LEGACY →
    (legacyOpens packages bytes password).isSome = true → bytes.length = 1 + 16 + 12 + 48

/-- Keys come back, and what is read is a key exactly when it is not an older backup of another
length. -/
theorem ncryptsec_keys {packages : Packages} (lawful : packages.Lawful) :
    (∀ (privkey : Bytes) (password : Units) (logn : Number) (salt nonce : Bytes),
      privkey.length = PRIVKEY_BYTES → (costOf logn).isSome = true → salt.length = 16 →
      nonce.length = 24 →
      ∃ text, encryptNcryptsec packages privkey password logn salt nonce = .ok text ∧
        decryptNcryptsec packages text password = .ok privkey) ∧
    ∀ payload password, (∀ key, decryptNcryptsec packages payload password = .ok key →
      key.length = PRIVKEY_BYTES) ↔ LegacySized packages payload password := by
  refine ⟨fun _ password _ _ _ whole accepted salted drawn =>
    decryptNcryptsec_encryptNcryptsec lawful password whole accepted salted drawn, ?_⟩
  intro payload password
  have bytes_ : PRIVKEY_BYTES = 32 := rfl
  unfold LegacySized decryptNcryptsec
  cases payloadOf packages payload with
  | none =>
    constructor
    · intro _ bytes found
      cases found
    · intro _ key decrypted
      cases decrypted
  | some bytes =>
    dsimp only
    by_cases current : bytes.head? = some VERSION_V2
    · rw [if_pos current]
      constructor
      · intro _ bytes' found legacy
        cases found
        rw [current] at legacy
        exact absurd (Option.some_inj.mp legacy) (by decide)
      · exact fun _ key decoded => length_of_decodeV2 lawful decoded
    · rw [if_neg current]
      by_cases legacy : bytes.head? = some VERSION_LEGACY
      · rw [if_pos legacy]
        constructor
        · intro sized bytes' found _ opens
          cases found
          obtain ⟨key, opened⟩ := Option.isSome_iff_exists.mp opens
          have size := lawful.gcmTagged _ _ _ _ opened
          have key_ := sized key (decodeLegacy_ok.mpr opened)
          rw [List.length_drop] at size
          omega
        · intro sized key decoded
          have opened := decodeLegacy_ok.mp decoded
          have size := lawful.gcmTagged _ _ _ _ opened
          have whole := sized bytes rfl legacy (by rw [opened]; rfl)
          rw [List.length_drop] at size
          omega
      · rw [if_neg legacy]
        constructor
        · intro _ bytes' found legacy'
          cases found
          exact absurd legacy' legacy
        · intro _ key decrypted
          cases decrypted

/-! ### A backup of eight bytes -/

def letters (bytes : Bytes) : Units :=
  bytes.flatMap fun byte => [97 + (byte / 16).toUInt16, 97 + (byte % 16).toUInt16]

def unletters : Units → Bytes
  | high :: low :: rest => ((high - 97).toUInt8 * 16 + (low - 97).toUInt8) :: unletters rest
  | _ => []

/-- Ciphers whose tag is sixteen zeros, and a text that spells its bytes out. -/
def plain : Packages where
  normalize password := password
  scrypt password _ _ := some password
  pbkdf2 password _ _ := password
  seal_ _ _ _ plaintext := some (plaintext ++ List.replicate 16 0)
  open_ _ _ _ ciphertext :=
    if ciphertext.length < 16 then none else some (ciphertext.take (ciphertext.length - 16))
  gcmOpen _ _ ciphertext :=
    if ciphertext.length < 16 then none else some (ciphertext.take (ciphertext.length - 16))
  encode hrp bytes _ := some (hrp ++ 49 :: 113 :: letters bytes)
  decode text _ := some (text.takeWhile (· ≠ 49), unletters ((text.dropWhile (· ≠ 49)).drop 2))

set_option maxRecDepth 10000 in
theorem letters_plain (bytes : Bytes) : ∀ unit ∈ letters bytes, isAlphanumeric unit = true := by
  have every : ∀ byte : UInt8, isAlphanumeric (97 + (byte / 16).toUInt16) = true ∧
      isAlphanumeric (97 + (byte % 16).toUInt16) = true := by
    intro byte
    have known : ∀ code : Fin 256, isAlphanumeric (97 + (UInt8.ofNat code / 16).toUInt16) = true ∧
        isAlphanumeric (97 + (UInt8.ofNat code % 16).toUInt16) = true := by decide
    have at_ := known ⟨byte.toNat, byte.toNat_lt⟩
    rwa [UInt8.ofNat_toNat] at at_
  intro unit among
  obtain ⟨byte, -, among⟩ := List.mem_flatMap.mp among
  simp only [List.mem_cons, List.not_mem_nil, or_false] at among
  rcases among with rfl | rfl
  · exact (every byte).1
  · exact (every byte).2

set_option maxRecDepth 10000 in
theorem unletters_letters (bytes : Bytes) : unletters (letters bytes) = bytes := by
  have every : ∀ byte : UInt8, (97 + (byte / 16).toUInt16 - 97).toUInt8 * 16 +
      (97 + (byte % 16).toUInt16 - 97).toUInt8 = byte := by
    intro byte
    have known : ∀ code : Fin 256, (97 + (UInt8.ofNat code / 16).toUInt16 - 97).toUInt8 * 16 +
        (97 + (UInt8.ofNat code % 16).toUInt16 - 97).toUInt8 = UInt8.ofNat code := by decide
    have at_ := known ⟨byte.toNat, byte.toNat_lt⟩
    rwa [UInt8.ofNat_toNat] at at_
  induction bytes with
  | nil => rfl
  | cons byte rest ih =>
    show _ :: unletters (letters rest) = _
    rw [ih, every byte]

theorem length_opened {ciphertext plaintext : Bytes}
    (opened : (if ciphertext.length < 16 then none
      else some (ciphertext.take (ciphertext.length - 16))) = some plaintext) :
    ciphertext.length = plaintext.length + 16 := by
  split at opened
  · contradiction
  · cases opened
    rw [List.length_take]
    omega

theorem plain_lawful : plain.Lawful where
  derives password _ _ _ _ := ⟨password, rfl⟩
  opens key nonce aad plaintext _ := by
    refine ⟨_, rfl, ?_⟩
    simp [plain]
  tagged _ _ _ _ _ := length_opened
  gcmTagged _ _ _ _ := length_opened
  encodes hrp bytes limit filled letter room := by
    have other : ∀ unit ∈ hrp, (unit ≠ 49) := by
      rintro unit among rfl
      exact absurd (letter _ among).1 (by decide)
    have parts : (hrp ++ 49 :: 113 :: letters bytes).takeWhile (· ≠ 49) = hrp ∧
        (hrp ++ 49 :: 113 :: letters bytes).dropWhile (· ≠ 49) = 49 :: 113 :: letters bytes := by
      clear filled letter room
      induction hrp with
      | nil => exact ⟨rfl, rfl⟩
      | cons unit rest ih =>
        obtain ⟨differs, later⟩ := List.forall_mem_cons.mp other
        obtain ⟨taken, dropped⟩ := ih later
        rw [List.cons_append, List.takeWhile_cons, List.dropWhile_cons,
          if_pos (decide_eq_true differs), if_pos (decide_eq_true differs), taken, dropped]
        exact ⟨rfl, rfl⟩
    refine ⟨113 :: letters bytes, rfl, List.cons_ne_nil _ _, ?_, ?_⟩
    · intro unit among
      rcases List.mem_cons.mp among with rfl | among
      · decide
      · exact letters_plain bytes unit among
    · show some (_, unletters (List.drop 2 _)) = _
      rw [parts.1, parts.2]
      show some (hrp, unletters (letters bytes)) = _
      rw [unletters_letters]

theorem ncryptsec_keys_plain : ∃ text,
    encryptNcryptsec plain (List.replicate 32 5) [112] 16 (List.replicate 16 0) (List.replicate 24 0) =
        .ok text ∧
      decryptNcryptsec plain text [112] = .ok (List.replicate 32 5) :=
  (ncryptsec_keys plain_lawful).1 _ _ _ _ _ rfl (by decide) rfl rfl

/-- An older backup whose ciphertext holds eight bytes. -/
def shortBackup : Units := HRP ++ 49 :: 113 :: letters (1 :: List.replicate 52 0)

theorem short_backup_opens :
    plain.Lawful ∧ decryptNcryptsec plain shortBackup [112] = .ok (List.replicate 8 0) ∧
      ¬ ∀ payload password key, decryptNcryptsec plain payload password = .ok key →
        key.length = PRIVKEY_BYTES := by
  have opened : decryptNcryptsec plain shortBackup [112] = .ok (List.replicate 8 0) := by decide
  refine ⟨plain_lawful, opened, ?_⟩
  intro sized
  exact absurd (sized _ _ _ opened) (by decide)

end NostrWot.Identity.Ncryptsec
