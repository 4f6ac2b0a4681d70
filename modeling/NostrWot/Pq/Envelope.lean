import NostrWot.Data.Base64
import NostrWot.Data.Outcome
import NostrWot.Data.Utf8
import Mathlib.Data.Nat.Log

namespace NostrWot.Pq

open NostrWot.Data

/-! # The post-quantum message envelope -/

abbrev Bytes : Type := List UInt8

def ENVELOPE_VERSION : UInt8 := 1

def ALG_MLKEM1024_XCHACHA : UInt8 := 1

def KEM_PUBLIC_KEY_BYTES : Nat := 1568

def KEM_CIPHERTEXT_BYTES : Nat := 1568

def NONCE_BYTES : Nat := 24

def TAG_BYTES : Nat := 16

def HEADER_BYTES : Nat := 2 + KEM_CIPHERTEXT_BYTES + NONCE_BYTES

def MAX_PLAINTEXT_BYTES : Nat := 65535

structure EnvelopeParties where
  sender : String
  recipient : String

def isXonlyHex (text : String) : Bool :=
  text.toList.length = 64 &&
    text.toList.all fun char => ('0' ≤ char && char ≤ '9') || ('a' ≤ char && char ≤ 'f')

def EnvelopeParties.areValid (parties : EnvelopeParties) : Bool :=
  isXonlyHex parties.sender && isXonlyHex parties.recipient

def assertParties (parties : EnvelopeParties) : Except String Unit :=
  if parties.areValid then .ok ()
  else .error "Invalid party pubkey: expected 64 lowercase hex characters"

/-! ## Padding -/

def calcPaddedLen (len : Nat) : Except String Nat :=
  if len = 0 then .error "Invalid plaintext length"
  else if len ≤ 32 then .ok 32
  else
    let nextPower := 1 <<< (Nat.log2 (len - 1) + 1)
    let chunk := if nextPower ≤ 256 then 32 else nextPower / 8
    .ok (chunk * ((len - 1) / chunk + 1))

/-- The two bytes of `setUint16`, the high one first. -/
def uint16 (value : Nat) : Bytes := [UInt8.ofNat (value / 256), UInt8.ofNat (value % 256)]

def pad (plaintext : Bytes) : Except String Bytes := do
  if plaintext.length = 0 then throw "Cannot encrypt an empty message"
  if MAX_PLAINTEXT_BYTES < plaintext.length then throw "Message too long"
  let size ← calcPaddedLen plaintext.length
  if size < plaintext.length then throw "offset is out of bounds"
  return uint16 plaintext.length ++ plaintext ++ List.replicate (size - plaintext.length) 0

def malformed : String := "Malformed padding"

/-- The length that a prefix declares. -/
def declared : Bytes → Nat
  | high :: low :: _ => high.toNat * 256 + low.toNat
  | _ => 0

def unpad (padded : Bytes) : Except String Bytes := do
  if padded.length < 2 then throw malformed
  let len := declared padded
  if len = 0 || MAX_PLAINTEXT_BYTES < len then throw malformed
  let out := (padded.drop 2).take len
  if out.length ≠ len then throw malformed
  let size ← calcPaddedLen len
  if padded.length ≠ 2 + size then throw malformed
  return out

/-! ## Encryption -/

/-- The primitives of the packages this one is built on.  What `encapsulate` draws is one of
its arguments. -/
structure Library (Coins : Type) where
  /-- The ciphertext and the shared secret. -/
  encapsulate : Bytes → Coins → Bytes × Bytes
  decapsulate : Bytes → Bytes → Except String Bytes
  hkdfExtract : Bytes → Bytes
  hkdfExpand : Bytes → Bytes → Nat → Bytes
  /-- Of a key, a nonce and associated data. -/
  encrypt : Bytes → Bytes → Bytes → Bytes → Bytes
  decrypt : Bytes → Bytes → Bytes → Bytes → Except String Bytes

variable {Coins : Type} (lib : Library Coins)

def hybridKey (sharedSecret conversationKey : Bytes) : Bytes :=
  lib.hkdfExpand (lib.hkdfExtract (sharedSecret ++ conversationKey))
    (Utf8.encode "nip-pqc/v1/hybrid".toList) 32

def associatedData (alg : UInt8) (parties : EnvelopeParties) (kemCt : Bytes) : Bytes :=
  Utf8.encode ("nip-pqc/v1/env:" ++ toString ENVELOPE_VERSION.toNat ++ ":" ++ toString alg.toNat ++
    ":" ++ parties.sender ++ ":" ++ parties.recipient ++ ":").toList ++ kemCt

inductive Plaintext where
  | text (text : String)
  | bytes (bytes : Bytes)

def Plaintext.toBytes : Plaintext → Bytes
  | .text message => Utf8.encode message.toList
  | .bytes raw => raw

def encryptPq (plaintext : Plaintext) (recipientKemKey conversationKey : Bytes)
    (parties : EnvelopeParties) (coins : Coins) (nonce : Bytes) : Except String String := do
  if recipientKemKey.length ≠ KEM_PUBLIC_KEY_BYTES then throw "Invalid ML-KEM public key length"
  if conversationKey.length ≠ 32 then throw "Invalid conversation key"
  assertParties parties
  let (kemCt, sharedSecret) := lib.encapsulate recipientKemKey coins
  let key := hybridKey lib sharedSecret conversationKey
  let padded ← pad plaintext.toBytes
  let sealed := lib.encrypt key nonce (associatedData ALG_MLKEM1024_XCHACHA parties kemCt) padded
  return String.ofList (Base64.btoa
    ([ENVELOPE_VERSION, ALG_MLKEM1024_XCHACHA] ++ kemCt ++ nonce ++ sealed))

/-- What `decryptPq` does before it hides what went wrong. -/
def openPq (payload : String) (kemSecretKey conversationKey : Bytes)
    (parties : EnvelopeParties) : Except String String := do
  if conversationKey.length ≠ 32 then throw "Invalid conversation key"
  assertParties parties
  let some bytes := Base64.atob payload.toList | throw "InvalidCharacterError"
  if bytes.length < HEADER_BYTES + TAG_BYTES then throw "short"
  if bytes[0]? ≠ some ENVELOPE_VERSION then throw "version"
  if bytes[1]? ≠ some ALG_MLKEM1024_XCHACHA then throw "alg"
  let kemCt := (bytes.drop 2).take KEM_CIPHERTEXT_BYTES
  let nonce := (bytes.drop (2 + KEM_CIPHERTEXT_BYTES)).take NONCE_BYTES
  let sealed := bytes.drop HEADER_BYTES
  let sharedSecret ← lib.decapsulate kemCt kemSecretKey
  let key := hybridKey lib sharedSecret conversationKey
  let padded ← lib.decrypt key nonce (associatedData ALG_MLKEM1024_XCHACHA parties kemCt) sealed
  let plaintext ← unpad padded
  return String.ofList (Utf8.decode plaintext)

def decryptPq (payload : String) (kemSecretKey conversationKey : Bytes)
    (parties : EnvelopeParties) : Except String String :=
  match openPq lib payload kemSecretKey conversationKey parties with
  | .ok text => .ok text
  | .error _ => .error "Decryption failed"

/-! ## Round trips -/

theorem calcPaddedLen_ok {len : Nat} (positive : 0 < len) :
    ∃ size, calcPaddedLen len = .ok size ∧ len ≤ size := by
  unfold calcPaddedLen
  rw [if_neg (by omega)]
  split
  · exact ⟨32, rfl, by omega⟩
  · rename_i long
    dsimp only
    refine ⟨_, rfl, ?_⟩
    have power : 0 < 1 <<< (Nat.log2 (len - 1) + 1) := by
      rw [Nat.one_shiftLeft]
      exact Nat.two_pow_pos _
    generalize chunked : (if 1 <<< (Nat.log2 (len - 1) + 1) ≤ 256 then 32
      else 1 <<< (Nat.log2 (len - 1) + 1) / 8) = chunk
    have chunk_pos : 0 < chunk := by
      rw [← chunked]
      split <;> omega
    have above := Nat.lt_mul_div_succ (len - 1) chunk_pos
    omega

variable {plaintext : Bytes}

theorem pad_ok (filled : 0 < plaintext.length) (short : plaintext.length ≤ MAX_PLAINTEXT_BYTES) :
    ∃ size, calcPaddedLen plaintext.length = .ok size ∧ plaintext.length ≤ size ∧
      pad plaintext = .ok
        (uint16 plaintext.length ++ plaintext ++ List.replicate (size - plaintext.length) 0) := by
  obtain ⟨size, known, fits⟩ := calcPaddedLen_ok filled
  refine ⟨size, known, fits, ?_⟩
  unfold pad
  rw [if_neg (show ¬ plaintext.length = 0 by omega),
    if_neg (show ¬ MAX_PLAINTEXT_BYTES < plaintext.length by omega), known]
  dsimp only [bind, Except.bind]
  rw [if_neg (show ¬ size < plaintext.length by omega)]
  rfl

theorem declared_uint16 {value : Nat} (small : value ≤ MAX_PLAINTEXT_BYTES) (rest : Bytes) :
    declared (uint16 value ++ rest) = value := by
  have bound : value ≤ 65535 := small
  show (UInt8.ofNat (value / 256)).toNat * 256 + (UInt8.ofNat (value % 256)).toNat = value
  rw [Utf8.toNat_ofNat (by omega), Utf8.toNat_ofNat (by omega)]
  omega

theorem unpad_ok {padded out : Bytes} (accepted : unpad padded = .ok out) :
    0 < declared padded ∧ declared padded ≤ MAX_PLAINTEXT_BYTES ∧
      out = (padded.drop 2).take (declared padded) ∧ out.length = declared padded ∧
      calcPaddedLen (declared padded) = .ok (padded.length - 2) ∧ 2 ≤ padded.length := by
  unfold unpad at accepted
  dsimp only [bind, Except.bind] at accepted
  split at accepted
  · contradiction
  rename_i long
  split at accepted
  · contradiction
  rename_i range
  split at accepted
  · contradiction
  rename_i whole
  cases known : calcPaddedLen (declared padded) with
  | error fault =>
    rw [known] at accepted
    contradiction
  | ok size =>
    rw [known] at accepted
    dsimp only at accepted
    split at accepted
    · contradiction
    rename_i same
    cases accepted
    simp only [Bool.or_eq_true, decide_eq_true_eq, not_or] at range
    refine ⟨by omega, by omega, rfl, by omega, ?_, by omega⟩
    congr 1
    omega

theorem unpad_pad (filled : 0 < plaintext.length) (short : plaintext.length ≤ MAX_PLAINTEXT_BYTES) :
    (pad plaintext >>= unpad) = .ok plaintext := by
  obtain ⟨size, known, fits, padded⟩ := pad_ok filled short
  have len := declared_uint16 short (plaintext ++ List.replicate (size - plaintext.length) 0)
  rw [← List.append_assoc] at len
  have total : (uint16 plaintext.length ++ plaintext ++
      List.replicate (size - plaintext.length) 0).length = 2 + size := by
    simp only [List.length_append, List.length_replicate, uint16, List.length_cons, List.length_nil]
    omega
  have content : ((uint16 plaintext.length ++ plaintext ++
      List.replicate (size - plaintext.length) (0 : UInt8)).drop 2).take plaintext.length =
        plaintext := by
    show (plaintext ++ List.replicate (size - plaintext.length) 0).take plaintext.length = plaintext
    simp
  rw [padded]
  dsimp only [bind, Except.bind]
  unfold unpad
  rw [if_neg (by omega)]
  dsimp only [bind, Except.bind]
  rw [len, content, known]
  have range : ¬ ((decide (plaintext.length = 0) ||
      decide (MAX_PLAINTEXT_BYTES < plaintext.length)) = true) := by
    simp only [Bool.or_eq_true, decide_eq_true_eq, not_or]
    omega
  rw [if_neg range, if_neg (show ¬ plaintext.length ≠ plaintext.length from fun differ => differ rfl)]
  dsimp only
  rw [if_neg (by omega)]
  rfl

/-! ## Messages -/

/-- What the primitives are relied on for, with a pair of keys. -/
structure Library.Correct (publicKey secretKey : Bytes) : Prop where
  cipherText : ∀ coins, (lib.encapsulate publicKey coins).1.length = KEM_CIPHERTEXT_BYTES
  shared : ∀ coins, lib.decapsulate (lib.encapsulate publicKey coins).1 secretKey =
    .ok (lib.encapsulate publicKey coins).2
  opens : ∀ key nonce data plain, nonce.length = NONCE_BYTES →
    lib.decrypt key nonce data (lib.encrypt key nonce data plain) = .ok plain
  tag : ∀ key nonce data plain, nonce.length = NONCE_BYTES →
    (lib.encrypt key nonce data plain).length = plain.length + TAG_BYTES

structure Exchange where
  publicKey : Bytes
  secretKey : Bytes
  conversationKey : Bytes
  parties : EnvelopeParties
  nonce : Bytes
  publicKey_length : publicKey.length = KEM_PUBLIC_KEY_BYTES
  conversationKey_length : conversationKey.length = 32
  parties_valid : parties.areValid = true
  nonce_length : nonce.length = NONCE_BYTES

variable {lib} {exchange : Exchange} {coins : Coins}

theorem openPq_framed {kemCt sealed padded sharedSecret : Bytes}
    (cipherText : kemCt.length = KEM_CIPHERTEXT_BYTES) (tagged : TAG_BYTES ≤ sealed.length)
    (shared : lib.decapsulate kemCt exchange.secretKey = .ok sharedSecret)
    (opens : lib.decrypt (hybridKey lib sharedSecret exchange.conversationKey) exchange.nonce
      (associatedData ALG_MLKEM1024_XCHACHA exchange.parties kemCt) sealed = .ok padded)
    (unpads : unpad padded = .ok plaintext) :
    openPq lib (String.ofList (Base64.btoa
        ([ENVELOPE_VERSION, ALG_MLKEM1024_XCHACHA] ++ kemCt ++ exchange.nonce ++ sealed)))
      exchange.secretKey exchange.conversationKey exchange.parties =
        .ok (String.ofList (Utf8.decode plaintext)) := by
  have nonce := exchange.nonce_length
  have conversation := exchange.conversationKey_length
  have valid : assertParties exchange.parties = .ok () := by
    unfold assertParties
    rw [exchange.parties_valid]
    rfl
  have total : ([ENVELOPE_VERSION, ALG_MLKEM1024_XCHACHA] ++ kemCt ++ exchange.nonce ++
      sealed).length = HEADER_BYTES + sealed.length := by
    simp only [List.length_append, cipherText, nonce]
    rfl
  have first : (([ENVELOPE_VERSION, ALG_MLKEM1024_XCHACHA] ++ kemCt ++ exchange.nonce ++
      sealed).drop 2).take KEM_CIPHERTEXT_BYTES = kemCt := by
    show ((kemCt ++ exchange.nonce) ++ sealed).take KEM_CIPHERTEXT_BYTES = kemCt
    rw [List.append_assoc, ← cipherText, List.take_left]
  have second : (([ENVELOPE_VERSION, ALG_MLKEM1024_XCHACHA] ++ kemCt ++ exchange.nonce ++
      sealed).drop (2 + KEM_CIPHERTEXT_BYTES)).take NONCE_BYTES = exchange.nonce := by
    have front : ([ENVELOPE_VERSION, ALG_MLKEM1024_XCHACHA] ++ kemCt).length =
        2 + KEM_CIPHERTEXT_BYTES := by
      rw [List.length_append, cipherText]
      rfl
    rw [← front, List.append_assoc, List.drop_left, ← nonce, List.take_left]
  have third : ([ENVELOPE_VERSION, ALG_MLKEM1024_XCHACHA] ++ kemCt ++ exchange.nonce ++
      sealed).drop HEADER_BYTES = sealed := by
    have front : ([ENVELOPE_VERSION, ALG_MLKEM1024_XCHACHA] ++ kemCt ++ exchange.nonce).length =
        HEADER_BYTES := by
      rw [List.length_append, List.length_append, cipherText, nonce]
      rfl
    rw [← front, List.drop_left]
  unfold openPq
  rw [if_neg (fun differ => differ conversation), valid, String.toList_ofList, Base64.atob_btoa]
  dsimp only [bind, Except.bind]
  rw [if_neg (by omega), if_neg (fun differ => differ rfl), if_neg (fun differ => differ rfl),
    first, second, third, shared]
  dsimp only
  rw [opens]
  dsimp only
  rw [unpads]
  rfl

theorem decryptPq_encryptPq (coins : Coins)
    (correct : lib.Correct exchange.publicKey exchange.secretKey) {message : String} (filled : 0 < (Utf8.encode message.toList).length)
    (short : (Utf8.encode message.toList).length ≤ MAX_PLAINTEXT_BYTES) :
    ∃ payload,
      encryptPq lib (.text message) exchange.publicKey exchange.conversationKey exchange.parties
        coins exchange.nonce = .ok payload ∧
      decryptPq lib payload exchange.secretKey exchange.conversationKey exchange.parties =
        .ok (String.ofList (Utf8.decode (Utf8.encode message.toList))) := by
  have valid : assertParties exchange.parties = .ok () := by
    unfold assertParties
    rw [exchange.parties_valid]
    rfl
  obtain ⟨padded, pads, unpads⟩ : ∃ padded, pad (Utf8.encode message.toList) = .ok padded ∧
      unpad padded = .ok (Utf8.encode message.toList) := by
    obtain ⟨size, _, _, pads⟩ := pad_ok filled short
    have unpads := unpad_pad filled short
    rw [pads] at unpads
    exact ⟨_, pads, unpads⟩
  obtain ⟨kemCt, sharedSecret, drawn⟩ : ∃ kemCt sharedSecret,
      lib.encapsulate exchange.publicKey coins = (kemCt, sharedSecret) := ⟨_, _, rfl⟩
  have cipherText := correct.cipherText coins
  have shared := correct.shared coins
  rw [drawn] at cipherText shared
  let key := hybridKey lib sharedSecret exchange.conversationKey
  let data := associatedData ALG_MLKEM1024_XCHACHA exchange.parties kemCt
  have tag := correct.tag key exchange.nonce data padded exchange.nonce_length
  have opens := correct.opens key exchange.nonce data padded exchange.nonce_length
  refine ⟨String.ofList (Base64.btoa ([ENVELOPE_VERSION, ALG_MLKEM1024_XCHACHA] ++ kemCt ++
    exchange.nonce ++ lib.encrypt key exchange.nonce data padded)), ?_, ?_⟩
  · unfold encryptPq
    rw [if_neg (fun differ => differ exchange.publicKey_length),
      if_neg (fun differ => differ exchange.conversationKey_length), valid, drawn,
      show pad (Plaintext.text message).toBytes = _ from pads]
    rfl
  · unfold decryptPq
    rw [openPq_framed cipherText (by omega) shared opens unpads]

theorem length_of_unpad {padded out : Bytes} (accepted : unpad padded = .ok out)
    (announced : plaintext.length = declared padded) :
    ∃ produced, pad plaintext = .ok produced ∧ padded.length = produced.length := by
  obtain ⟨filled, short, _, _, size, long⟩ := unpad_ok accepted
  rw [← announced] at filled short size
  obtain ⟨length, known, fits, pads⟩ := pad_ok filled short
  refine ⟨_, pads, ?_⟩
  have same : length = padded.length - 2 := by
    rw [known] at size
    cases size
    rfl
  simp only [List.length_append, List.length_replicate, uint16, List.length_cons, List.length_nil]
  omega

/-- What is sent and opened. -/
def delivered (lib : Library Coins) (exchange : Exchange) (coins : Coins) (message : String) :
    Except String String := do
  let payload ← encryptPq lib (.text message) exchange.publicKey exchange.conversationKey
    exchange.parties coins exchange.nonce
  decryptPq lib payload exchange.secretKey exchange.conversationKey exchange.parties

theorem delivered_eq (correct : lib.Correct exchange.publicKey exchange.secretKey)
    {message : String} (filled : 0 < (Utf8.encode message.toList).length)
    (short : (Utf8.encode message.toList).length ≤ MAX_PLAINTEXT_BYTES) :
    delivered lib exchange coins message =
      .ok (String.ofList (if message.toList.head? = some Utf8.byteOrderMark
        then message.toList.tail else message.toList)) := by
  obtain ⟨payload, sent, opened⟩ := decryptPq_encryptPq coins correct filled short
  unfold delivered
  rw [sent]
  dsimp only [bind, Except.bind]
  rw [opened, Utf8.decode_encode]

/-- A message that begins with a byte order mark loses it, and every other message comes back
as it was sent. -/
theorem envelopes_round_trip (correct : lib.Correct exchange.publicKey exchange.secretKey)
    {message : String} (filled : 0 < (Utf8.encode message.toList).length)
    (short : (Utf8.encode message.toList).length ≤ MAX_PLAINTEXT_BYTES) :
    (delivered lib exchange coins message = .ok message ↔
      message.toList.head? ≠ some Utf8.byteOrderMark) ∧
    (∀ bytes : Bytes, 0 < bytes.length → bytes.length ≤ MAX_PLAINTEXT_BYTES →
      (pad bytes >>= unpad) = .ok bytes) ∧
    (∀ padded out plaintext : Bytes, unpad padded = .ok out →
      plaintext.length = declared padded →
      ∃ produced, pad plaintext = .ok produced ∧ padded.length = produced.length) := by
  refine ⟨?_, fun _ => unpad_pad, fun _ _ _ => length_of_unpad⟩
  rw [delivered_eq correct filled short]
  constructor
  · intro same marked
    rw [if_pos marked] at same
    have same : String.ofList message.toList.tail = message := Except.ok.inj same
    have tail : message.toList.tail = message.toList := by
      conv_rhs => rw [← same]
      rw [String.toList_ofList]
    cases text : message.toList with
    | nil =>
      rw [text] at marked
      contradiction
    | cons first rest =>
      rw [text] at tail
      exact List.cons_ne_self _ _ tail.symm
  · intro unmarked
    rw [if_neg unmarked, String.ofList_toList]

/-- Primitives that hide nothing. -/
def clear : Library Unit where
  encapsulate _ _ := (List.replicate KEM_CIPHERTEXT_BYTES 0, [])
  decapsulate _ _ := .ok []
  hkdfExtract := id
  hkdfExpand key _ _ := key
  encrypt _ _ _ plain := plain ++ List.replicate TAG_BYTES 0
  decrypt _ _ _ sealed := .ok (sealed.take (sealed.length - TAG_BYTES))

theorem clear_correct (publicKey secretKey : Bytes) : clear.Correct publicKey secretKey where
  cipherText _ := List.length_replicate
  shared _ := rfl
  opens key nonce data plain _ := by
    show Except.ok ((plain ++ List.replicate TAG_BYTES 0).take _) = _
    simp [clear]
  tag key nonce data plain _ := by
    show (plain ++ List.replicate TAG_BYTES 0).length = _
    simp

def meeting : Exchange where
  publicKey := List.replicate KEM_PUBLIC_KEY_BYTES 0
  secretKey := []
  conversationKey := List.replicate 32 0
  parties := ⟨String.ofList (List.replicate 64 'a'), String.ofList (List.replicate 64 'b')⟩
  nonce := List.replicate NONCE_BYTES 0
  publicKey_length := List.length_replicate
  conversationKey_length := List.length_replicate
  parties_valid := by decide
  nonce_length := List.length_replicate

theorem envelopes_round_trip_hi :
    delivered clear meeting () "hi" = .ok "hi" :=
  (envelopes_round_trip (clear_correct _ _) (by decide) (by decide)).1.2 (by decide)

theorem marked_message_differs :
    clear.Correct meeting.publicKey meeting.secretKey ∧
      (Utf8.encode "\uFEFFhi".toList).length = 5 ∧
      delivered clear meeting () "\uFEFFhi" = .ok "hi" := by
  refine ⟨clear_correct _ _, by decide, ?_⟩
  rw [delivered_eq (clear_correct _ _) (by decide) (by decide)]
  rfl

end NostrWot.Pq
