import NostrWot.Data.Base64
import NostrWot.Data.CodeUnits
import NostrWot.Data.Value

namespace NostrWot.Auth

open NostrWot.Data

/-! # Stateless challenges

A challenge carries its nonce, the second it was issued in and a MAC over both, so
the server keeps nothing but its secret.
-/

def NONCE_BYTES : Nat := 16

def TIMESTAMP_BYTES : Nat := 8

/-! ## Codecs -/

def urlSafe (char : Char) : Char := if char = '+' then '-' else if char = '/' then '_' else char

def urlPlain (char : Char) : Char := if char = '-' then '+' else if char = '_' then '/' else char

def unitOf (char : Char) : UInt16 := UInt16.ofNat char.toNat

/-- `atob` refuses every other unit. -/
def asciiChar (unit : UInt16) : Option Char :=
  if unit < 128 then some (Char.ofNat unit.toNat) else none

def bytesToBase64Url (bytes : List UInt8) : Units :=
  (((Base64.btoa bytes).map urlSafe).rdropWhile (· = '=')).map unitOf

/-- `none` where `atob` throws. -/
def base64UrlToBytes (b64u : Units) : Option (List UInt8) := do
  let text ← b64u.mapM asciiChar
  let pad := if text.length % 4 = 0 then 0 else 4 - text.length % 4
  Base64.atob (text.map urlPlain ++ List.replicate pad '=')

def lowByte (value : Nat) : UInt8 := UInt8.ofNat (value % 2 ^ 32 &&& 0xff)

def writeBytes : (count value : Nat) → List UInt8
  | 0, _ => []
  | count + 1, value => writeBytes count (value / 256) ++ [lowByte value]

def writeUInt64BE (value : Nat) : List UInt8 := writeBytes TIMESTAMP_BYTES value

/-- Every sum is rounded to a double. -/
def readUInt64BE (buf : List UInt8) (offset : Nat) : Nat :=
  ((buf.drop offset).take TIMESTAMP_BYTES).foldl
    (fun v byte => nearestDouble (v * 256 + byte.toNat)) 0

def constantTimeEqual (a b : List UInt8) : Bool :=
  if a.length ≠ b.length then false
  else (List.zipWith (fun left right => left ^^^ right) a b).foldl (fun acc byte => acc ||| byte) 0 = 0

/-! ## Challenges -/

/-- A time that a `Date` can hold, in milliseconds. -/
structure Instant where
  ms : Nat
  within : ms ≤ 8640000000000000

/-- `Math.floor(Date.now() / 1000)`. -/
def Instant.seconds (now : Instant) : Nat := now.ms / 1000

structure IssuedChallenge where
  challenge : Units
  expiresAt : Number

inductive Reason where
  | malformed
  | badMac
  | expired
  deriving DecidableEq

structure ChallengeVerifyResult where
  ok : Bool
  reason : Option Reason
  issuedAt : Option Nat
  deriving DecidableEq

section Challenge

variable (mac : List UInt8 → List UInt8 → List UInt8)

def hmac (secret : Units) (data : List UInt8) : List UInt8 := mac (Units.encode secret) data

def spell (payload sig : List UInt8) : Units :=
  bytesToBase64Url payload ++ 46 :: bytesToBase64Url sig

def issueChallenge (secret : Units) (ttlSec : Number) (nonce : List UInt8) (now : Instant) :
    IssuedChallenge :=
  let issuedAt := now.seconds
  let payload := nonce ++ writeUInt64BE issuedAt
  ⟨spell payload (hmac mac secret payload), (Number.finite issuedAt).add ttlSec⟩

/-- The payload and the MAC that a text spells. -/
def decode (challenge : Units) : Option (List UInt8 × List UInt8) :=
  match challenge.splitOn 46 with
  | [first, second] => do
      let payload ← base64UrlToBytes first
      let sig ← base64UrlToBytes second
      return (payload, sig)
  | _ => none

/-- Whether more seconds than `ttlSec` have passed. -/
def isExpired (now issuedAt : Nat) (ttlSec : Number) : Bool :=
  ttlSec.lt (.finite ((now : Rat) - issuedAt))

def verifyChallenge (challenge secret : Units) (ttlSec : Number) (now : Instant) :
    ChallengeVerifyResult :=
  match decode challenge with
  | none => ⟨false, some .malformed, none⟩
  | some (payload, sig) =>
    if payload.length ≠ NONCE_BYTES + TIMESTAMP_BYTES then ⟨false, some .malformed, none⟩
    else if !constantTimeEqual (hmac mac secret payload) sig then ⟨false, some .badMac, none⟩
    else
      let issuedAt := readUInt64BE payload NONCE_BYTES
      if isExpired now.seconds issuedAt ttlSec then ⟨false, some .expired, some issuedAt⟩
      else ⟨true, none, some issuedAt⟩

end Challenge

/-! ## Base64 of URLs -/

variable (bytes : List UInt8)

theorem length_sextets :
    (Base64.sextets bytes).length = (4 * bytes.length + 2) / 3 := by
  fun_induction Base64.sextets bytes with
  | case1 => rfl
  | case2 first => simp
  | case3 first second => simp
  | case4 first second third rest induction =>
    simp only [List.length_cons, induction]
    omega

theorem ascii_digit {number : Nat} (small : number < 64) :
    asciiChar (unitOf (urlSafe (Base64.digit number))) = some (urlSafe (Base64.digit number)) ∧
      urlPlain (urlSafe (Base64.digit number)) = Base64.digit number ∧
      urlSafe (Base64.digit number) ≠ '=' ∧ unitOf (urlSafe (Base64.digit number)) ≠ 46 := by
  have every : ∀ number : Fin 64,
      asciiChar (unitOf (urlSafe (Base64.digit number))) = some (urlSafe (Base64.digit number)) ∧
        urlPlain (urlSafe (Base64.digit number)) = Base64.digit number ∧
        urlSafe (Base64.digit number) ≠ '=' ∧ unitOf (urlSafe (Base64.digit number)) ≠ 46 := by
    decide
  exact every ⟨number, small⟩

theorem bytesToBase64Url_eq :
    bytesToBase64Url bytes =
      (Base64.sextets bytes).map fun number => unitOf (urlSafe (Base64.digit number)) := by
  have digits : ((Base64.btoa bytes).map urlSafe).rdropWhile (· = '=') =
      (Base64.sextets bytes).map fun number => urlSafe (Base64.digit number) := by
    have fill : ∀ count, ((Base64.sextets bytes).map (fun number => urlSafe (Base64.digit number)) ++
        List.replicate count '=').rdropWhile (fun char => char = '=') =
          (Base64.sextets bytes).map fun number => urlSafe (Base64.digit number) := by
      intro count
      induction count with
      | zero =>
        rw [List.replicate_zero, List.append_nil, List.rdropWhile_eq_self_iff]
        intro filled
        obtain ⟨number, among, made⟩ := List.mem_map.mp (List.getLast_mem filled)
        rw [← made]
        simpa using (ascii_digit (Base64.sextets_small bytes number among)).2.2.1
      | succ count induction =>
        rw [List.replicate_succ', ← List.append_assoc, List.rdropWhile_concat_pos _ _ _ (by decide)]
        exact induction
    have padded : ∃ count, (Base64.padding bytes).map urlSafe = List.replicate count '=' := by
      simp only [Base64.padding]
      split
      · exact ⟨2, rfl⟩
      · split
        · exact ⟨1, rfl⟩
        · exact ⟨0, rfl⟩
    obtain ⟨count, same⟩ := padded
    rw [Base64.btoa, List.map_append, List.map_map, same]
    exact fill count
  rw [bytesToBase64Url, digits, List.map_map]
  rfl

theorem base64UrlToBytes_bytesToBase64Url :
    base64UrlToBytes (bytesToBase64Url bytes) = some bytes := by
  have small := Base64.sextets_small bytes
  have read : ∀ numbers : List Nat, (∀ number ∈ numbers, number < 64) →
      (numbers.map fun number => unitOf (urlSafe (Base64.digit number))).mapM asciiChar =
        some (numbers.map fun number => urlSafe (Base64.digit number)) := by
    intro numbers below
    induction numbers with
    | nil => rfl
    | cons number rest induction =>
      have first := (ascii_digit (below number (by simp))).1
      have others := induction fun other member => below other (by simp [member])
      rw [List.map_cons, List.mapM_cons, first, others]
      rfl
  have plain : ((Base64.sextets bytes).map fun number => urlSafe (Base64.digit number)).map urlPlain =
      (Base64.sextets bytes).map Base64.digit := by
    rw [List.map_map]
    apply List.map_congr_left
    intro number among
    exact (ascii_digit (small number among)).2.1
  have filled : List.replicate (if (Base64.sextets bytes).length % 4 = 0 then 0
      else 4 - (Base64.sextets bytes).length % 4) '=' = Base64.padding bytes := by
    rw [length_sextets, Base64.padding]
    have cases : bytes.length % 3 = 0 ∨ bytes.length % 3 = 1 ∨ bytes.length % 3 = 2 := by omega
    rcases cases with none | one | two
    · have whole : (4 * bytes.length + 2) / 3 % 4 = 0 := by omega
      simp [none, whole]
    · have part : (4 * bytes.length + 2) / 3 % 4 = 2 := by omega
      simp [one, part, List.replicate]
    · have part : (4 * bytes.length + 2) / 3 % 4 = 3 := by omega
      simp [two, part]
  rw [base64UrlToBytes, bytesToBase64Url_eq, read _ small]
  simp only [Option.bind_eq_bind, Option.bind_some, List.length_map]
  rw [plain, filled]
  exact Base64.atob_btoa bytes

/-! ## Timestamps -/

@[simp] theorem toNat_lowByte (value : Nat) : (lowByte value).toNat = value % 256 := by
  have low : value % 2 ^ 32 &&& 0xff = value % 256 := by
    rw [show 0xff = 2 ^ 8 - 1 from rfl, Nat.and_two_pow_sub_one_eq_mod]
    omega
  rw [lowByte, low, UInt8.toNat_ofNat']
  omega

@[simp] theorem length_writeBytes (count value : Nat) : (writeBytes count value).length = count := by
  induction count generalizing value with
  | zero => rfl
  | succ count induction => simp [writeBytes, induction]

theorem read_writeBytes (count : Nat) {value : Nat} (small : value ≤ 2 ^ 53) :
    (writeBytes count value).foldl (fun v byte => nearestDouble (v * 256 + byte.toNat)) 0 =
      value % 256 ^ count := by
  induction count generalizing value with
  | zero => simp [writeBytes, Nat.mod_one]
  | succ count induction =>
    have front := @induction (value / 256) (by omega)
    have below : value / 256 % 256 ^ count * 256 + value % 256 = value % 256 ^ (count + 1) := by
      rw [Nat.pow_succ', Nat.mod_mul]
      omega
    rw [writeBytes, List.foldl_append, front, List.foldl_cons, List.foldl_nil, toNat_lowByte, below]
    have bound := Nat.mod_le value (256 ^ (count + 1))
    exact nearestDouble_of_le (by omega)

theorem readUInt64BE_append {nonce : List UInt8} (sixteen : nonce.length = NONCE_BYTES) {value : Nat}
    (small : value ≤ 2 ^ 53) : readUInt64BE (nonce ++ writeUInt64BE value) NONCE_BYTES = value := by
  have eight : (writeUInt64BE value).length = TIMESTAMP_BYTES := length_writeBytes _ _
  rw [readUInt64BE, ← sixteen, List.drop_left, ← eight, List.take_length]
  rw [writeUInt64BE, read_writeBytes TIMESTAMP_BYTES small]
  apply Nat.mod_eq_of_lt
  exact Nat.lt_of_le_of_lt small (by decide)

theorem readUInt64BE_writeUInt64BE {value : Nat} (small : value ≤ 2 ^ 53) :
    readUInt64BE (writeUInt64BE value) 0 = value := by
  have eight : (writeUInt64BE value).length = TIMESTAMP_BYTES := length_writeBytes _ _
  rw [readUInt64BE, List.drop_zero, ← eight, List.take_length]
  rw [writeUInt64BE, read_writeBytes TIMESTAMP_BYTES small]
  apply Nat.mod_eq_of_lt
  exact Nat.lt_of_le_of_lt small (by decide)

theorem Instant.seconds_le (now : Instant) : now.seconds ≤ 2 ^ 53 := by
  have bound := now.within
  simp only [Instant.seconds]
  omega

/-! ## Comparing MACs -/

theorem foldl_or_eq_zero (acc : UInt8) :
    bytes.foldl (fun acc byte => acc ||| byte) acc = 0 ↔ acc = 0 ∧ ∀ byte ∈ bytes, byte = 0 := by
  induction bytes generalizing acc with
  | nil => simp
  | cons byte rest induction =>
    rw [List.foldl_cons, induction, UInt8.or_eq_zero_iff]
    simp [and_assoc]

theorem constantTimeEqual_iff (a b : List UInt8) : constantTimeEqual a b = true ↔ a = b := by
  simp only [constantTimeEqual]
  by_cases length : a.length = b.length
  · rw [if_neg (not_not.mpr length), decide_eq_true_iff, foldl_or_eq_zero]
    induction a generalizing b with
    | nil => simp [List.eq_nil_of_length_eq_zero length.symm]
    | cons byte rest induction =>
      cases b with
      | nil => contradiction
      | cons other more =>
        have inner := induction more (by simpa using length)
        simp only [true_and] at inner ⊢
        rw [List.zipWith_cons_cons, List.forall_mem_cons, inner, List.cons.injEq,
          UInt8.xor_eq_zero_iff]
  · rw [if_pos length]
    constructor
    · intro wrong
      contradiction
    · intro same
      exact absurd (congrArg List.length same) length

/-! ## What is accepted -/

/-- One call of `issueChallenge`. -/
structure Issue where
  nonce : List UInt8
  sixteen : nonce.length = NONCE_BYTES
  ttlSec : Number
  at_ : Instant

namespace Issue

variable (mac : List UInt8 → List UInt8 → List UInt8) (secret : Units)

def payload (issue : Issue) : List UInt8 := issue.nonce ++ writeUInt64BE issue.at_.seconds

/-- The challenge that the call returned. -/
def challenge (issue : Issue) : Units :=
  (issueChallenge mac secret issue.ttlSec issue.nonce issue.at_).challenge

def age (issue : Issue) (now : Instant) : Number :=
  .finite ((now.seconds : Rat) - issue.at_.seconds)

theorem length_payload (issue : Issue) :
    issue.payload.length = NONCE_BYTES + TIMESTAMP_BYTES := by
  rw [payload, List.length_append, issue.sixteen]
  rfl

theorem read_payload (issue : Issue) :
    readUInt64BE issue.payload NONCE_BYTES = issue.at_.seconds :=
  readUInt64BE_append issue.sixteen issue.at_.seconds_le

end Issue

section Verify

variable (mac : List UInt8 → List UInt8 → List UInt8) (secret : Units)

def Unforged (issued : List Issue) (text : Units) : Prop :=
  ∀ payload, decode text = some (payload, hmac mac secret payload) →
    ∃ issue ∈ issued, payload = issue.payload

/-- The text is what `bytesToBase64Url` writes on both sides of the dot. -/
def Canonical (text : Units) : Prop := ∃ payload sig, text = spell payload sig

def Presents (issued : List Issue) (ttlSec : Number) (now : Instant) (text : Units) : Prop :=
  ∃ issue ∈ issued, decode text = some (issue.payload, hmac mac secret issue.payload) ∧
    ttlSec.lt (issue.age now) = false

theorem decode_spell (payload sig : List UInt8) : decode (spell payload sig) = some (payload, sig) := by
  have plain : ∀ bytes : List UInt8, (46 : UInt16) ∉ bytesToBase64Url bytes := by
    intro bytes member
    rw [bytesToBase64Url_eq] at member
    obtain ⟨number, among, same⟩ := List.mem_map.mp member
    exact (ascii_digit (Base64.sextets_small bytes number among)).2.2.2 same
  rw [decode, spell, List.splitOn_append_cons_self_of_not_mem (plain payload),
    List.splitOn_eq_singleton (plain sig)]
  simp [base64UrlToBytes_bytesToBase64Url]

variable {mac secret}

theorem verifyChallenge_ok {text : Units} {ttlSec : Number} {now : Instant} :
    (verifyChallenge mac text secret ttlSec now).ok = true ↔
      ∃ payload, decode text = some (payload, hmac mac secret payload) ∧
        payload.length = NONCE_BYTES + TIMESTAMP_BYTES ∧
        isExpired now.seconds (readUInt64BE payload NONCE_BYTES) ttlSec = false := by
  cases read : decode text with
  | none => simp [verifyChallenge, read]
  | some parts =>
    obtain ⟨payload, sig⟩ := parts
    simp only [verifyChallenge, read, Option.some.injEq, Prod.mk.injEq]
    constructor
    · intro ok
      split at ok
      · contradiction
      · next length =>
        split at ok
        · contradiction
        · next equal =>
          split at ok
          · contradiction
          · next fresh =>
            have same : hmac mac secret payload = sig := by
              rw [← constantTimeEqual_iff]
              simpa using equal
            exact ⟨payload, ⟨rfl, same.symm⟩, not_not.mp length, by simpa using fresh⟩
    · rintro ⟨other, ⟨rfl, rfl⟩, length, fresh⟩
      have equal := (constantTimeEqual_iff (hmac mac secret payload) _).mpr rfl
      rw [if_neg (not_not.mpr length), equal]
      simp [fresh]

theorem verifyChallenge_presents {issued : List Issue} {text : Units} {ttlSec : Number}
    {now : Instant} (unforged : Unforged mac secret issued text) :
    (verifyChallenge mac text secret ttlSec now).ok = true ↔
      Presents mac secret issued ttlSec now text := by
  rw [verifyChallenge_ok]
  constructor
  · rintro ⟨payload, read, _, fresh⟩
    obtain ⟨issue, among, rfl⟩ := unforged payload read
    rw [issue.read_payload] at fresh
    exact ⟨issue, among, read, fresh⟩
  · rintro ⟨issue, among, read, fresh⟩
    refine ⟨issue.payload, read, issue.length_payload, ?_⟩
    rw [issue.read_payload]
    exact fresh

theorem le_iff_not_lt {ttlSec : Number} {age : Rat} :
    (Number.finite age).le ttlSec = true ↔ ttlSec.lt (.finite age) = false ∧ ttlSec ≠ .nan := by
  cases ttlSec <;> simp [Number.le, Number.lt]

/-- A text is accepted just when it was issued and has not expired, unless it is another
spelling of such a challenge; and the timestamps are read as they were written. -/
theorem verifyChallenge_iff {issued : List Issue} {text : Units} (ttlSec : Number) (now : Instant)
    (unforged : Unforged mac secret issued text) :
    (((verifyChallenge mac text secret ttlSec now).ok = true ↔
        ∃ issue ∈ issued, text = issue.challenge mac secret ∧ (issue.age now).le ttlSec = true) ↔
      (Presents mac secret issued ttlSec now text → Canonical text ∧ ttlSec ≠ .nan)) ∧
    ∀ value < 2 ^ 53, readUInt64BE (writeUInt64BE value) 0 = value := by
  refine ⟨?_, fun value small => readUInt64BE_writeUInt64BE (Nat.le_of_lt small)⟩
  rw [verifyChallenge_presents unforged]
  constructor
  · intro meets presents
    obtain ⟨issue, _, same, fresh⟩ := meets.mp presents
    exact ⟨⟨_, _, same⟩, (le_iff_not_lt.mp fresh).2⟩
  · intro respelled
    constructor
    · intro presents
      obtain ⟨⟨payload, sig, same⟩, number⟩ := respelled presents
      obtain ⟨issue, among, read, fresh⟩ := presents
      rw [same, decode_spell] at read
      obtain ⟨first, second⟩ := Prod.mk.inj (Option.some.inj read)
      refine ⟨issue, among, ?_, le_iff_not_lt.mpr ⟨fresh, number⟩⟩
      rw [same, first, second]
      rfl
    · rintro ⟨issue, among, same, fresh⟩
      refine ⟨issue, among, ?_, (le_iff_not_lt.mp fresh).1⟩
      rw [same]
      exact decode_spell issue.payload _

end Verify

/-! ## One challenge -/

/-- HMAC-SHA256 of the payload below under the secret `secret`. -/
def sampleMac (_secret _data : List UInt8) : List UInt8 :=
  [17, 195, 133, 129, 73, 25, 145, 39, 147, 255, 244, 182, 191, 74, 61, 84,
    195, 22, 147, 225, 252, 243, 26, 183, 195, 168, 113, 136, 142, 167, 34, 88]

def sampleIssue : Issue where
  nonce := List.replicate 16 0
  sixteen := rfl
  ttlSec := 300
  at_ := ⟨1700000000000, by decide⟩

def sampleSecret : Units := Units.ofString "secret"

theorem sample_unforged :
    Unforged sampleMac sampleSecret [sampleIssue] (sampleIssue.challenge sampleMac sampleSecret) := by
  intro payload read
  rw [show sampleIssue.challenge sampleMac sampleSecret = spell sampleIssue.payload _ from rfl,
    decode_spell] at read
  exact ⟨sampleIssue, by simp, (Prod.mk.inj (Option.some.inj read)).1.symm⟩

def sampleNow : Instant := ⟨1700000200000, by decide⟩

theorem sample_age : sampleIssue.age sampleNow = 200 := by
  have age : (sampleNow.seconds : Rat) - sampleIssue.at_.seconds = 200 := by
    simp only [Instant.seconds, sampleIssue, sampleNow]
    norm_num
  rw [Issue.age, age]
  rfl

theorem verifyChallenge_iff_issued :
    (verifyChallenge sampleMac (sampleIssue.challenge sampleMac sampleSecret) sampleSecret 300
      sampleNow).ok = true := by
  have whole := (verifyChallenge_iff 300 sampleNow sample_unforged).1
  have meets := whole.mpr fun _ => ⟨⟨_, _, rfl⟩, by decide⟩
  refine meets.mpr ⟨sampleIssue, by simp, rfl, ?_⟩
  rw [sample_age]
  decide

/-- The challenge that was issued, and the same with a spare bit of its last digit set. -/
theorem respelled_accepted :
    sampleIssue.challenge sampleMac sampleSecret =
      Units.ofString "AAAAAAAAAAAAAAAAAAAAAAAAAABlU_EA.EcOFgUkZkSeT__S2v0o9VMMWk-H88xq3w6hxiI6nIlg" ∧
    (verifyChallenge sampleMac (Units.ofString "AAAAAAAAAAAAAAAAAAAAAAAAAABlU_EA.EcOFgUkZkSeT__S2v0o9VMMWk-H88xq3w6hxiI6nIlh")
      sampleSecret 300 sampleNow).ok = true := by
  refine ⟨by decide, verifyChallenge_ok.mpr ⟨sampleIssue.payload, by decide, rfl, ?_⟩⟩
  rw [sampleIssue.read_payload]
  change (300 : Number).lt (sampleIssue.age sampleNow) = false
  rw [sample_age]
  decide

end NostrWot.Auth
