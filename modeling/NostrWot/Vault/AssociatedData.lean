import Mathlib
import NostrWot.Pq.Envelope
import NostrWot.Vault.PasskeyStore

/-! # What associated data determines

An envelope's associated data puts its parts between colons, a stored record's
between lengths.  Both can be read back.
-/

namespace NostrWot.Data

theorem separated {α : Type} {separator : α} {left right rest rest' : List α}
    (fresh : separator ∉ left) (fresh' : separator ∉ right)
    (same : left ++ separator :: rest = right ++ separator :: rest') : left = right ∧ rest = rest' := by
  induction left generalizing right with
  | nil =>
    cases right with
    | nil => exact ⟨rfl, (List.cons.inj same).2⟩
    | cons first others =>
      have begins := (List.cons.inj same).1
      exact absurd List.mem_cons_self (begins ▸ fresh')
  | cons first others ih =>
    cases right with
    | nil =>
      have begins := (List.cons.inj same).1
      exact absurd List.mem_cons_self (begins ▸ fresh)
    | cons first' others' =>
      obtain ⟨begins, later⟩ := List.cons.inj same
      obtain ⟨parts, rests⟩ := ih (fun among => fresh (List.mem_cons_of_mem _ among))
        (fun among => fresh' (List.mem_cons_of_mem _ among)) later
      exact ⟨by rw [begins, parts], rests⟩

namespace Utf8

theorem encode_injective {left right : List Char} (same : encode left = encode right) : left = right := by
  rw [← decodeFrom_encode left, same, decodeFrom_encode]

theorem encode_append (left right : List Char) : encode (left ++ right) = encode left ++ encode right :=
  List.flatMap_append

theorem colon_fresh {text : List Char} (plain : ∀ char ∈ text, char.toNat < 128 ∧ char.toNat ≠ 58) :
    58 ∉ encode text := by
  induction text with
  | nil => exact List.not_mem_nil
  | cons char rest ih =>
    obtain ⟨⟨small, other⟩, later⟩ := List.forall_mem_cons.mp plain
    have point : char.toNat ≤ 0x7F := by omega
    have byte : encodeChar char = [UInt8.ofNat char.toNat] := by
      unfold encodeChar
      exact if_pos point
    have differs : (58 : UInt8) ≠ UInt8.ofNat char.toNat := by
      intro is
      have value := congrArg UInt8.toNat is
      rw [toNat_ofNat (by omega)] at value
      exact other value.symm
    rw [show encode (char :: rest) = encodeChar char ++ encode rest from rfl, byte]
    simp only [List.singleton_append, List.mem_cons, not_or]
    exact ⟨differs, ih later⟩

end Utf8

end NostrWot.Data

namespace NostrWot.Pq

open NostrWot.Data

/-! ## Envelopes -/

/-- What an envelope's ciphertext is bound to. -/
structure EnvelopeContext where
  version : UInt8
  alg : UInt8
  parties : EnvelopeParties
  kemCt : Bytes

def EnvelopeContext.bytes (context : EnvelopeContext) : Bytes :=
  Utf8.encode ("nip-pqc/v1/env:" ++ toString context.version.toNat ++ ":" ++
    toString context.alg.toNat ++ ":" ++ context.parties.sender ++ ":" ++ context.parties.recipient ++
      ":").toList ++ context.kemCt

theorem associatedData_eq (alg : UInt8) (parties : EnvelopeParties) (kemCt : Bytes) :
    associatedData alg parties kemCt =
      EnvelopeContext.bytes ⟨ENVELOPE_VERSION, alg, parties, kemCt⟩ := rfl

theorem numeral_plain (value : Nat) :
    ∀ char ∈ (toString value).toList, char.toNat < 128 ∧ char.toNat ≠ 58 := by
  intro char among
  have among : char ∈ Nat.toDigits 10 value := by
    rw [← String.toList_ofList (l := Nat.toDigits 10 value)]
    exact among
  have digit := Nat.isDigit_of_mem_toDigits (by decide) (by decide) among
  have bounds : 48 ≤ char.toNat ∧ char.toNat ≤ 57 := by
    simpa [Char.isDigit, UInt32.le_iff_toNat_le] using digit
  omega

theorem hex_plain {text : String} (hex : isXonlyHex text = true) :
    ∀ char ∈ text.toList, char.toNat < 128 ∧ char.toNat ≠ 58 := by
  intro char among
  have every := ((Bool.and_eq_true _ _).mp hex).2
  have digit := List.all_eq_true.mp every char among
  have bounds : (48 ≤ char.toNat ∧ char.toNat ≤ 57) ∨ (97 ≤ char.toNat ∧ char.toNat ≤ 102) := by
    simpa [Char.le_def, UInt32.le_iff_toNat_le] using digit
  omega

theorem EnvelopeContext.bytes_eq (context : EnvelopeContext) :
    context.bytes = Utf8.encode "nip-pqc/v1/env:".toList ++
      (Utf8.encode (toString context.version.toNat).toList ++ 58 ::
        (Utf8.encode (toString context.alg.toNat).toList ++ 58 ::
          (Utf8.encode context.parties.sender.toList ++ 58 ::
            (Utf8.encode context.parties.recipient.toList ++ 58 :: context.kemCt)))) := by
  have colon : Utf8.encode ":".toList = [58] := by decide
  simp only [EnvelopeContext.bytes, String.toList_append, Utf8.encode_append, colon, List.append_assoc,
    List.cons_append, List.nil_append]

theorem EnvelopeContext.bytes_injective {left right : EnvelopeContext}
    (valid : assertParties left.parties = .ok ()) (valid' : assertParties right.parties = .ok ())
    (same : left.bytes = right.bytes) : left = right := by
  have hex : ∀ parties : EnvelopeParties, assertParties parties = .ok () →
      isXonlyHex parties.sender = true ∧ isXonlyHex parties.recipient = true := by
    intro parties valid
    unfold assertParties at valid
    split at valid
    · next both => exact (Bool.and_eq_true _ _).mp both
    · cases valid
  obtain ⟨sender, recipient⟩ := hex _ valid
  obtain ⟨sender', recipient'⟩ := hex _ valid'
  have number : ∀ value value' : UInt8, Utf8.encode (toString value.toNat).toList =
      Utf8.encode (toString value'.toNat).toList → value = value' := by
    intro value value' bytes
    have text : Nat.repr value.toNat = Nat.repr value'.toNat :=
      String.toList_inj.mp (Utf8.encode_injective bytes)
    exact UInt8.toNat_inj.mp (Nat.repr_inj.mp text)
  have same := (left.bytes_eq.symm.trans same).trans right.bytes_eq
  have same := (List.append_right_inj _).mp same
  obtain ⟨version, same⟩ := separated (Utf8.colon_fresh (numeral_plain _))
    (Utf8.colon_fresh (numeral_plain _)) same
  obtain ⟨alg, same⟩ := separated (Utf8.colon_fresh (numeral_plain _))
    (Utf8.colon_fresh (numeral_plain _)) same
  obtain ⟨from_, same⟩ := separated (Utf8.colon_fresh (hex_plain sender))
    (Utf8.colon_fresh (hex_plain sender')) same
  obtain ⟨to_, kemCt⟩ := separated (Utf8.colon_fresh (hex_plain recipient))
    (Utf8.colon_fresh (hex_plain recipient')) same
  obtain ⟨leftVersion, leftAlg, ⟨leftSender, leftRecipient⟩, leftCt⟩ := left
  obtain ⟨rightVersion, rightAlg, ⟨rightSender, rightRecipient⟩, rightCt⟩ := right
  have senders : leftSender = rightSender := String.toList_inj.mp (Utf8.encode_injective from_)
  have recipients : leftRecipient = rightRecipient := String.toList_inj.mp (Utf8.encode_injective to_)
  have versions : leftVersion = rightVersion := number _ _ version
  have algs : leftAlg = rightAlg := number _ _ alg
  have kemCts : leftCt = rightCt := kemCt
  rw [senders, recipients, versions, algs, kemCts]

/-! The callers check the parties before anything is bound to them. -/

variable {Coins : Type} {lib : Library Coins} {parties : EnvelopeParties}

theorem encryptPq_parties {plaintext : Plaintext} {kemKey conversationKey nonce : Bytes} {coins : Coins}
    {payload : String}
    (sent : encryptPq lib plaintext kemKey conversationKey parties coins nonce = .ok payload) :
    assertParties parties = .ok () := by
  cases valid : assertParties parties with
  | ok _ => rfl
  | error fault =>
    rw [encryptPq, valid] at sent
    split_ifs at sent
    all_goals cases sent

theorem openPq_parties {kemSecretKey conversationKey : Bytes} {payload text : String}
    (opened : openPq lib payload kemSecretKey conversationKey parties = .ok text) :
    assertParties parties = .ok () := by
  cases valid : assertParties parties with
  | ok _ => rfl
  | error fault =>
    rw [openPq, valid] at opened
    split_ifs at opened
    all_goals cases opened

end NostrWot.Pq

namespace NostrWot.Vault

open Data

/-! ## Stored records -/

/-- Each byte has two digits. -/
structure Packages.Halved (packages : Packages) : Prop where
  hex : ∀ text bytes, isHex text = true → packages.hexToBytes text = some bytes →
    bytes.length * 2 = text.length

theorem plain_alphanumeric {unit : UInt16} (plain : isAlphanumeric unit = true) : unit.toNat < 128 := by
  simp only [isAlphanumeric, Bool.or_eq_true, Bool.and_eq_true, decide_eq_true_eq,
    UInt16.le_iff_toNat_le] at plain
  rcases plain with ⟨-, below⟩ | ⟨-, below⟩
  · exact Nat.lt_of_le_of_lt below (by decide)
  · exact Nat.lt_of_le_of_lt below (by decide)

theorem relyingParty_plain {rpId : Units}
    (accepted : (rpId = Units.ofString "localhost" || validPasskeyRpId rpId) = true) :
    rpId.length ≤ 253 ∧ ∀ unit ∈ rpId, unit.toNat < 128 := by
  rcases (Bool.or_eq_true _ _).mp accepted with local_ | valid
  · have spelled : rpId = [108, 111, 99, 97, 108, 104, 111, 115, 116] :=
      (decide_eq_true_eq.mp local_).trans (by decide)
    rw [spelled]
    exact ⟨by simp, by simp⟩
  · simp only [validPasskeyRpId, isHostPattern, Bool.and_eq_true, decide_eq_true_eq] at valid
    obtain ⟨⟨⟨short, -⟩, -, every⟩, -⟩ := valid
    refine ⟨short, ?_⟩
    intro unit among
    have plain := List.all_eq_true.mp every unit among
    simp only [Bool.or_eq_true, decide_eq_true_eq] at plain
    rcases plain with (plain | rfl) | rfl
    · exact plain_alphanumeric plain
    · decide
    · decide

theorem plain_surrogate {unit : UInt16} (plain : unit.toNat < 128) : Units.isSurrogate unit = false := by
  rw [Bool.eq_false_iff]
  intro surrogate
  have bounds := Units.isSurrogate_iff.mp surrogate
  omega

theorem length_encode_plain {text : Units} (plain : ∀ unit ∈ text, unit.toNat < 128) :
    (Units.encode text).length = text.length := by
  induction text with
  | nil => rfl
  | cons unit rest ih =>
    obtain ⟨small, later⟩ := List.forall_mem_cons.mp plain
    have alone := plain_surrogate small
    have high : Units.isHigh unit = false := (Bool.or_eq_false_iff.mp alone).1
    have apart : Units.scalars (unit :: rest) = Units.single unit :: Units.scalars rest := by
      cases rest with
      | nil => rfl
      | cons next others =>
        rw [Units.scalars, high, Bool.false_and, if_neg Bool.false_ne_true]
    have one : (Utf8.encodeChar (Units.single unit)).length = 1 := by
      rw [Units.length_encode_single, if_pos (UInt16.lt_iff_toNat_lt.mpr small)]
    rw [Units.encode, apart, Units.length_encode_cons, ← Units.encode, ih later, one, List.length_cons]
    omega

variable {packages : Packages} {context context' : StoredRecordContext} {type type' : StoredPayloadType}

theorem credential_parts {id : Bytes} (found : credential packages context = some id) :
    (context.rpId = Units.ofString "localhost" || validPasskeyRpId context.rpId) = true ∧
      isHex64 context.author = true ∧ id.length ≤ 1024 ∧
      packages.bytesToBase64 id = context.credentialId := by
  unfold credential at found
  split at found
  · next both =>
    obtain ⟨party, author⟩ := (Bool.and_eq_true _ _).mp both
    refine ⟨party, author, ?_⟩
    unfold canonicalCredential at found
    split at found
    · contradiction
    · obtain ⟨bytes, -, checked⟩ := Option.bind_eq_some_iff.mp found
      split at checked
      · contradiction
      · next canonical =>
        cases checked
        simp only [Bool.or_eq_true, decide_eq_true_eq, not_or, not_lt, ne_eq, not_not] at canonical
        exact ⟨canonical.1.2, canonical.2⟩
  · contradiction

theorem storedRecordAad_parts {aad : Bytes} (made : storedRecordAad packages type context = some aad) :
    ∃ id author, credential packages context = some id ∧
      packages.hexToBytes context.author = some author ∧
      aad = HEADER ++ TYPES type :: UInt8.ofNat (Units.encode context.rpId).length ::
        (Units.encode context.rpId ++ (author ++ UInt8.ofNat (id.length / 256) ::
          UInt8.ofNat (id.length % 256) :: id)) := by
  obtain ⟨id, found, made⟩ := Option.bind_eq_some_iff.mp made
  obtain ⟨author, read, made⟩ := Option.bind_eq_some_iff.mp made
  refine ⟨id, author, found, read, ?_⟩
  rw [← Option.some_inj.mp made]
  simp only [List.append_assoc, List.cons_append, List.nil_append]

theorem storedRecordAad_injective (lawful : packages.Lawful) (halved : packages.Halved) {aad : Bytes}
    (made : storedRecordAad packages type context = some aad)
    (made' : storedRecordAad packages type' context' = some aad) : type = type' ∧ context = context' := by
  obtain ⟨id, author, found, read, parts⟩ := storedRecordAad_parts made
  obtain ⟨id', author', found', read', parts'⟩ := storedRecordAad_parts made'
  obtain ⟨party, hex, small, canonical⟩ := credential_parts found
  obtain ⟨party', hex', small', canonical'⟩ := credential_parts found'
  obtain ⟨short, plain⟩ := relyingParty_plain party
  obtain ⟨short', plain'⟩ := relyingParty_plain party'
  have length := length_encode_plain plain
  have length' := length_encode_plain plain'
  have byte : ∀ value value' : Nat, value < 256 → value' < 256 →
      UInt8.ofNat value = UInt8.ofNat value' → value = value' := by
    intro value value' below below' is
    rw [← Utf8.toNat_ofNat below, is, Utf8.toNat_ofNat below']
  have same := (List.append_right_inj _).mp (parts.symm.trans parts')
  simp only [List.cons.injEq] at same
  obtain ⟨types, counts, same⟩ := same
  have lengths := byte _ _ (by omega) (by omega) counts
  obtain ⟨parties, same⟩ := List.append_inj same lengths
  have back : ∀ (text : Units) (bytes : Bytes), isHex text = true →
      packages.hexToBytes text = some bytes → packages.bytesToHex bytes = text := by
    intro text bytes hex read
    obtain ⟨bytes', read', back⟩ := lawful.hex text hex
    rw [read] at read'
    rw [Option.some_inj.mp read', back]
  have whole := isHex_of_isHex64 hex
  have whole' := isHex_of_isHex64 hex'
  have half := halved.hex _ _ whole read
  have half' := halved.hex _ _ whole' read'
  simp only [isHex64, Bool.and_eq_true, decide_eq_true_eq] at hex hex'
  obtain ⟨authors, same⟩ := List.append_inj same (by omega)
  simp only [List.cons.injEq] at same
  obtain ⟨-, -, ids⟩ := same
  have kinds : type = type' := by
    cases type <;> cases type' <;> first | rfl | exact absurd types (by decide)
  have credentials : context.credentialId = context'.credentialId := by
    rw [← canonical, ← canonical', ids]
  have rps : context.rpId = context'.rpId := by
    have formed : ∀ text : Units, (∀ unit ∈ text, unit.toNat < 128) →
        Units.decodeFatal (Units.encode text) = some text := fun text plain =>
      Units.decodeFatal_encode (Units.isWellFormed_plain fun unit among =>
        plain_surrogate (plain unit among))
    have decoded := formed _ plain
    rw [parties, formed _ plain'] at decoded
    exact (Option.some_inj.mp decoded).symm
  have writers : context.author = context'.author := by
    rw [← back _ _ whole read, ← back _ _ whole' read', authors]
  cases context
  cases context'
  simp only [StoredRecordContext.mk.injEq]
  exact ⟨kinds, credentials, rps, writers⟩

/-! ## Both -/

/-- Equal associated data is that of equal contexts. -/
theorem equal_data_equal_context {Coins : Type} (lib : Pq.Library Coins) (lawful : packages.Lawful)
    (halved : packages.Halved) :
    (∀ left right : Pq.EnvelopeContext, Pq.assertParties left.parties = .ok () →
      Pq.assertParties right.parties = .ok () → left.bytes = right.bytes → left = right) ∧
    (∀ alg parties kemCt, Pq.associatedData alg parties kemCt =
      Pq.EnvelopeContext.bytes ⟨Pq.ENVELOPE_VERSION, alg, parties, kemCt⟩) ∧
    (∀ plaintext kemKey conversationKey parties coins nonce payload,
      Pq.encryptPq lib plaintext kemKey conversationKey parties coins nonce = .ok payload →
        Pq.assertParties parties = .ok ()) ∧
    (∀ payload kemSecretKey conversationKey parties text,
      Pq.openPq lib payload kemSecretKey conversationKey parties = .ok text →
        Pq.assertParties parties = .ok ()) ∧
    ∀ type type' context context' aad, storedRecordAad packages type context = some aad →
      storedRecordAad packages type' context' = some aad → type = type' ∧ context = context' :=
  ⟨fun _ _ => Pq.EnvelopeContext.bytes_injective, Pq.associatedData_eq,
    fun _ _ _ _ _ _ _ => Pq.encryptPq_parties, fun _ _ _ _ _ => Pq.openPq_parties,
    fun _ _ _ _ _ => storedRecordAad_injective lawful halved⟩

theorem plainPackages_halved : plainPackages.Halved where
  hex text bytes hex read := by
    have paired : pairBytes text = some bytes := (if_pos hex).symm.trans read
    clear hex read
    fun_induction pairBytes text generalizing bytes with
    | case1 =>
      cases paired
      rfl
    | case2 unit => contradiction
    | case3 high low rest ih =>
      obtain ⟨later, found, rfl⟩ := Option.map_eq_some_iff.mp paired
      have half := ih later found
      simp only [List.length_cons]
      omega

set_option maxRecDepth 4000 in
theorem equal_data_equal_context_plain :
    (∀ type type' context context' aad, storedRecordAad plainPackages type context = some aad →
      storedRecordAad plainPackages type' context' = some aad → type = type' ∧ context = context') ∧
    (storedRecordAad plainPackages .key
      ⟨Units.ofString "AQ==", Units.ofString "localhost", List.replicate 64 49⟩).isSome = true ∧
    Pq.assertParties Pq.meeting.parties = .ok () :=
  ⟨(equal_data_equal_context Pq.clear plainPackages_lawful plainPackages_halved).2.2.2.2, by decide, rfl⟩

end NostrWot.Vault
