import NostrWot.Signing.Boundary

namespace NostrWot.Data.Base64

/-! # Which payloads are post-quantum

A payload's class is read off its first four characters before it is decoded, while
`isPqEnvelope` decodes it whole.
-/

/-! ## The first bytes of a base64 text -/

theorem value_plain {char : Char} {number : Nat} (known : value char = some number) :
    char ≠ '=' ∧ isSpace char = false ∧ number < 64 ∧ char.toNat < 128 := by
  refine ⟨?_, ?_, ?_, ?_⟩
  · rintro rfl
    have other : value '=' = none := by decide
    rw [known] at other
    contradiction
  · rw [Bool.eq_false_iff]
    intro space
    simp only [isSpace, decide_eq_true_eq, List.mem_cons, List.not_mem_nil, or_false] at space
    have other : value char = none := by
      unfold value
      dsimp only
      rw [if_neg (by omega), if_neg (by omega), if_neg (by omega), if_neg, if_neg]
      · rintro rfl
        exact absurd space (by decide)
      · rintro rfl
        exact absurd space (by decide)
    rw [known] at other
    contradiction
  · unfold value at known
    dsimp only at known
    split_ifs at known <;> cases known <;> omega
  · by_contra large
    have other : value char = none := by
      unfold value
      dsimp only
      rw [if_neg (by omega), if_neg (by omega), if_neg (by omega), if_neg, if_neg]
      · rintro rfl
        exact large (by decide)
      · rintro rfl
        exact large (by decide)
    rw [known] at other
    contradiction

variable {text : List Char} {numbers : List Nat}

theorem mapM_take (known : text.mapM value = some numbers) :
    numbers.length = text.length ∧ ∀ count, (text.take count).mapM value = some (numbers.take count) := by
  induction text generalizing numbers with
  | nil =>
    rw [List.mapM_nil] at known
    cases known
    exact ⟨rfl, fun count => by rw [List.take_nil, List.take_nil]; rfl⟩
  | cons first rest ih =>
    rw [List.mapM_cons] at known
    obtain ⟨number, begins, later⟩ := Option.bind_eq_some_iff.mp known
    obtain ⟨others, ends, joined⟩ := Option.bind_eq_some_iff.mp later
    cases joined
    obtain ⟨length, each⟩ := ih ends
    refine ⟨by rw [List.length_cons, List.length_cons, length], ?_⟩
    intro count
    cases count with
    | zero => rfl
    | succ count =>
      rw [List.take_succ_cons, List.take_succ_cons, List.mapM_cons, begins, each count]
      rfl

theorem mapM_some (known : text.mapM value = some numbers) :
    ∀ char ∈ text, ∃ number, value char = some number := by
  induction text generalizing numbers with
  | nil => exact fun _ among => absurd among List.not_mem_nil
  | cons first rest ih =>
    rw [List.mapM_cons] at known
    obtain ⟨number, begins, later⟩ := Option.bind_eq_some_iff.mp known
    obtain ⟨others, ends, -⟩ := Option.bind_eq_some_iff.mp later
    intro char among
    rcases List.mem_cons.mp among with rfl | among
    · exact ⟨number, begins⟩
    · exact ih ends char among

theorem unpadded_tail (text : List Char) :
    ∃ tail, text = unpadded text ++ tail ∧ ∀ char ∈ tail, char = '=' := by
  unfold unpadded
  split
  · split
    · next rest reversed =>
      refine ⟨['=', '='], ?_, by simp⟩
      rw [← List.reverse_reverse text, reversed]
      simp
    · next rest _ reversed =>
      refine ⟨['='], ?_, by simp⟩
      rw [← List.reverse_reverse text, reversed]
      simp
    · exact ⟨[], (List.append_nil _).symm, by simp⟩
  · exact ⟨[], (List.append_nil _).symm, by simp⟩

theorem unpadded_front {front rest : List Char} (digits : ∀ char ∈ front, char ≠ '=') :
    ∃ others, unpadded (front ++ rest) = front ++ others := by
  obtain ⟨tail, parts, padding⟩ := unpadded_tail (front ++ rest)
  have long : front.length ≤ (unpadded (front ++ rest)).length := by
    by_contra short
    have within : (unpadded (front ++ rest)).length < front.length := by omega
    have at_ : (front ++ rest)[(unpadded (front ++ rest)).length]? =
        some front[(unpadded (front ++ rest)).length] := by
      rw [List.getElem?_append_left within, List.getElem?_eq_getElem within]
    have same := congrArg (fun text => text[(unpadded (front ++ rest)).length]?) parts
    simp only [at_] at same
    rw [List.getElem?_append_right (Nat.le_refl _), Nat.sub_self] at same
    have among := List.mem_of_getElem? same.symm
    exact digits _ (List.getElem_mem within) (padding _ among)
  refine ⟨(unpadded (front ++ rest)).drop front.length, ?_⟩
  have taken := congrArg (List.take front.length) parts
  rw [List.take_left, List.take_append_of_le_length long] at taken
  exact (List.take_append_drop front.length _).symm.trans (congrArg (· ++ _) taken.symm)

theorem atob_front {front rest : List Char} {bytes : List UInt8}
    (known : front.mapM value = some numbers) (decoded : atob (front ++ rest) = some bytes) :
    ∃ more, octets (numbers ++ more) = some bytes := by
  have plain : ∀ char ∈ front, char ≠ '=' ∧ isSpace char = false := by
    intro char among
    obtain ⟨number, read⟩ := mapM_some known char among
    obtain ⟨digit, unspaced, -⟩ := value_plain read
    exact ⟨digit, unspaced⟩
  have kept : (front ++ rest).filter (fun char => !isSpace char) =
      front ++ rest.filter fun char => !isSpace char := by
    rw [List.filter_append, List.filter_eq_self.mpr]
    intro char among
    rw [(plain char among).2]
    rfl
  have digits : ∀ char ∈ front, char ≠ '=' := fun char among => (plain char among).1
  obtain ⟨others, unpads⟩ := @unpadded_front _ (rest.filter fun char => !isSpace char) digits
  obtain ⟨values, read, whole⟩ := Option.bind_eq_some_iff.mp decoded
  rw [kept, unpads, List.mapM_append, known] at read
  obtain ⟨_, begins, read⟩ := Option.bind_eq_some_iff.mp read
  obtain ⟨more, -, joined⟩ := Option.bind_eq_some_iff.mp read
  cases begins
  cases joined
  exact ⟨more, whole⟩

/-- The first characters of a text that decodes to three bytes or more, none of them white
space, are digits. -/
theorem atob_digits {bytes : List UInt8} (decoded : atob text = some bytes)
    (long : 3 ≤ bytes.length) (unspaced : ∀ char ∈ text.take 4, isSpace char = false) :
    4 ≤ text.length ∧ ∃ numbers, (text.take 4).mapM value = some numbers := by
  obtain ⟨values, read, whole⟩ := Option.bind_eq_some_iff.mp decoded
  obtain ⟨tail, parts, -⟩ := unpadded_tail (text.filter fun char => !isSpace char)
  have four : 4 ≤ values.length := by
    rcases values with _ | ⟨first, _ | ⟨second, _ | ⟨third, _ | ⟨fourth, rest⟩⟩⟩⟩
    · cases whole
      exact absurd long (by decide)
    · cases whole
    · cases whole
      exact absurd long (by simp)
    · cases whole
      exact absurd long (by simp)
    · simp
  obtain ⟨length, each⟩ := mapM_take read
  have kept : (unpadded (text.filter fun char => !isSpace char)).length ≤
      (text.filter fun char => !isSpace char).length := by
    have lengths := congrArg List.length parts
    rw [List.length_append] at lengths
    omega
  have fewer := List.length_filter_le (fun char => !isSpace char) text
  have front : (unpadded (text.filter fun char => !isSpace char)).take 4 = text.take 4 := by
    have filtered : text.filter (fun char => !isSpace char) =
        text.take 4 ++ (text.drop 4).filter fun char => !isSpace char := by
      conv_lhs => rw [← List.take_append_drop 4 text]
      rw [List.filter_append, List.filter_eq_self.mpr]
      intro char among
      rw [unspaced char among]
      rfl
    have whole := congrArg (List.take 4) parts
    rw [List.take_append_of_le_length (by omega)] at whole
    rw [← whole, filtered, List.take_append_of_le_length (by rw [List.length_take]; omega),
      List.take_take, Nat.min_self]
  refine ⟨by omega, values.take 4, ?_⟩
  rw [← front]
  exact each 4

end NostrWot.Data.Base64

namespace NostrWot.Signing.Untrusted

open NostrWot.Data

/-! ## Headers -/

set_option maxRecDepth 10000 in
theorem idxOf_alphabet (char : Char) : BASE64_ALPHABET.idxOf? char = Base64.value char := by
  have every : ∀ code : Fin 128, BASE64_ALPHABET.idxOf? (Char.ofNat code) = Base64.value (Char.ofNat code) := by
    decide
  by_cases small : char.toNat < 128
  · have known := every ⟨char.toNat, small⟩
    rwa [Char.ofNat_toNat] at known
  · have absent : char ∉ BASE64_ALPHABET := by
      intro among
      have below : BASE64_ALPHABET.all (fun char => char.toNat < 128) = true := by decide
      exact small (of_decide_eq_true (List.all_eq_true.mp below char among))
    rw [List.idxOf?_eq_none_iff.mpr absent]
    cases known : Base64.value char with
    | none => rfl
    | some number => exact absurd (Base64.value_plain known).2.2.2 small

variable {text : List Char}

theorem headerBytes_digits {numbers : List Nat} (long : 4 ≤ text.length)
    (known : (text.take 4).mapM Base64.value = some numbers) :
    ∃ first second third fourth, numbers = [first, second, third, fourth] ∧
      first < 64 ∧ second < 64 ∧ third < 64 ∧
      headerBytes text = some (first * 4 + second / 16, second % 16 * 16 + third / 4) := by
  rcases text with _ | ⟨one, _ | ⟨two, _ | ⟨three, _ | ⟨four, rest⟩⟩⟩⟩
  · exact absurd long (by decide)
  · exact absurd long (by simp)
  · exact absurd long (by simp)
  · exact absurd long (by simp)
  · rw [show (one :: two :: three :: four :: rest).take 4 = [one, two, three, four] from rfl] at known
    have alphabet : [one, two, three, four].mapM (fun char => BASE64_ALPHABET.idxOf? char) = some numbers := by
      simp only [idxOf_alphabet]
      exact known
    simp only [List.mapM_cons, List.mapM_nil] at known
    obtain ⟨first, isFirst, known⟩ := Option.bind_eq_some_iff.mp known
    obtain ⟨more, others, known⟩ := Option.bind_eq_some_iff.mp known
    obtain ⟨second, isSecond, others⟩ := Option.bind_eq_some_iff.mp others
    obtain ⟨more', others', joined⟩ := Option.bind_eq_some_iff.mp others
    obtain ⟨third, isThird, others'⟩ := Option.bind_eq_some_iff.mp others'
    obtain ⟨more'', last, joined'⟩ := Option.bind_eq_some_iff.mp others'
    obtain ⟨fourth, isFourth, joined''⟩ := Option.bind_eq_some_iff.mp last
    cases joined''
    cases joined'
    cases joined
    cases known
    have small := (Base64.value_plain isFirst).2.2.1
    have small' := (Base64.value_plain isSecond).2.2.1
    have small'' := (Base64.value_plain isThird).2.2.1
    have small''' := (Base64.value_plain isFourth).2.2.1
    refine ⟨first, second, third, fourth, rfl, small, small', small'', ?_⟩
    unfold headerBytes
    dsimp only
    rw [alphabet]
    simp only [List.foldl_cons, List.foldl_nil, Option.some.injEq, Prod.mk.injEq]
    omega

theorem headerBytes_some {header : Nat × Nat} (read : headerBytes text = some header) :
    4 ≤ text.length ∧ ∃ numbers, (text.take 4).mapM Base64.value = some numbers := by
  unfold headerBytes at read
  split at read
  · next one two three four rest =>
    refine ⟨by simp, ?_⟩
    split at read
    · next numbers known =>
      simp only [idxOf_alphabet] at known
      exact ⟨numbers, known⟩
    · contradiction
  · contradiction

theorem headerBytes_spec {header : Nat × Nat} (read : headerBytes text = some header) :
    (∀ char ∈ text.take 4, Base64.isSpace char = false) ∧
      ∀ bytes, Base64.atob text = some bytes →
        ∃ first second others, bytes = first :: second :: others ∧
          header = (first.toNat, second.toNat) := by
  obtain ⟨long, numbers, known⟩ := headerBytes_some read
  obtain ⟨first, second, third, fourth, rfl, small, small', small'', header_⟩ :=
    headerBytes_digits long known
  refine ⟨?_, ?_⟩
  · intro char among
    obtain ⟨number, digit⟩ := Base64.mapM_some known char among
    exact (Base64.value_plain digit).2.1
  · intro bytes decoded
    rw [← List.take_append_drop 4 text] at decoded
    obtain ⟨more, whole⟩ := Base64.atob_front known decoded
    obtain ⟨others, -, rfl⟩ := Option.map_eq_some_iff.mp whole
    refine ⟨_, _, _, rfl, ?_⟩
    rw [header_] at read
    rw [Utf8.toNat_ofNat (by omega), Utf8.toNat_ofNat (by omega)]
    exact (Option.some_inj.mp read).symm

/-! ## Routes -/

def isPqEnvelope (payload : Units) : Bool :=
  (Base64.atob (Units.scalars payload)).any fun bytes =>
    Pq.HEADER_BYTES + Pq.TAG_BYTES ≤ bytes.length && bytes[0]? = some Pq.ENVELOPE_VERSION &&
      bytes[1]? = some Pq.ALG_MLKEM1024_XCHACHA

inductive Route where
  | classic
  | postQuantum
  deriving DecidableEq

/-- Which way `PrivateKeySigner.nip44Decrypt` takes. -/
def signerRoute (ciphertext : Units) : Route :=
  if isPqEnvelope ciphertext then .postQuantum else .classic

/-- Which way a request is taken that passed the signing boundary. -/
def boundaryRoute (ciphertext : Units) : Route :=
  match decryptScheme ciphertext with
  | .classic => .classic
  | .pq _ => .postQuantum

structure PrivateKeySigner where
  publicKey : Units
  /-- The secret key of `#pqKem`. -/
  pqKem : Option Pq.Bytes
  getConversationKey : Units → Except String Pq.Bytes
  decryptPq : Units → Pq.Bytes → Pq.Bytes → Units → Units → Except String Units
  decrypt : Units → Pq.Bytes → Except String Units

def PrivateKeySigner.nip44Decrypt (signer : PrivateKeySigner) (senderPubkey ciphertext : Units) :
    Except String Units := do
  let conv ← signer.getConversationKey senderPubkey
  match signerRoute ciphertext with
  | .postQuantum =>
    match signer.pqKem with
    | none => throw ("PrivateKeySigner has no ML-KEM keypair configured; " ++
        "cannot decrypt a post-quantum payload")
    | some secretKey => signer.decryptPq ciphertext secretKey conv senderPubkey signer.publicKey
  | .classic => signer.decrypt ciphertext conv

def Complete (payload : Units) : Prop :=
  ∃ bytes, Base64.atob (Units.scalars payload) = some bytes ∧
    Pq.HEADER_BYTES + Pq.TAG_BYTES ≤ bytes.length ∧
    [Pq.ENVELOPE_VERSION, Pq.ALG_MLKEM1024_XCHACHA] <+: bytes

def NamesOurs (payload : Units) : Prop :=
  ∃ alg, headerBytes (Units.scalars payload) = some (Pq.ENVELOPE_VERSION.toNat, alg)

/-- A payload decodes to bytes that begin as NIP-44's second version does. -/
def NamesVersion2 (payload : Units) : Prop :=
  ∃ others, Base64.atob (Units.scalars payload) = some (2 :: others)

structure RoutedAlike (payload : Units) : Prop where
  classes : classifyEnvelope payload = .pq ↔ isPqEnvelope payload = true
  routes : signerRoute payload = boundaryRoute payload
  version2 : NamesVersion2 payload → signerRoute payload = .classic ∧ boundaryRoute payload = .classic

/-- No white space among a complete envelope's first four characters, and nothing but complete
envelopes under our version. -/
structure Legible (payload : Units) : Prop where
  unspaced : Complete payload → ∀ char ∈ (Units.scalars payload).take 4, Base64.isSpace char = false
  complete : NamesOurs payload → Complete payload

variable {payload : Units}

theorem isPqEnvelope_iff : isPqEnvelope payload = true ↔ Complete payload := by
  unfold isPqEnvelope Complete
  cases decoded : Base64.atob (Units.scalars payload) with
  | none => simp
  | some bytes =>
    simp only [Option.any_some, Bool.and_eq_true, decide_eq_true_eq, Option.some.injEq,
      exists_eq_left']
    constructor
    · rintro ⟨⟨long, version⟩, alg⟩
      refine ⟨long, ?_⟩
      rcases bytes with _ | ⟨first, _ | ⟨second, rest⟩⟩
      · cases version
      · cases alg
      · cases version
        cases alg
        exact ⟨rest, rfl⟩
    · rintro ⟨long, rest, rfl⟩
      exact ⟨⟨long, rfl⟩, rfl⟩

theorem classifyEnvelope_classic : classifyEnvelope payload = .classic ↔ ¬ NamesOurs payload := by
  unfold classifyEnvelope NamesOurs
  dsimp only
  cases read : headerBytes (Units.scalars payload) with
  | none => simp
  | some header =>
    obtain ⟨version, alg⟩ := header
    dsimp only
    by_cases ours : version = Pq.ENVELOPE_VERSION.toNat
    · rw [if_neg (fun differ => differ ours), ours]
      refine ⟨fun classic => ?_, fun other => absurd ⟨alg, rfl⟩ other⟩
      split_ifs at classic
      split at classic
      · contradiction
      · split_ifs at classic
    · rw [if_pos ours]
      simp [ours]

theorem Complete.header (complete : Complete payload)
    (unspaced : ∀ char ∈ (Units.scalars payload).take 4, Base64.isSpace char = false) :
    headerBytes (Units.scalars payload) =
      some (Pq.ENVELOPE_VERSION.toNat, Pq.ALG_MLKEM1024_XCHACHA.toNat) := by
  obtain ⟨bytes, decoded, long, rest, rfl⟩ := complete
  have three : 3 ≤ ([Pq.ENVELOPE_VERSION, Pq.ALG_MLKEM1024_XCHACHA] ++ rest).length :=
    Nat.le_trans (by decide) long
  obtain ⟨chars, numbers, known⟩ := Base64.atob_digits decoded three unspaced
  obtain ⟨_, _, _, _, -, -, -, -, read⟩ := headerBytes_digits chars known
  obtain ⟨first, second, others, parts, header⟩ := (headerBytes_spec read).2 _ decoded
  cases parts
  rw [read, header]

theorem complete_of_classifyEnvelope (class_ : classifyEnvelope payload = .pq) :
    Complete payload ∧ ∃ header, headerBytes (Units.scalars payload) = some header := by
  unfold classifyEnvelope at class_
  dsimp only at class_
  cases read : headerBytes (Units.scalars payload) with
  | none =>
    rw [read] at class_
    contradiction
  | some header =>
    rw [read] at class_
    dsimp only at class_
    split_ifs at class_ with version alg
    split at class_
    · contradiction
    · next bytes decoded =>
      split_ifs at class_ with long
      obtain ⟨first, second, others, rfl, rfl⟩ := (headerBytes_spec read).2 _ decoded
      have first_ : first = Pq.ENVELOPE_VERSION := UInt8.toNat_inj.mp (not_not.mp version)
      have second_ : second = Pq.ALG_MLKEM1024_XCHACHA := UInt8.toNat_inj.mp (not_not.mp alg)
      exact ⟨⟨_, decoded, long, others, by rw [first_, second_]; rfl⟩, _, rfl⟩

theorem Complete.classifyEnvelope (complete : Complete payload)
    (unspaced : ∀ char ∈ (Units.scalars payload).take 4, Base64.isSpace char = false) :
    classifyEnvelope payload = .pq := by
  have header := complete.header unspaced
  obtain ⟨bytes, decoded, long, -⟩ := complete
  unfold Untrusted.classifyEnvelope
  dsimp only
  rw [header]
  dsimp only
  rw [if_neg (fun differ => differ rfl), if_neg (fun differ => differ rfl), decoded]
  exact if_pos long

theorem boundaryRoute_classic : boundaryRoute payload = .classic ↔ classifyEnvelope payload = .classic := by
  unfold boundaryRoute decryptScheme
  cases classifyEnvelope payload <;> simp

theorem signerRoute_classic : signerRoute payload = .classic ↔ ¬ Complete payload := by
  rw [← isPqEnvelope_iff, signerRoute]
  cases isPqEnvelope payload <;> simp

/-- Payloads are classified and routed as one exactly when they are legible. -/
theorem routedAlike_iff (payload : Units) : RoutedAlike payload ↔ Legible payload := by
  constructor
  · intro alike
    have routes : Complete payload ↔ NamesOurs payload := by
      have same : signerRoute payload = .classic ↔ boundaryRoute payload = .classic := by
        rw [alike.routes]
      rw [signerRoute_classic, boundaryRoute_classic, classifyEnvelope_classic] at same
      exact not_iff_not.mp same
    refine ⟨?_, routes.mpr⟩
    intro complete
    obtain ⟨alg, read⟩ := routes.mp complete
    exact (headerBytes_spec read).1
  · intro legible
    have routes : signerRoute payload = boundaryRoute payload := by
      have same : Complete payload ↔ NamesOurs payload :=
        ⟨fun complete => ⟨_, complete.header (legible.unspaced complete)⟩, legible.complete⟩
      have either : signerRoute payload = .classic ↔ boundaryRoute payload = .classic := by
        rw [signerRoute_classic, boundaryRoute_classic, classifyEnvelope_classic, same]
      cases first : signerRoute payload <;> cases second : boundaryRoute payload <;>
        simp_all
    refine ⟨⟨?_, ?_⟩, routes, ?_⟩
    · intro class_
      exact isPqEnvelope_iff.mpr (complete_of_classifyEnvelope class_).1
    · intro accepted
      have complete := isPqEnvelope_iff.mp accepted
      exact complete.classifyEnvelope (legible.unspaced complete)
    · rintro ⟨others, decoded⟩
      have incomplete : ¬ Complete payload := by
        rintro ⟨bytes, decoded', -, rest, rfl⟩
        rw [decoded] at decoded'
        cases Option.some_inj.mp decoded'
      have classic := signerRoute_classic.mpr incomplete
      exact ⟨classic, routes ▸ classic⟩

/-- A complete envelope after a line feed. -/
def wrapped : Units :=
  ('\n' :: Base64.btoa ([1, 1] ++ List.replicate 1608 0)).flatMap Units.ofChar

/-- Three bytes of an envelope. -/
def truncated : Units := Units.ofString "AQEA"

theorem wrapped_complete : Complete wrapped := by
  refine ⟨[1, 1] ++ List.replicate 1608 0, ?_, ?_, List.prefix_append _ _⟩
  · rw [wrapped, Units.scalars_ofChars]
    exact Base64.atob_btoa _
  · rw [List.length_append, List.length_replicate]
    decide

theorem envelopes_split : ¬ RoutedAlike wrapped ∧ ¬ RoutedAlike truncated := by
  refine ⟨fun alike => ?_, fun alike => ?_⟩
  · have class_ := alike.classes.mpr (isPqEnvelope_iff.mpr wrapped_complete)
    obtain ⟨-, header, read⟩ := complete_of_classifyEnvelope class_
    have unspaced := (headerBytes_spec read).1 '\n'
    rw [wrapped, Units.scalars_ofChars] at unspaced
    exact absurd (unspaced List.mem_cons_self) (by decide)
  · exact absurd alike.routes (by decide)

/-! ## Envelopes of our own -/

section Envelopes

open Pq

theorem calcPaddedLen_le {len size : Nat} (short : len ≤ MAX_PLAINTEXT_BYTES)
    (known : calcPaddedLen len = .ok size) : size ≤ len + 8192 := by
  have short : len ≤ 65535 := short
  unfold calcPaddedLen at known
  split at known
  · contradiction
  split at known
  · cases known
    omega
  dsimp only at known
  cases known
  have power : 1 <<< (Nat.log2 (len - 1) + 1) ≤ 2 ^ 16 := by
    rw [Nat.one_shiftLeft]
    refine Nat.pow_le_pow_right (by decide) ((Nat.log2_lt (by omega)).mpr ?_)
    omega
  generalize chunked : (if 1 <<< (Nat.log2 (len - 1) + 1) ≤ 256 then 32
    else 1 <<< (Nat.log2 (len - 1) + 1) / 8) = chunk
  have small : chunk ≤ 8192 := by
    rw [← chunked]
    split <;> omega
  have under := Nat.mul_div_le (len - 1) chunk
  rw [Nat.mul_succ]
  omega

theorem btoa_routes {bytes : Bytes} (whole : HEADER_BYTES + TAG_BYTES ≤ bytes.length)
    (ours : [ENVELOPE_VERSION, ALG_MLKEM1024_XCHACHA] <+: bytes) {text : Units}
    (spelled : text = Units.ofString (String.ofList (Base64.btoa bytes))) :
    text.length = (bytes.length + 2) / 3 * 4 ∧ boundaryRoute text = .postQuantum ∧
      signerRoute text = .postQuantum := by
  rw [Units.ofString, String.toList_ofList] at spelled
  have back : Units.scalars text = Base64.btoa bytes := by rw [spelled, Units.scalars_ofChars]
  have complete : Complete text := ⟨bytes, back ▸ Base64.atob_btoa _, whole, ours⟩
  have class_ := complete.classifyEnvelope fun char member =>
    Base64.unspaced_of_mem_btoa (back ▸ List.mem_of_mem_take member)
  refine ⟨?_, ?_, ?_⟩
  · rw [spelled, Units.length_ofChars fun _ => Base64.small_of_mem_btoa, Base64.length_btoa]
  · rw [boundaryRoute, decryptScheme, class_]
  · rw [signerRoute, isPqEnvelope_iff.mpr complete, if_pos rfl]

variable {Coins : Type} {lib : Library Coins} {plaintext : Plaintext}
  {recipientKemKey conversationKey nonce : Bytes} {parties : EnvelopeParties} {coins : Coins}

/-- The length of an envelope tells no more than the padded length of its message.  The signing
boundary takes it, and like the signer takes it for post-quantum. -/
theorem envelopes_pass_boundary {secretKey : Bytes} {payload : String}
    (correct : lib.Correct recipientKemKey secretKey) (sized : nonce.length = NONCE_BYTES)
    (sent : encryptPq lib plaintext recipientKemKey conversationKey parties coins nonce =
      .ok payload) :
    (∃ size, calcPaddedLen plaintext.toBytes.length = .ok size ∧ (Units.ofString payload).length =
      (HEADER_BYTES + (2 + size + TAG_BYTES) + 2) / 3 * 4) ∧
    (Units.ofString payload).length ≤ MAX_CRYPTO_CIPHERTEXT_LENGTH ∧
    boundaryRoute (Units.ofString payload) = .postQuantum ∧
    signerRoute (Units.ofString payload) = .postQuantum := by
  unfold encryptPq at sent
  dsimp only [bind, Except.bind] at sent
  split at sent
  · contradiction
  split at sent
  · contradiction
  cases named : assertParties parties with
  | error fault => simp [named] at sent
  | ok =>
    cases padded : pad plaintext.toBytes with
    | error fault => simp [named, padded] at sent
    | ok text =>
      simp only [named, padded] at sent
      have filled : 0 < plaintext.toBytes.length := by
        by_contra empty
        simp [pad, Nat.eq_zero_of_not_pos empty, throw, throwThe, MonadExceptOf.throw, bind,
          Except.bind] at padded
      have short : plaintext.toBytes.length ≤ 65535 := by
        by_contra long
        have long : MAX_PLAINTEXT_BYTES < plaintext.toBytes.length := Nat.lt_of_not_le long
        simp [pad, filled.ne', long, throw, throwThe, MonadExceptOf.throw, bind,
          Except.bind] at padded
      obtain ⟨size, known, fits, pads⟩ := pad_ok filled short
      cases pads.symm.trans padded
      have cipherText := correct.cipherText coins
      have sealed := correct.tag (hybridKey lib (lib.encapsulate recipientKemKey coins).2 conversationKey)
        nonce (associatedData ALG_MLKEM1024_XCHACHA parties (lib.encapsulate recipientKemKey coins).1)
        (uint16 plaintext.toBytes.length ++ plaintext.toBytes ++
          List.replicate (size - plaintext.toBytes.length) 0) sized
      generalize lib.encrypt _ _ _ _ = inside at sealed sent
      generalize (lib.encapsulate recipientKemKey coins).1 = kemCt at cipherText sent
      have total : ([ENVELOPE_VERSION, ALG_MLKEM1024_XCHACHA] ++ kemCt ++ nonce ++ inside).length =
          HEADER_BYTES + (2 + size + TAG_BYTES) := by
        simp only [List.length_append, List.length_replicate, uint16, List.length_cons,
          List.length_nil] at sealed ⊢
        rw [cipherText, sized, sealed, HEADER_BYTES]
        omega
      obtain ⟨long, routes⟩ := btoa_routes (by omega) (by simp) (congrArg _ (Except.ok.inj sent).symm)
      rw [total] at long
      refine ⟨⟨size, known, long⟩, ?_, routes⟩
      have bound := calcPaddedLen_le short known
      rw [long]
      simp only [HEADER_BYTES, KEM_CIPHERTEXT_BYTES, NONCE_BYTES, TAG_BYTES,
        MAX_CRYPTO_CIPHERTEXT_LENGTH]
      omega

/-- A message in clear to the other side. -/
theorem envelopes_pass_boundary_hi : ∃ payload,
    encryptPq clear (.text "hi") meeting.publicKey meeting.conversationKey meeting.parties ()
      meeting.nonce = .ok payload ∧
    signerRoute (Units.ofString payload) = .postQuantum := by
  obtain ⟨payload, sent, -⟩ := @decryptPq_encryptPq _ clear meeting () (clear_correct _ _) "hi"
    (by decide) (by decide)
  exact ⟨payload, sent,
    (envelopes_pass_boundary (clear_correct _ []) meeting.nonce_length sent).2.2.2⟩

end Envelopes

end NostrWot.Signing.Untrusted
