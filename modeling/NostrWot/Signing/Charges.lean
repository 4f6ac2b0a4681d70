import NostrWot.Signing.Boundary
import NostrWot.Signing.Measure
import Mathlib.Data.List.Induction

namespace NostrWot.Signing.Untrusted

open NostrWot.Data NostrWot.Permissions

/-! # What a batch is charged

The bytes of a batch's items against the budget they are charged to.
-/

section Rules

variable {σ α β : Type} {state final : σ}

theorem reads_ok {step : Reads σ α} {next : α → Reads σ β} {result : β}
    (ran : (step >>= next) state = .ok (result, final)) :
    ∃ value middle, step state = .ok (value, middle) ∧ next value middle = .ok (result, final) := by
  obtain ⟨answer, first, rest⟩ := bind_ok (show step state >>= _ = _ from ran)
  exact ⟨answer.1, answer.2, first, rest⟩

theorem refuse_not_ok {error : SignerError} {value : α} :
    refuse (σ := σ) error state ≠ .ok (value, final) := nofun

end Rules

/-! ## What an item weighs -/

section Weights

variable {ρ : Type}

def Measured.weigh (item : Measured ρ) : Nat :=
  match item.params with
  | .signEvent event =>
    match event.tags.texts with
    | some tags =>
      (Units.encode
        (eventText event.kind event.content tags event.created_at event.pubkey)).length
    | none => item.bytes
  | .nip04Encrypt _ plaintext | .nip44Encrypt _ plaintext .classic => (Units.encode plaintext).length
  | .nip44Encrypt _ plaintext (.pq key) =>
    (Units.encode plaintext).length + (Units.encode key).length
  | .nip04Decrypt _ ciphertext | .nip44Decrypt _ ciphertext _ => (Units.encode ciphertext).length
  | .getPublicKey | .getRelays | .signPqAttestation => 0

/-- The bytes that a ciphertext takes beyond one for each of its characters. -/
def extra : Params ρ → Nat
  | .nip04Decrypt _ ciphertext | .nip44Decrypt _ ciphertext _ =>
    (Units.encode ciphertext).length - ciphertext.length
  | _ => 0

/-- The post-quantum opt-in, whose key is charged after the check. -/
def takesKey : Params ρ → Bool
  | .nip44Encrypt _ _ (.pq _) => true
  | _ => false

def charges (items : List (Measured ρ)) : Nat := (items.map Measured.bytes).sum

def KeysFit (items : List (Measured ρ)) : Prop :=
  ∀ before item after, items = before ++ item :: after → takesKey item.params = true →
    charges before + item.bytes ≤ MAX_BATCH_BYTES

def ExtrasFit (items : List (Measured ρ)) : Prop :=
  (items.map fun item => extra item.params).sum ≤ MAX_BATCH_BYTES - charges items

/-- What is known of an item that was read with so much of the budget left. -/
structure Charged (before : Int) (item : Measured ρ) : Prop where
  weighs : item.weigh = item.bytes + extra item.params
  left : item.left = before - item.bytes
  fits : 0 ≤ before → takesKey item.params = false → 0 ≤ item.left

theorem utf8ByteLength_ascii {text : Units} (ascii : ∀ unit ∈ text, unit < 0x80) :
    utf8ByteLength text = text.length := by
  induction text with
  | nil => rfl
  | cons unit rest ih =>
    have one := ascii unit List.mem_cons_self
    have others := ih fun other member => ascii other (List.mem_cons_of_mem _ member)
    cases rest with
    | nil => simp [utf8ByteLength, one]
    | cons next rest =>
      rw [utf8ByteLength, if_pos one, others]
      simp only [List.length_cons]
      omega

theorem isBase64_ascii {text : Units} (plain : isBase64 text = true) :
    ∀ unit ∈ text, unit < 0x80 := by
  intro unit member
  have parts := (Bool.and_eq_true _ _).mp plain
  rw [← List.takeWhile_append_dropWhile (p := isBase64Unit) (l := text)] at member
  rcases List.mem_append.mp member with digit | filling
  · have inside := List.mem_takeWhile_imp digit
    simp only [isBase64Unit, Bool.or_eq_true, Bool.and_eq_true, decide_eq_true_eq,
      UInt16.le_iff_toNat_le] at inside
    rw [UInt16.lt_iff_toNat_lt]
    change unit.toNat < 128
    rcases inside with (((upper | lower) | number) | rfl) | rfl
    · exact Nat.lt_of_le_of_lt upper.2 (by decide)
    · exact Nat.lt_of_le_of_lt lower.2 (by decide)
    · exact Nat.lt_of_le_of_lt number.2 (by decide)
    · decide
    · decide
  · have equals := List.all_eq_true.mp parts.2 unit filling
    rw [of_decide_eq_true equals]
    decide

theorem charges_cons (item : Measured ρ) (items : List (Measured ρ)) :
    charges (item :: items) = item.bytes + charges items := by
  simp [charges]

theorem charges_append (before after : List (Measured ρ)) :
    charges (before ++ after) = charges before + charges after := by
  simp [charges]

end Weights

/-! ## What a read charges -/

section Reads

variable {σ ρ ι : Type} {caller : Caller σ ρ ι} {state final : σ} {budget : Option Int}

theorem readPlaintext_ok {raw : ρ} {pubkey plaintext : Units} {bytes : Nat}
    (read : readPlaintext caller raw budget state = .ok ((pubkey, plaintext, bytes), final)) :
    bytes = utf8ByteLength plaintext ∧ (bytes : Int) ≤ limitOf MAX_CRYPTO_PLAINTEXT_BYTES budget := by
  unfold readPlaintext at read
  obtain ⟨_, _, _, read⟩ := reads_ok read
  obtain ⟨_, _, _, read⟩ := reads_ok read
  obtain ⟨_, _, _, read⟩ := reads_ok read
  obtain ⟨text, _, _, read⟩ := reads_ok read
  dsimp only at read
  split at read
  · exact absurd read refuse_not_ok
  · split at read
    · exact absurd read refuse_not_ok
    · next within =>
      cases read
      exact ⟨rfl, not_lt.mp within⟩

theorem readCiphertext_ok {raw : ρ} {pubkey ciphertext : Units}
    (read : readCiphertext caller raw budget state = .ok ((pubkey, ciphertext), final)) :
    (ciphertext.length : Int) ≤ limitOf MAX_CRYPTO_CIPHERTEXT_LENGTH budget := by
  unfold readCiphertext at read
  obtain ⟨_, _, _, read⟩ := reads_ok read
  obtain ⟨_, _, _, read⟩ := reads_ok read
  obtain ⟨_, _, _, read⟩ := reads_ok read
  obtain ⟨text, _, _, read⟩ := reads_ok read
  split at read
  · exact absurd read refuse_not_ok
  · next within =>
    cases read
    exact not_lt.mp within

theorem stringify_ok {event : CopiedEvent ρ} {text : Units}
    (read : stringify caller event state = .ok (text, final)) {tags : List (Option (List Units))}
    (texts : event.tags.texts = some tags) :
    text = eventText event.kind event.content tags event.created_at event.pubkey := by
  unfold stringify at read
  rw [texts] at read
  cases read
  rfl

theorem validateTemplate_ok {fuel bytes : Nat} {value : Foreign ρ} {limit : Int}
    {tooLarge : SignerError} {event : CopiedEvent ρ}
    (read : validateTemplate caller fuel value limit tooLarge state = .ok ((event, bytes), final)) :
    (bytes : Int) ≤ limit ∧ ∀ tags, event.tags.texts = some tags →
      bytes = utf8ByteLength
        (eventText event.kind event.content tags event.created_at event.pubkey) := by
  unfold validateTemplate at read
  obtain ⟨record, _, _, read⟩ := reads_ok read
  cases record with
  | none => exact absurd read refuse_not_ok
  | some template =>
    obtain ⟨_, _, _, read⟩ := reads_ok read
    obtain ⟨kind, _, _, read⟩ := reads_ok read
    obtain ⟨_, _, _, read⟩ := reads_ok read
    obtain ⟨content, _, _, read⟩ := reads_ok read
    split at read
    · exact absurd read refuse_not_ok
    · obtain ⟨raw, _, _, read⟩ := reads_ok read
      cases raw with
      | object rawTags =>
        obtain ⟨array, _, _, read⟩ := reads_ok read
        split at read
        · exact absurd read refuse_not_ok
        · obtain ⟨_, _, _, read⟩ := reads_ok read
          obtain ⟨_, _, _, read⟩ := reads_ok read
          split at read
          · exact absurd read refuse_not_ok
          · obtain ⟨_, _, _, read⟩ := reads_ok read
            obtain ⟨tags, _, _, read⟩ := reads_ok read
            obtain ⟨created_at, _, _, read⟩ := reads_ok read
            obtain ⟨pubkey, _, _, read⟩ := reads_ok read
            obtain ⟨text, _, stringified, read⟩ := reads_ok read
            dsimp only at read
            split at read
            · exact absurd read refuse_not_ok
            · next within =>
              cases read
              refine ⟨not_lt.mp within, fun texts plain => ?_⟩
              rw [stringify_ok stringified plain]
      | undefined | null | boolean | number | text | other => exact absurd read refuse_not_ok

theorem readKemKey_ok {opts : ρ} {key : Units}
    (read : readKemKey caller opts state = .ok (.pq key, final)) :
    key.length = RECIPIENT_KEM_KEY_LENGTH ∧ isBase64 key = true := by
  unfold readKemKey at read
  obtain ⟨value, _, _, read⟩ := reads_ok read
  cases value with
  | text text =>
    dsimp only at read
    split at read
    · exact absurd read refuse_not_ok
    · next long =>
      split at read
      · exact absurd read refuse_not_ok
      · next plain =>
        cases read
        exact ⟨not_not.mp long, by simpa using plain⟩
  | undefined | null | boolean | number | object | other => exact absurd read refuse_not_ok

theorem validateEncryptScheme_ok {raw : ρ} {key : Units}
    (read : validateEncryptScheme caller raw state = .ok (.pq key, final)) :
    key.length = RECIPIENT_KEM_KEY_LENGTH ∧ isBase64 key = true := by
  unfold validateEncryptScheme at read
  obtain ⟨value, _, _, read⟩ := reads_ok read
  split at read
  · cases read
  · obtain ⟨record, _, _, read⟩ := reads_ok read
    cases record with
    | none => exact absurd read refuse_not_ok
    | some opts =>
      obtain ⟨scheme, _, _, read⟩ := reads_ok read
      cases scheme with
      | text scheme =>
        dsimp only at read
        split at read
        · exact absurd read refuse_not_ok
        · exact readKemKey_ok read
      | undefined | null | boolean | number | object | other => exact absurd read refuse_not_ok

theorem length_le_encode (text : Units) : text.length ≤ (Units.encode text).length := by
  rw [← utf8ByteLength_eq]
  exact length_le_utf8ByteLength text

theorem validateParams_charged {fuel : Nat} {method : SignerMethod} {raw : ρ} {left : Int}
    {params : Params ρ} {bytes : Nat} (id : Units)
    (read : validateParams caller fuel method raw (some left) state = .ok ((params, bytes), final)) :
    Charged left ⟨id, params, bytes, left - bytes⟩ := by
  have within : ∀ cap : Nat, limitOf cap (some left) ≤ left := fun cap => min_le_right _ _
  cases method with
  | getPublicKey | getRelays =>
    cases read
    exact ⟨rfl, rfl, fun above _ => by simpa using above⟩
  | signPqAttestation =>
    obtain ⟨keys, _, _, read⟩ := reads_ok read
    split at read
    · exact absurd read refuse_not_ok
    · cases read
      exact ⟨rfl, rfl, fun above _ => by simpa using above⟩
  | signEvent =>
    obtain ⟨_, _, _, read⟩ := reads_ok read
    obtain ⟨⟨event, size⟩, _, templated, read⟩ := reads_ok read
    cases read
    obtain ⟨fits, exact_⟩ := validateTemplate_ok templated
    refine ⟨?_, rfl, fun _ _ => ?_⟩
    · cases texts : event.tags.texts with
      | none => simp [Measured.weigh, texts, extra]
      | some tags => simp [Measured.weigh, texts, extra, exact_ tags texts, utf8ByteLength_eq]
    · have below := within MAX_EVENT_BYTES
      simp only
      omega
  | nip04Encrypt =>
    obtain ⟨⟨pubkey, plaintext, size⟩, _, texted, read⟩ := reads_ok read
    obtain ⟨_, _, _, read⟩ := reads_ok read
    split at read
    · cases read
      obtain ⟨rfl, fits⟩ := readPlaintext_ok texted
      refine ⟨by simp [Measured.weigh, extra, utf8ByteLength_eq], rfl, fun _ _ => ?_⟩
      have below := within MAX_CRYPTO_PLAINTEXT_BYTES
      simp only
      omega
    · exact absurd read refuse_not_ok
  | nip44Encrypt =>
    obtain ⟨⟨pubkey, plaintext, size⟩, _, texted, read⟩ := reads_ok read
    obtain ⟨scheme, _, opted, read⟩ := reads_ok read
    obtain ⟨rfl, fits⟩ := readPlaintext_ok texted
    cases scheme with
    | classic =>
      cases read
      refine ⟨by simp [Measured.weigh, extra, utf8ByteLength_eq], rfl, fun _ _ => ?_⟩
      have below := within MAX_CRYPTO_PLAINTEXT_BYTES
      simp only
      omega
    | pq key =>
      cases read
      obtain ⟨long, plain⟩ := validateEncryptScheme_ok opted
      refine ⟨?_, rfl, fun _ keyless => by contradiction⟩
      simp only [Measured.weigh, extra, Nat.add_zero]
      rw [← utf8ByteLength_eq key, utf8ByteLength_ascii (isBase64_ascii plain), long,
        utf8ByteLength_eq]
  | nip04Decrypt | nip44Decrypt =>
    obtain ⟨⟨pubkey, ciphertext⟩, _, texted, read⟩ := reads_ok read
    cases read
    have fits := readCiphertext_ok texted
    have long := length_le_encode ciphertext
    refine ⟨?_, rfl, fun _ _ => ?_⟩
    · simp only [Measured.weigh, extra]
      omega
    · have below := within MAX_CRYPTO_CIPHERTEXT_LENGTH
      simp only
      omega

theorem located_ok {α : Type} {at_ : String} {run : Reads σ α} {result : α}
    (ran : located at_ run state = .ok (result, final)) : run state = .ok (result, final) := by
  unfold located at ran
  split at ran
  · contradiction
  · exact ran

theorem guarded_ok {α : Type} {what : String} {run : Reads σ α} {result : α}
    (ran : guarded what run state = .ok (result, final)) : run state = .ok (result, final) := by
  unfold guarded at ran
  split at ran
  · contradiction
  · exact ran

def ChargedFrom : Int → List (Measured ρ) → Prop
  | _, [] => True
  | before, item :: rest => Charged before item ∧ ChargedFrom (before - item.bytes) rest

variable {items : List (Measured ρ)}

theorem walkItems_charged {fuel rounds index : Nat} {rawItems : ρ} {seen : List Units}
    {remaining : Int}
    (ran : walkItems caller fuel rawItems rounds index seen remaining state = .ok (items, final)) :
    ChargedFrom remaining items := by
  induction rounds generalizing index seen remaining state items with
  | zero => contradiction
  | succ rounds ih =>
    unfold walkItems at ran
    obtain ⟨_, _, _, ran⟩ := reads_ok ran
    obtain ⟨_, _, _, ran⟩ := reads_ok ran
    split at ran
    · obtain ⟨_, _, _, ran⟩ := reads_ok ran
      obtain ⟨record, _, _, ran⟩ := reads_ok ran
      cases record with
      | none => exact absurd ran refuse_not_ok
      | some raw =>
        obtain ⟨id, _, _, ran⟩ := reads_ok ran
        split at ran
        · exact absurd ran refuse_not_ok
        · obtain ⟨method, _, _, ran⟩ := reads_ok ran
          obtain ⟨rawParams, _, _, ran⟩ := reads_ok ran
          obtain ⟨⟨params, bytes⟩, _, validated, ran⟩ := reads_ok ran
          obtain ⟨others, _, walked, ran⟩ := reads_ok ran
          cases ran
          exact ⟨validateParams_charged id (located_ok validated), ih walked⟩
    · cases ran
      trivial

theorem ChargedFrom.item {before : Int} {front : List (Measured ρ)} {item : Measured ρ}
    {rest : List (Measured ρ)} (charged : ChargedFrom before (front ++ item :: rest)) :
    Charged (before - charges front) item := by
  induction front generalizing before with
  | nil => simpa [charges] using charged.1
  | cons first front ih =>
    have behind := ih charged.2
    rw [charges_cons]
    have same : before - first.bytes - charges front = before - (first.bytes + charges front : Nat) := by
      push_cast
      omega
    rwa [← same]

theorem ChargedFrom.left_nonneg (charged : ChargedFrom MAX_BATCH_BYTES items)
    (keys : KeysFit items) :
    ∀ item ∈ items, 0 ≤ item.left := by
  have prefixes : ∀ front rest, items = front ++ rest → charges front ≤ MAX_BATCH_BYTES := by
    intro front
    induction front using List.reverseRecOn with
    | nil => exact fun _ _ => Nat.zero_le _
    | append_singleton front item ih =>
      intro rest parts
      rw [List.append_assoc] at parts
      have before := ih _ parts
      have here := (parts ▸ charged : ChargedFrom _ (front ++ ([item] ++ rest))).item
      rw [charges_append, charges_cons]
      cases key : takesKey item.params with
      | true =>
        have fits := keys front item rest parts key
        simpa [charges] using fits
      | false =>
        have above := here.fits (by omega) key
        rw [here.left] at above
        simp only [charges, List.map_nil, List.sum_nil] at *
        omega
  intro item member
  obtain ⟨front, rest, parts⟩ := List.append_of_mem member
  have here := (parts ▸ charged : ChargedFrom _ (front ++ item :: rest)).item
  have upTo := prefixes (front ++ [item]) rest (by rw [parts]; simp)
  rw [charges_append, charges_cons] at upTo
  rw [here.left]
  simp only [charges, List.map_nil, List.sum_nil] at *
  omega

theorem weigh_sum {before : Int} (charged : ChargedFrom before items) :
    (items.map Measured.weigh).sum =
      charges items + (items.map fun item => extra item.params).sum := by
  induction items generalizing before with
  | nil => rfl
  | cons item rest ih =>
    have one := charged.1.weighs
    have others := ih charged.2
    rw [charges_cons]
    simp only [List.map_cons, List.sum_cons]
    omega

theorem validateBatch_charged {fuel : Nat} {input : Foreign ρ} {request : BatchRequest ρ}
    (ran : validateBatch caller fuel input state = .ok ((request, items), final)) :
    ChargedFrom MAX_BATCH_BYTES items := by
  unfold validateBatch at ran
  obtain ⟨record, _, _, ran⟩ := reads_ok ran
  cases record with
  | none => exact absurd ran refuse_not_ok
  | some batch =>
    obtain ⟨_, _, _, ran⟩ := reads_ok ran
    obtain ⟨_, _, _, ran⟩ := reads_ok ran
    obtain ⟨_, _, _, ran⟩ := reads_ok ran
    obtain ⟨_, _, _, ran⟩ := reads_ok ran
    obtain ⟨rawItems, _, _, ran⟩ := reads_ok ran
    cases rawItems with
    | object rawItems =>
      obtain ⟨_, _, _, ran⟩ := reads_ok ran
      split at ran
      · exact absurd ran refuse_not_ok
      · obtain ⟨_, _, _, ran⟩ := reads_ok ran
        split at ran
        · exact absurd ran refuse_not_ok
        · obtain ⟨_, _, _, ran⟩ := reads_ok ran
          obtain ⟨_, _, _, ran⟩ := reads_ok ran
          split at ran
          · exact absurd ran refuse_not_ok
          · obtain ⟨walked, _, charged, ran⟩ := reads_ok ran
            obtain ⟨_, _, _, ran⟩ := reads_ok ran
            cases ran
            exact walkItems_charged charged
    | undefined | null | boolean | number | text | other => exact absurd ran refuse_not_ok

/-- An accepted batch keeps to its budget exactly when every recipient key and every byte of its
ciphertexts beyond one for a character fits in what was left for it. -/
theorem batch_within_budget_iff {fuel : Nat} {input : Foreign ρ} {request : BatchRequest ρ}
    {items : List (Measured ρ)}
    (accepted : validateBatchRequest caller fuel input state = .ok ((request, items), final)) :
    ((items.map Measured.weigh).sum ≤ MAX_BATCH_BYTES ∧ ∀ item ∈ items, 0 ≤ item.left) ↔
      KeysFit items ∧ ExtrasFit items := by
  have charged := validateBatch_charged (guarded_ok accepted)
  have weight := weigh_sum charged
  constructor
  · rintro ⟨total, lefts⟩
    constructor
    · intro front item rest parts key
      have here := (parts ▸ charged : ChargedFrom _ (front ++ item :: rest)).item
      have above := lefts item (by rw [parts]; simp)
      rw [here.left] at above
      omega
    · unfold ExtrasFit
      omega
  · rintro ⟨keys, extras⟩
    have lefts := charged.left_nonneg keys
    refine ⟨?_, lefts⟩
    have whole : charges items ≤ MAX_BATCH_BYTES := by
      rcases List.eq_nil_or_concat items with rfl | ⟨front, item, rfl⟩
      · exact Nat.zero_le _
      · have here := (show ChargedFrom _ (front ++ item :: []) by simpa using charged).item
        have above := lefts item (by simp)
        rw [here.left] at above
        rw [List.concat_eq_append, charges_append, charges_cons]
        simp only [charges, List.map_nil, List.sum_nil] at *
        omega
    unfold ExtrasFit at extras
    omega

end Reads

/-! ## A batch of plain data -/

/-- Objects that are plain data. -/
inductive Tree where
  | object (fields : List (String × Foreign Tree))
  | array (items : List (Foreign Tree))

def Tree.get : Tree → Key → Foreign Tree
  | .object fields, .name name =>
    ((fields.find? fun field => field.1 = name).map Prod.snd).getD .undefined
  | .array items, .name name =>
    if name = "length" then .number (.finite items.length) else .undefined
  | .array items, .index place => items[place]?.getD .undefined
  | .object _, .index _ => .undefined

def data : Caller Unit Tree (List (Foreign Tree)) where
  isArray tree :=
    match tree with
    | .array _ => return true
    | .object _ => return false
  get tree key := return tree.get key
  has tree place :=
    match tree with
    | .array items => return place < items.length
    | .object _ => return false
  keys tree :=
    match tree with
    | .array items => return items.length
    | .object fields => return fields.length
  number _ := return .nan
  iterator value :=
    match value with
    | .object (.array items) => return items
    | _ => throw .foreign
  next values :=
    match values with
    | [] => return none
    | value :: rest => return some (value, rest)
  map _ := return none
  species _ _ := return none
  stringify _ := return []
  freeze _ := return ()

section Crowded

def someone : Units := List.replicate 64 97

def itemOf (id : Units) (method : SignerMethod) (params : List (String × Foreign Tree)) :
    Foreign Tree :=
  .object (.object [("id", .text id), ("method", .text (Units.ofString method.name)),
    ("params", .object (.object (("pubkey", .text someone) :: params)))])

def decryptItem (id ciphertext : Units) : Foreign Tree :=
  itemOf id .nip04Decrypt [("ciphertext", .text ciphertext)]

def optsOf (key : Units) : Tree :=
  .object [("scheme", .text (Units.ofString "pq")), ("recipientKemKey", .text key)]

def encryptItem (id key : Units) : Foreign Tree :=
  itemOf id .nip44Encrypt [("plaintext", .text []), ("opts", .object (optsOf key))]

variable {items : List (Foreign Tree)} {fuel rounds index : Nat} {seen : List Units}
  {remaining : Int} {id ciphertext key : Units} {budget : Option Int}

/-- The properties of an item. -/
def fieldsOf (id : Units) (method : SignerMethod) (params : List (String × Foreign Tree)) : Tree :=
  .object [("id", .text id), ("method", .text (Units.ofString method.name)),
    ("params", .object (.object (("pubkey", .text someone) :: params)))]

theorem readId_data (method : SignerMethod) (params : List (String × Foreign Tree)) (what : String)
    (named : 0 < id.length ∧ id.length ≤ MAX_REQUEST_ID_LENGTH) :
    readId data (fieldsOf id method params) what () = .ok (id, ()) := by
  have step : readId data (fieldsOf id method params) what =
      (requireBoundedString (.text id : Foreign Tree) what MAX_REQUEST_ID_LENGTH >>= fun id =>
        requireNonEmptyString (.text id : Foreign Tree) what : Reads Unit Units) := rfl
  have filled : ¬ id.length = 0 := by omega
  rw [step]
  simp only [requireBoundedString, requireString, pure_bind, if_neg (not_lt.mpr named.2),
    requireNonEmptyString, if_neg filled]
  rfl

theorem readMethod_data (method : SignerMethod) (among : method ∈ KEY_METHODS)
    (params : List (String × Foreign Tree)) (what : String) :
    readMethod data (fieldsOf id method params) KEY_METHODS what () = .ok (method, ()) := by
  have found : KEY_METHODS.find? (fun other =>
      Units.ofString other.name = Units.ofString method.name) = some method := by
    revert method
    decide
  have named : data.get (fieldsOf id method params) (.name "method") =
      (pure (.text (Units.ofString method.name)) : Reads Unit (Foreign Tree)) := rfl
  rw [readMethod, named]
  simp only [pure_bind, found]
  rfl

theorem walk_item {method : SignerMethod} {fields : List (String × Foreign Tree)}
    {params : Params Tree} {bytes : Nat}
    (here : items[index]? = some (itemOf id method fields)) (fresh : id ∉ seen)
    (named : 0 < id.length ∧ id.length ≤ MAX_REQUEST_ID_LENGTH) (among : method ∈ KEY_METHODS)
    (validated : validateParams data fuel method (.object (("pubkey", .text someone) :: fields))
      (some remaining) () = .ok ((params, bytes), ())) :
    walkItems data fuel (.array items) (rounds + 1) index seen remaining () =
      (walkItems data fuel (.array items) rounds (index + 1) (id :: seen) (remaining - bytes) () >>=
        fun rest => .ok (⟨id, params, bytes, remaining - bytes⟩ :: rest.1, rest.2)) := by
  have inside : (Number.finite index).lt (charged items.length) = true := by
    have below := lt_charged index items.length
    have place := (List.getElem?_eq_some_iff.mp here).1
    rw [decide_eq_true (by omega)] at below
    exact below
  rw [walkItems]
  show (if (Number.finite index).lt (charged items.length) = true then _ else _ :
    Reads Unit (List (Measured Tree))) () = _
  rw [if_pos inside]
  show (isRecord data (items[index]?.getD .undefined) () >>= _) = _
  rw [here]
  show (readId data (fieldsOf id method fields) _ () >>= _) = _
  rw [readId_data method fields _ named]
  show (if id ∈ seen then _ else _ : Reads Unit (List (Measured Tree))) () = _
  rw [if_neg fresh]
  show (readMethod data (fieldsOf id method fields) KEY_METHODS _ () >>= _) = _
  rw [readMethod_data method among fields]
  show (located ("items[" ++ toString index ++ "]") (validateParams data fuel method
    (.object (("pubkey", .text someone) :: fields)) (some remaining)) () >>= _) = _
  have same : located ("items[" ++ toString index ++ "]") (validateParams data fuel method
      (.object (("pubkey", .text someone) :: fields)) (some remaining)) () =
        .ok ((params, bytes), ()) := by
    rw [located, validated]
  rw [same]
  rfl

theorem requirePubkey_someone (what : String) :
    requirePubkey (.text someone : Foreign Tree) what = (pure someone : Reads Unit Units) := by
  have hex : isHexPubkey someone = true := by decide
  rw [requirePubkey, if_pos hex]

theorem validateParams_decrypt (filled : 0 < ciphertext.length)
    (short : ciphertext.length ≤ MAX_CRYPTO_CIPHERTEXT_LENGTH)
    (fits : (ciphertext.length : Int) ≤ remaining) :
    validateParams data fuel .nip04Decrypt
      (.object [("pubkey", .text someone), ("ciphertext", .text ciphertext)]) (some remaining) () =
        .ok ((.nip04Decrypt someone ciphertext, ciphertext.length), ()) := by
  have nonempty : ¬ ciphertext.length = 0 := by omega
  have within : ¬ limitOf MAX_CRYPTO_CIPHERTEXT_LENGTH (some remaining) < ciphertext.length := by
    rw [limitOf]
    omega
  have pubkey : data.get (.object [("pubkey", .text someone), ("ciphertext", .text ciphertext)])
      (.name "pubkey") = (pure (.text someone) : Reads Unit (Foreign Tree)) := rfl
  have text : data.get (.object [("pubkey", .text someone), ("ciphertext", .text ciphertext)])
      (.name "ciphertext") = (pure (.text ciphertext) : Reads Unit (Foreign Tree)) := rfl
  simp only [validateParams, readCiphertext, pubkey, text, pure_bind, requirePubkey_someone,
    requireNonEmptyString, requireString, if_neg nonempty, if_neg within]
  rfl

def keyedParams (key : Units) : Tree :=
  .object [("pubkey", .text someone), ("plaintext", .text []), ("opts", .object (optsOf key))]

theorem validateEncryptScheme_keyed (long : key.length = RECIPIENT_KEM_KEY_LENGTH)
    (plain : isBase64 key = true) :
    validateEncryptScheme data (keyedParams key) = (pure (.pq key) : Reads Unit EncryptScheme) := by
  have opts : data.get (keyedParams key) (.name "opts") =
      (pure (.object (optsOf key)) : Reads Unit (Foreign Tree)) := rfl
  have record : isRecord data (.object (optsOf key)) =
      (pure (some (optsOf key)) : Reads Unit (Option Tree)) := rfl
  have scheme : data.get (optsOf key) (.name "scheme") =
      (pure (.text (Units.ofString "pq")) : Reads Unit (Foreign Tree)) := rfl
  have kemKey : data.get (optsOf key) (.name "recipientKemKey") =
      (pure (.text key) : Reads Unit (Foreign Tree)) := rfl
  have known : isUndefined (Foreign.object (optsOf key)) = false := rfl
  have long : ¬ key.length ≠ RECIPIENT_KEM_KEY_LENGTH := not_not.mpr long
  have plain : ¬ (!isBase64 key) = true := by simp [plain]
  have named : ¬ Units.ofString "pq" ≠ Units.ofString "pq" := not_not.mpr rfl
  rw [validateEncryptScheme, opts]
  simp only [pure_bind, known, Bool.false_eq_true, if_false, record, scheme, if_neg named, readKemKey,
    kemKey, if_neg long, if_neg plain]

theorem validateParams_encrypt (long : key.length = RECIPIENT_KEM_KEY_LENGTH)
    (plain : isBase64 key = true) (left : 0 ≤ remaining) :
    validateParams data fuel .nip44Encrypt (keyedParams key) (some remaining) () =
      .ok ((.nip44Encrypt someone [] (.pq key), RECIPIENT_KEM_KEY_LENGTH), ()) := by
  have within : ¬ limitOf MAX_CRYPTO_PLAINTEXT_BYTES (some remaining) < ((0 : Nat) : Int) := by
    rw [limitOf]
    omega
  have pubkey : data.get (keyedParams key) (.name "pubkey") =
      (pure (.text someone) : Reads Unit (Foreign Tree)) := rfl
  have text : data.get (keyedParams key) (.name "plaintext") =
      (pure (.text []) : Reads Unit (Foreign Tree)) := rfl
  have reading : readPlaintext data (keyedParams key) (some remaining) =
      (pure (someone, [], 0) : Reads Unit (Units × Units × Nat)) := by
    simp only [readPlaintext, pubkey, text, pure_bind, requirePubkey_someone, requireString,
      List.length_nil, utf8ByteLength, if_neg within]
    exact if_neg within
  simp only [validateParams, reading, pure_bind, validateEncryptScheme_keyed long plain, Nat.zero_add]
  rfl

def batchOf (items : List (Foreign Tree)) : Foreign Tree :=
  .object (.object [("id", .text [98]),
    ("origin", .object (.object [("kind", .text (Units.ofString "local")),
      ("identifier", .text (Units.ofString "app"))])),
    ("receivedAt", .number 0), ("items", .object (.array items))])

def appOrigin : Origin where
  kind := .localApp
  identifier := Units.ofString "app"

def batchFields (items : List (Foreign Tree)) : Tree :=
  .object [("id", .text [98]),
    ("origin", .object (.object [("kind", .text (Units.ofString "local")),
      ("identifier", .text (Units.ofString "app"))])),
    ("receivedAt", .number 0), ("items", .object (.array items))]

theorem validateOrigin_data : validateOrigin data (.object (.object
    [("kind", .text (Units.ofString "local")), ("identifier", .text (Units.ofString "app"))])) =
      (pure appOrigin : Reads Unit Origin) := by
  rfl

theorem freezeItems_plain {walked : List (Measured Tree)}
    (plain : ∀ item ∈ walked, freezeParams data item.params = (pure () : Reads Unit Unit)) :
    walked.forM (fun item => freezeParams data item.params) = (pure () : Reads Unit Unit) := by
  induction walked with
  | nil => rfl
  | cons item rest ih =>
    have first := plain item List.mem_cons_self
    have others := ih fun other member => plain other (List.mem_cons_of_mem _ member)
    show (freezeParams data item.params >>= fun _ =>
      rest.forM fun item => freezeParams data item.params) = _
    rw [first, pure_bind, others]

theorem validateBatchRequest_data {walked : List (Measured Tree)} (filled : 0 < items.length)
    (few : items.length ≤ MAX_BATCH_ITEMS)
    (ran : walkItems data fuel (.array items) fuel 0 [] MAX_BATCH_BYTES () = .ok (walked, ()))
    (plain : ∀ item ∈ walked, freezeParams data item.params = (pure () : Reads Unit Unit)) :
    validateBatchRequest data fuel (batchOf items) () =
      .ok ((⟨[98], appOrigin, walked.map Measured.wire, 0⟩, walked), ()) := by
  have nonzero : ¬ isZero (Foreign.number (.finite items.length) : Foreign Tree) = true := by
    simp only [isZero, decide_eq_true_eq]
    intro zero
    have length : (items.length : Rat) = 0 := Number.finite.inj zero
    have none_ : items.length = 0 := by exact_mod_cast length
    omega
  have within : ¬ (Number.finite MAX_BATCH_ITEMS).lt (.finite items.length) = true := by
    have bound := lt_charged MAX_BATCH_ITEMS items.length
    rw [decide_eq_false (by omega)] at bound
    simpa [charged] using bound
  have record : isRecord data (batchOf items) =
      (pure (some (batchFields items)) : Reads Unit (Option Tree)) := rfl
  have id : readId data (batchFields items) "id" = (pure [98] : Reads Unit Units) := rfl
  have origin : data.get (batchFields items) (.name "origin") =
      (pure (.object (.object [("kind", .text (Units.ofString "local")),
        ("identifier", .text (Units.ofString "app"))])) : Reads Unit (Foreign Tree)) := rfl
  have receivedAt : readReceivedAt data (batchFields items) = (pure 0 : Reads Unit Rat) := rfl
  have listed : data.get (batchFields items) (.name "items") =
      (pure (.object (.array items)) : Reads Unit (Foreign Tree)) := rfl
  have array : data.isArray (.array items) = (pure true : Reads Unit Bool) := rfl
  have length : data.get (.array items) (.name "length") =
      (pure (.number (.finite items.length)) : Reads Unit (Foreign Tree)) := rfl
  have whole : validateBatch data fuel (batchOf items) =
      (walkItems data fuel (.array items) fuel 0 [] MAX_BATCH_BYTES >>= fun walked => do
        walked.forM fun item => freezeParams data item.params
        return (⟨[98], appOrigin, walked.map Measured.wire, 0⟩, walked)) := by
    simp only [validateBatch, record, pure_bind, id, origin, validateOrigin_data, receivedAt, listed,
      array, Bool.not_true, Bool.false_eq_true, if_false, length, if_neg nonzero, toNumber,
      if_neg within]
  have answered : validateBatch data fuel (batchOf items) () =
      ((walked.forM fun item => freezeParams data item.params) >>= fun _ =>
        pure (⟨[98], appOrigin, walked.map Measured.wire, 0⟩, walked) : Reads Unit _) () := by
    rw [whole]
    show (walkItems data fuel (.array items) fuel 0 [] MAX_BATCH_BYTES () >>= _) = _
    rw [ran]
    rfl
  rw [freezeItems_plain plain] at answered
  rw [validateBatchRequest, guarded, answered]
  rfl

def decrypted (ciphertext : Units) : List Units → Int → List (Measured Tree)
  | [], _ => []
  | id :: ids, remaining =>
    ⟨id, .nip04Decrypt someone ciphertext, ciphertext.length, remaining - ciphertext.length⟩ ::
      decrypted ciphertext ids (remaining - ciphertext.length)

theorem walk_decrypts {ids : List Units} {rest : List (Foreign Tree)}
    (filled : 0 < ciphertext.length) (short : ciphertext.length ≤ MAX_CRYPTO_CIPHERTEXT_LENGTH)
    (distinct : ids.Nodup) (fresh : ∀ id ∈ ids, id ∉ seen)
    (named : ∀ id ∈ ids, 0 < id.length ∧ id.length ≤ MAX_REQUEST_ID_LENGTH)
    (tail : items.drop index = ids.map (fun id => decryptItem id ciphertext) ++ rest)
    (fits : (ids.length * ciphertext.length : Nat) ≤ remaining) :
    walkItems data fuel (.array items) (rounds + ids.length) index seen remaining () =
      (walkItems data fuel (.array items) rounds (index + ids.length) (ids.reverse ++ seen)
        (remaining - (ids.length * ciphertext.length : Nat)) () >>= fun others =>
          .ok (decrypted ciphertext ids remaining ++ others.1, others.2)) := by
  induction ids generalizing index seen remaining with
  | nil =>
    simp only [List.length_nil, Nat.add_zero, List.reverse_nil, List.nil_append, Nat.zero_mul,
      Nat.cast_zero, sub_zero, decrypted]
    cases walkItems data fuel (.array items) rounds index seen remaining () <;> rfl
  | cons id ids ih =>
    have split_ : (id :: ids).length * ciphertext.length =
        ids.length * ciphertext.length + ciphertext.length := by
      rw [List.length_cons, Nat.succ_mul]
    rw [split_] at fits ⊢
    have here : items[index]? = some (decryptItem id ciphertext) := by
      have first := congrArg (·[0]?) tail
      simpa using first
    have behind : items.drop (index + 1) =
        ids.map (fun id => decryptItem id ciphertext) ++ rest := by
      have dropped := congrArg (List.drop 1) tail
      simpa [List.drop_drop] using dropped
    have apart := List.nodup_cons.mp distinct
    have later : ∀ other ∈ ids, other ∉ id :: seen := by
      intro other member
      simp only [List.mem_cons, not_or]
      refine ⟨?_, fresh other (List.mem_cons_of_mem _ member)⟩
      rintro rfl
      exact apart.1 member
    have validated : validateParams data fuel .nip04Decrypt
        (.object [("pubkey", .text someone), ("ciphertext", .text ciphertext)]) (some remaining) () =
          .ok ((.nip04Decrypt someone ciphertext, ciphertext.length), ()) :=
      validateParams_decrypt filled short (by omega)
    have step := @walk_item _ _ (rounds + ids.length) _ _ _ _ _ _ _ _ here
      (fresh id List.mem_cons_self) (named id List.mem_cons_self) (by decide) validated
    have enough : (ids.length * ciphertext.length : Nat) ≤ remaining - ciphertext.length := by
      push_cast at fits ⊢
      omega
    have others := ih apart.2 later
      (fun other member => named other (List.mem_cons_of_mem _ member)) behind enough
    rw [List.length_cons, ← Nat.add_assoc, step, others]
    have left : remaining - ciphertext.length - (ids.length * ciphertext.length : Nat) =
        remaining - (ids.length * ciphertext.length + ciphertext.length : Nat) := by
      push_cast
      omega
    have next : index + 1 + ids.length = index + (ids.length + 1) := by omega
    rw [left, next, List.reverse_cons, List.append_assoc, List.singleton_append]
    cases walkItems data fuel (.array items) rounds (index + (ids.length + 1))
      (ids.reverse ++ id :: seen)
      (remaining - (ids.length * ciphertext.length + ciphertext.length : Nat)) () <;> rfl

theorem walk_end (last : items.length ≤ index) :
    walkItems data fuel (.array items) (rounds + 1) index seen remaining () = .ok ([], ()) := by
  have outside : ¬ (Number.finite index).lt (charged items.length) = true := by
    have beyond := lt_charged index items.length
    rw [decide_eq_false (by omega)] at beyond
    simpa using beyond
  rw [walkItems]
  show (if (Number.finite index).lt (charged items.length) = true then _ else _ :
    Reads Unit (List (Measured Tree))) () = _
  rw [if_neg outside]
  rfl

def longest : Units := List.replicate MAX_CRYPTO_CIPHERTEXT_LENGTH 65

def kemKey : Units := List.replicate RECIPIENT_KEM_KEY_LENGTH 65

def fullIds : List Units := [[97], [98], [99], [100], [101], [102], [103], [104]]

/-- Eight ciphertexts that take the whole budget, and nothing encrypted under a key. -/
def crowd : List (Foreign Tree) :=
  fullIds.map (fun id => decryptItem id longest) ++ [encryptItem [105] kemKey]

def crowded : List (Measured Tree) :=
  decrypted longest fullIds MAX_BATCH_BYTES ++
    [⟨[105], .nip44Encrypt someone [] (.pq kemKey), RECIPIENT_KEM_KEY_LENGTH,
      0 - RECIPIENT_KEM_KEY_LENGTH⟩]

theorem kemKey_plain : isBase64 kemKey = true := by
  have units : ∀ unit ∈ kemKey, isBase64Unit unit = true := by
    intro unit member
    rw [List.eq_of_mem_replicate member]
    decide
  have nothing : kemKey.dropWhile isBase64Unit = [] := List.dropWhile_eq_nil_iff.mpr units
  rw [isBase64, nothing]
  decide

theorem crowd_walked :
    walkItems data 10 (.array crowd) 10 0 [] MAX_BATCH_BYTES () = .ok (crowded, ()) := by
  have long : longest.length = MAX_CRYPTO_CIPHERTEXT_LENGTH := List.length_replicate
  have whole : fullIds.length * longest.length = MAX_BATCH_BYTES := by
    rw [long]
    rfl
  have front := @walk_decrypts crowd 10 2 0 [] MAX_BATCH_BYTES longest fullIds
    [encryptItem [105] kemKey] (by rw [long]; decide) (by rw [long]) (by decide) (by decide)
    (by decide) rfl (by rw [whole])
  have last := @walk_item crowd 10 1 8 fullIds.reverse 0 [105] _ _ _ _ rfl (by decide) (by decide)
    (by decide) (validateParams_encrypt List.length_replicate kemKey_plain le_rfl)
  rw [whole, sub_self, List.append_nil] at front
  have counted : 2 + fullIds.length = 10 := rfl
  have place : 0 + fullIds.length = 8 := rfl
  have finished := @walk_end crowd 10 0 (8 + 1) ([105] :: fullIds.reverse)
    (0 - RECIPIENT_KEM_KEY_LENGTH) (by decide)
  rw [counted, place, last, finished] at front
  rw [front]
  rfl

theorem crowd_accepted : validateBatchRequest data 10 (batchOf crowd) () =
    .ok ((⟨[98], appOrigin, crowded.map Measured.wire, 0⟩, crowded), ()) := by
  refine validateBatchRequest_data (by decide) (by decide) crowd_walked ?_
  intro item member
  simp only [crowded, fullIds, decrypted, List.cons_append, List.nil_append, List.mem_cons,
    List.not_mem_nil, or_false] at member
  rcases member with rfl | rfl | rfl | rfl | rfl | rfl | rfl | rfl | rfl <;> rfl

/-- The key of the last item is charged when nothing is left for it. -/
theorem key_charged_late : ¬ ∀ (fuel : Nat) (input : Foreign Tree) (request : BatchRequest Tree)
    (items : List (Measured Tree)),
    validateBatchRequest data fuel input () = .ok ((request, items), ()) →
      (items.map Measured.weigh).sum ≤ MAX_BATCH_BYTES ∧ ∀ item ∈ items, 0 ≤ item.left := by
  intro within
  have left := (within _ _ _ _ crowd_accepted).2
    ⟨[105], .nip44Encrypt someone [] (.pq kemKey), RECIPIENT_KEM_KEY_LENGTH,
      0 - RECIPIENT_KEM_KEY_LENGTH⟩ (by simp [crowded])
  exact absurd left (by decide)

/-- Of that batch, neither its total nor what it leaves is within the budget. -/
theorem batch_within_budget_iff_crowd :
    ((crowded.map Measured.weigh).sum ≤ MAX_BATCH_BYTES ∧ ∀ item ∈ crowded, 0 ≤ item.left) ↔
      KeysFit crowded ∧ ExtrasFit crowded :=
  batch_within_budget_iff crowd_accepted

end Crowded

end NostrWot.Signing.Untrusted
