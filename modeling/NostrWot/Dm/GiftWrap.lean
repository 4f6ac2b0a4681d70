import NostrWot.Data.JsonNumber
import NostrWot.Data.Outcome
import NostrWot.Data.Decimal

namespace NostrWot.Dm.GiftWrap

open NostrWot.Data

/-! # Gift wraps

A rumor sealed by its sender and wrapped for its recipient, and what is accepted of a wrap.
-/

abbrev Value := JsonValue Number

def KIND_SEALED : Number := 13

def KIND_GIFT_WRAP : Number := 1059

inductive Failure where
  /-- Signer does not support NIP-44 encryption. -/
  | noEncryption
  /-- Signer does not support NIP-44 decryption. -/
  | noDecryption
  | expected (kind : Number)
  /-- Failed to decrypt seal. -/
  | undecrypted
  /-- A text is not JSON, or a value is used as what it is not. -/
  | unreadable
  /-- Thrown by the signer or by a library. -/
  | refused
  deriving DecidableEq

/-- The encapsulation key that a post-quantum seal is asked for with. -/
structure PqSealOptions where
  recipientKemKey : Units

structure NostrSigner where
  getPublicKey : Units
  signEvent : Value → Except Failure Value
  nip44Encrypt : Option (Units → Units → Option PqSealOptions → Except Failure Units)
  nip44Decrypt : Option (Units → Units → Except Failure Units)

/-- The fields of an unsigned event that its id is made of, as they are found. -/
structure Canonical where
  pubkey : Option Value
  created_at : Option Value
  kind : Option Value
  tags : Option Value
  content : Option Value

/-- What the libraries provide; `κ` are the secret keys. -/
structure Tools (κ : Type) where
  doubles : Doubles
  validateEvent : Canonical → Bool
  hash : Units → Units
  verifyEvent : Value → Bool
  getPublicKey : κ → Units
  /-- NIP-44 under the conversation key of a secret key and a public one. -/
  encrypt : κ → Units → Units → Except Failure Units

structure Event where
  pubkey : Units
  kind : Number
  created_at : Number
  tags : List (List Units)
  content : Units

def canonicalOf (message : Value) : Canonical where
  pubkey := message.field "pubkey"
  created_at := message.field "created_at"
  kind := message.field "kind"
  tags := message.field "tags"
  content := message.field "content"

section Code

variable {κ : Type} (tools : Tools κ)

def serialized (event : Canonical) : Value :=
  .array [.number 0, event.pubkey.getD .null, event.created_at.getD .null, event.kind.getD .null,
    event.tags.getD .null, event.content.getD .null]

def getEventHash (event : Canonical) : Except Failure Units :=
  if tools.validateEvent event then .ok (tools.hash (tools.doubles.stringify (serialized event)))
  else .error .unreadable

def sealTemplate (sealedContent : Units) (created_at : Number) : Value := .object [
  (Units.ofString "kind", .number KIND_SEALED),
  (Units.ofString "created_at", .number created_at),
  (Units.ofString "tags", .array []),
  (Units.ofString "content", .text sealedContent)]

def sealAndGiftWrap (signer : NostrSigner) (recipientPubkey : Units) (message : Value)
    (pq : Option PqSealOptions) (sealedAt wrappedAt : Number) (ephSk : κ) :
    Except Failure Event :=
  match signer.nip44Encrypt with
  | none => .error .noEncryption
  | some nip44Encrypt => do
      let id ← getEventHash tools (canonicalOf message)
      let innerWithId := message.withField "id" (.text id)
      let sealedContent ← nip44Encrypt recipientPubkey (tools.doubles.stringify innerWithId) pq
      let sealed ← signer.signEvent (sealTemplate sealedContent sealedAt)
      let wrapContent ← tools.encrypt ephSk recipientPubkey (tools.doubles.stringify sealed)
      return {
        pubkey := tools.getPublicKey ephSk
        kind := KIND_GIFT_WRAP
        created_at := wrappedAt
        tags := [[Units.ofString "p", recipientPubkey]]
        content := wrapContent }

/-- `JSON.parse`, where only an object can be read on: nothing else has the members asked for. -/
def readObject (text : Units) (otherwise : Failure) : Except Failure Value :=
  match tools.doubles.parse text with
  | none | some .null => .error .unreadable
  | some value => if value.isObject then .ok value else .error otherwise

def openWrap (nip44Decrypt : Units → Units → Except Failure Units) (giftWrap : Event) :
    Except Failure Value := do
  let wrapPlaintext ← nip44Decrypt giftWrap.pubkey giftWrap.content
  let sealed ← readObject tools wrapPlaintext (.expected KIND_SEALED)
  if !(sealed.field "kind").any (JsonValue.isNumber fun kind => kind = KIND_SEALED) then
    throw (.expected KIND_SEALED)
  if !tools.verifyEvent sealed then throw .undecrypted
  return sealed

def checkRumor (sender : Units) (message : Value) : Except Failure Value := do
  if sender = [] ∨ !message.hasText "pubkey" sender then throw .undecrypted
  let computedId ← getEventHash tools (canonicalOf message)
  match message.field "id" with
  | none => return message.withField "id" (.text computedId)
  | some id => if id.isText (fun said => said = computedId) then return message else throw .undecrypted

def unwrapGiftWrap (signer : NostrSigner) (giftWrap : Event) : Except Failure (Value × Units) :=
  match signer.nip44Decrypt with
  | none => .error .noDecryption
  | some nip44Decrypt =>
    if giftWrap.kind ≠ KIND_GIFT_WRAP then .error (.expected KIND_GIFT_WRAP)
    else do
      let sealed ← openWrap tools nip44Decrypt giftWrap
      -- a seal that verifies has both
      match sealed.textField "pubkey", sealed.textField "content" with
      | some sender, some content =>
        let sealPlaintext ← nip44Decrypt sender content
        let message ← readObject tools sealPlaintext .undecrypted
        let rumor ← checkRumor tools sender message
        return (rumor, sender)
      | _, _ => throw .undecrypted

def unwrapGiftWrapForSelf (signer : NostrSigner) (giftWrap : Event) : Option Value :=
  match unwrapGiftWrap tools signer giftWrap with
  | .ok (message, senderPubkey) => if senderPubkey = signer.getPublicKey then some message else none
  | .error _ => none

end Code

/-! ## What the code relies on -/

/-- 64 lowercase hexadecimal digits. -/
def IsPubkey (key : Units) : Prop :=
  key.length = 64 ∧ ∀ unit ∈ key, (48 ≤ unit ∧ unit ≤ 57) ∨ (97 ≤ unit ∧ unit ≤ 102)

def tagsValue (tags : List (List Units)) : Value :=
  .array (tags.map fun tag => .array (tag.map .text))

/-- The fields of an unsigned event of the declared types. -/
def typed (pubkey : Units) (created_at kind : Number) (tags : List (List Units)) (content : Units) :
    Canonical where
  pubkey := some (.text pubkey)
  created_at := some (.number created_at)
  kind := some (.number kind)
  tags := some (tagsValue tags)
  content := some (.text content)

/-- What the libraries document: which events have an id, that no two texts have one, and that
signatures verify only for their signer. -/
structure Documented {κ : Type} (tools : Tools κ) (SignedBy : Units → Value → Prop) : Prop where
  typed_of_valid : ∀ event, tools.validateEvent event = true →
    ∃ pubkey created_at kind tags content, event = typed pubkey created_at kind tags content ∧
      IsPubkey pubkey
  valid : ∀ pubkey created_at kind tags content, IsPubkey pubkey → created_at.isFinite = true →
    kind.isFinite = true → tools.validateEvent (typed pubkey created_at kind tags content) = true
  apart : Function.Injective tools.hash
  signed : ∀ sealed, tools.verifyEvent sealed = true →
    ∃ pubkey, sealed.field "pubkey" = some (.text pubkey) ∧ SignedBy pubkey sealed
  small : ∀ value : Nat, value ≤ 2 ^ 53 → tools.doubles.IsDouble value

/-- A recipient's signer decrypts what was encrypted for it, and what a signer signs verifies when
it is read back. -/
structure Talks {κ : Type} (tools : Tools κ) (signer recipient : NostrSigner) : Prop where
  decrypts : ∃ nip44Decrypt, recipient.nip44Decrypt = some nip44Decrypt ∧
    (∀ nip44Encrypt text pq cipher, signer.nip44Encrypt = some nip44Encrypt →
      nip44Encrypt recipient.getPublicKey text pq = .ok cipher →
        nip44Decrypt signer.getPublicKey cipher = .ok text) ∧
    ∀ ephSk text cipher, tools.encrypt ephSk recipient.getPublicKey text = .ok cipher →
      nip44Decrypt (tools.getPublicKey ephSk) cipher = .ok text
  signs : ∀ template sealed, template.Unique → template.isObject = true →
    tools.doubles.reread template = template → signer.signEvent template = .ok sealed →
      sealed.Unique ∧
      tools.verifyEvent (tools.doubles.reread sealed) = true ∧
      (tools.doubles.reread sealed).field "pubkey" = some (.text signer.getPublicKey) ∧
      (tools.doubles.reread sealed).field "kind" = template.field "kind" ∧
      (tools.doubles.reread sealed).field "content" = template.field "content"

/-- An unsigned event under a key, with numbers that JSON can write. -/
structure WellFormed {κ : Type} (tools : Tools κ) (pubkey : Units) (message : Value) : Prop where
  unique : message.Unique
  object : message.isObject = true
  key : IsPubkey pubkey
  fields : ∃ created_at kind tags content,
    canonicalOf message = typed pubkey (.finite created_at) (.finite kind) tags content ∧
      tools.doubles.IsDouble created_at ∧ tools.doubles.IsDouble kind

/-! ## Values of the declared types -/

section Typed

variable {κ : Type} {tools : Tools κ}

theorem isObject_of_field {value inside : Value} {name : String}
    (found : value.field name = some inside) : value.isObject = true := by
  cases value with
  | object fields => rfl
  | _ => cases found

theorem readObject_of_parse {text : Units} {value : Value} {otherwise : Failure}
    (read : tools.doubles.parse text = some value) (object : value.isObject = true) :
    readObject tools text otherwise = .ok value := by
  rw [readObject, read]
  cases value with
  | object fields => rfl
  | _ => cases object

theorem parse_of_readObject {text : Units} {value : Value} {otherwise : Failure}
    (read : readObject tools text otherwise = .ok value) :
    tools.doubles.parse text = some value ∧ value.isObject = true := by
  rw [readObject] at read
  split at read
  · cases read
  · cases read
  · next parsed _ _ =>
    split at read
    · next object =>
      cases read
      exact ⟨by assumption, object⟩
    · cases read

@[simp] theorem reread_tags (tags : List (List Units)) :
    tools.doubles.reread (tagsValue tags) = tagsValue tags := by
  rw [tagsValue, Doubles.reread_array, List.map_map]
  congr 1
  apply List.map_congr_left
  intro tag _
  rw [Function.comp_apply, Doubles.reread_array, List.map_map]
  rfl

theorem canonicalOf_reread {message : Value} {pubkey content : Units} {created_at kind : Rat}
    {tags : List (List Units)}
    (fields : canonicalOf message = typed pubkey (.finite created_at) (.finite kind) tags content)
    (time : tools.doubles.IsDouble created_at) (kind_ : tools.doubles.IsDouble kind) :
    canonicalOf (tools.doubles.reread message) = canonicalOf message := by
  rw [fields]
  simp only [canonicalOf, typed, Canonical.mk.injEq] at fields
  simp only [canonicalOf, typed, Doubles.field_reread, fields, Option.map_some,
    Doubles.reread_text, reread_tags, Doubles.reread_finite time, Doubles.reread_finite kind_]

theorem canonicalOf_withId {message : Value} (object : message.isObject = true) (id : Value) :
    canonicalOf (message.withField "id" id) = canonicalOf message ∧
      (message.withField "id" id).field "id" = some id := by
  simp only [canonicalOf, JsonValue.field_withField object]
  constructor
  · rw [if_neg (by decide), if_neg (by decide), if_neg (by decide), if_neg (by decide),
      if_neg (by decide)]
  · exact if_pos trivial

theorem getEventHash_of_valid {event : Canonical} (valid : tools.validateEvent event = true) :
    getEventHash tools event = .ok (tools.hash (tools.doubles.stringify (serialized event))) := by
  rw [getEventHash, if_pos valid]

end Typed

/-! ## What was wrapped -/

section RoundTrip

variable {κ : Type} {tools : Tools κ} {SignedBy : Units → Value → Prop}
  {signer recipient : NostrSigner} {message : Value}

theorem sealAndGiftWrap_ok {recipientPubkey : Units} {pq : Option PqSealOptions}
    {sealedAt wrappedAt : Number} {ephSk : κ} {wrap : Event}
    (wrapped : sealAndGiftWrap tools signer recipientPubkey message pq sealedAt wrappedAt ephSk =
      .ok wrap) :
    ∃ nip44Encrypt id sealedContent sealed wrapContent,
      signer.nip44Encrypt = some nip44Encrypt ∧
      getEventHash tools (canonicalOf message) = .ok id ∧
      nip44Encrypt recipientPubkey
        (tools.doubles.stringify (message.withField "id" (.text id))) pq = .ok sealedContent ∧
      signer.signEvent (sealTemplate sealedContent sealedAt) = .ok sealed ∧
      tools.encrypt ephSk recipientPubkey (tools.doubles.stringify sealed) = .ok wrapContent ∧
      wrap.pubkey = tools.getPublicKey ephSk ∧ wrap.kind = KIND_GIFT_WRAP ∧
      wrap.content = wrapContent := by
  rw [sealAndGiftWrap] at wrapped
  cases able : signer.nip44Encrypt with
  | none =>
    rw [able] at wrapped
    cases wrapped
  | some nip44Encrypt =>
    rw [able] at wrapped
    obtain ⟨id, hashed, wrapped⟩ := bind_ok wrapped
    obtain ⟨sealedContent, encrypted, wrapped⟩ := bind_ok wrapped
    obtain ⟨sealed, signed, wrapped⟩ := bind_ok wrapped
    obtain ⟨wrapContent, hidden, wrapped⟩ := bind_ok wrapped
    cases wrapped
    exact ⟨nip44Encrypt, id, sealedContent, sealed, wrapContent, rfl, hashed, encrypted, signed,
      hidden, rfl, rfl, rfl⟩

theorem unique_sealTemplate (sealedContent : Units) (created_at : Number) :
    JsonValue.Unique (sealTemplate sealedContent created_at) := by
  refine ⟨?_, trivial, trivial, trivial, trivial, trivial⟩
  simp only [List.map_cons, List.map_nil]
  decide

theorem reread_sealTemplate {sealedAt : Rat} (documented : Documented tools SignedBy)
    (time : tools.doubles.IsDouble sealedAt) (sealedContent : Units) :
    tools.doubles.reread (sealTemplate sealedContent (.finite sealedAt)) =
      sealTemplate sealedContent (.finite sealedAt) := by
  have thirteen : tools.doubles.reread (.number KIND_SEALED) = .number KIND_SEALED :=
    Doubles.reread_finite (documented.small 13 (by norm_num))
  have at_ := Doubles.reread_finite time
  simp only [Doubles.reread, JsonValue.written, JsonValue.map, KIND_SEALED, sealTemplate,
    JsonValue.writtenFields, JsonValue.mapFields, JsonValue.writtenItems, JsonValue.mapItems] at *
  rw [thirteen, at_]

theorem unwrap_sealAndGiftWrap (documented : Documented tools SignedBy)
    (talks : Talks tools signer recipient) (wellFormed : WellFormed tools signer.getPublicKey message)
    {pq : Option PqSealOptions} {sealedAt : Rat} {wrappedAt : Number} {ephSk : κ} {wrap : Event}
    (time : tools.doubles.IsDouble sealedAt)
    (wrapped : sealAndGiftWrap tools signer recipient.getPublicKey message pq (.finite sealedAt)
      wrappedAt ephSk = .ok wrap) :
    ∃ rumor, unwrapGiftWrap tools recipient wrap = .ok (rumor, signer.getPublicKey) ∧
      canonicalOf rumor = canonicalOf message := by
  obtain ⟨nip44Encrypt, id, sealedContent, sealed, wrapContent, able, hashed, encrypted, signed,
    hidden, pubkey, kind, content⟩ := sealAndGiftWrap_ok wrapped
  obtain ⟨nip44Decrypt, decrypt, opens, unhides⟩ := talks.decrypts
  obtain ⟨created_at, kind_, tags, text, fields, timed, kinded⟩ := wellFormed.fields
  obtain ⟨unique, verified, signer_, sealKind, sealContent⟩ :=
    talks.signs _ sealed (unique_sealTemplate sealedContent _) rfl
      (reread_sealTemplate documented time sealedContent) signed
  have inner := @canonicalOf_withId message wellFormed.object (.text id)
  have innerFields := inner.1.trans fields
  have innerUnique := @JsonValue.unique_withField Number message (.text id) wellFormed.unique
    trivial "id"
  have same : canonicalOf (tools.doubles.reread (message.withField "id" (.text id))) =
      canonicalOf message := (canonicalOf_reread innerFields timed kinded).trans inner.1
  have sealedObject := isObject_of_field signer_
  have readSeal : readObject tools (tools.doubles.stringify sealed) (.expected KIND_SEALED) =
      .ok (tools.doubles.reread sealed) :=
    readObject_of_parse (Doubles.parse_stringify unique) sealedObject
  have idField : (tools.doubles.reread (message.withField "id" (.text id))).field "id" =
      some (.text id) := by
    rw [Doubles.field_reread, inner.2]
    rfl
  have readRumor : readObject tools
      (tools.doubles.stringify (message.withField "id" (.text id))) .undecrypted =
      .ok (tools.doubles.reread (message.withField "id" (.text id))) :=
    readObject_of_parse (Doubles.parse_stringify innerUnique) (isObject_of_field idField)
  have opened : openWrap tools nip44Decrypt wrap = .ok (tools.doubles.reread sealed) := by
    have thirteen : ((tools.doubles.reread sealed).field "kind").any
        (JsonValue.isNumber fun kind => kind = KIND_SEALED) = true := by
      rw [sealKind]
      rfl
    rw [openWrap, pubkey, content, unhides ephSk _ wrapContent hidden]
    simp only [bind, Except.bind, readSeal, thirteen, verified]
    rfl
  have checked : checkRumor tools signer.getPublicKey
      (tools.doubles.reread (message.withField "id" (.text id))) =
      .ok (tools.doubles.reread (message.withField "id" (.text id))) := by
    have author : (tools.doubles.reread (message.withField "id" (.text id))).field "pubkey" =
        some (.text signer.getPublicKey) := congrArg Canonical.pubkey (same.trans fields)
    have named : (tools.doubles.reread (message.withField "id" (.text id))).hasText "pubkey"
        signer.getPublicKey = true := by
      simp [JsonValue.hasText, author, JsonValue.isText]
    have filled : signer.getPublicKey ≠ [] := by
      intro none_
      have sixtyFour := wellFormed.key.1
      rw [none_] at sixtyFour
      cases sixtyFour
    rw [checkRumor, if_neg (by simp [filled, named]), same, hashed]
    simp only [bind, Except.bind, idField, JsonValue.isText, decide_true, if_true]
    rfl
  refine ⟨_, ?_, same⟩
  have contentField : (tools.doubles.reread sealed).textField "content" = some sealedContent := by
    rw [JsonValue.textField, sealContent]
    rfl
  have signerField : (tools.doubles.reread sealed).textField "pubkey" = some signer.getPublicKey := by
    rw [JsonValue.textField, signer_]
  rw [unwrapGiftWrap, decrypt]
  simp only [kind, ne_eq, not_true_eq_false, if_false, bind, Except.bind, opened, signerField,
    contentField, opens nip44Encrypt _ pq sealedContent able encrypted, readRumor, checked]
  rfl

end RoundTrip

/-! ## What is accepted -/

section Accepted

variable {κ : Type} {tools : Tools κ} {SignedBy : Units → Value → Prop} {signer : NostrSigner}
  {giftWrap : Event} {rumor : Value} {sender : Units}

def IsSealOf (tools : Tools κ) (signer : NostrSigner) (giftWrap : Event) (sealed : Value) : Prop :=
  ∃ nip44Decrypt wrapPlaintext, signer.nip44Decrypt = some nip44Decrypt ∧
    nip44Decrypt giftWrap.pubkey giftWrap.content = .ok wrapPlaintext ∧
    tools.doubles.parse wrapPlaintext = some sealed

theorem openWrap_ok {nip44Decrypt : Units → Units → Except Failure Units} {sealed : Value}
    (able : signer.nip44Decrypt = some nip44Decrypt)
    (opened : openWrap tools nip44Decrypt giftWrap = .ok sealed) :
    IsSealOf tools signer giftWrap sealed ∧ tools.verifyEvent sealed = true := by
  obtain ⟨wrapPlaintext, decrypted, opened⟩ := bind_ok opened
  obtain ⟨parsed, read, opened⟩ := bind_ok opened
  obtain ⟨_, opened⟩ := check_ok opened
  obtain ⟨verified, opened⟩ := check_ok opened
  cases opened
  refine ⟨⟨nip44Decrypt, wrapPlaintext, able, decrypted, (parse_of_readObject read).1⟩, ?_⟩
  simpa using verified

theorem checkRumor_ok {message : Value} (object : message.isObject = true)
    (checked : checkRumor tools sender message = .ok rumor) :
    canonicalOf rumor = canonicalOf message ∧
      message.hasText "pubkey" sender = true ∧
      tools.validateEvent (canonicalOf message) = true ∧
      rumor.field "id" =
        some (.text (tools.hash (tools.doubles.stringify (serialized (canonicalOf message))))) := by
  obtain ⟨passed, checked⟩ := check_ok checked
  obtain ⟨computedId, hashed, checked⟩ := bind_ok checked
  rw [getEventHash] at hashed
  split at hashed
  · next valid =>
    cases hashed
    have named : message.hasText "pubkey" sender = true := by
      simpa using (not_or.mp passed).2
    cases given : message.field "id" with
    | none =>
      rw [given] at checked
      cases checked
      have inner := @canonicalOf_withId message object
        (.text (tools.hash (tools.doubles.stringify (serialized (canonicalOf message)))))
      exact ⟨inner.1, named, valid, inner.2⟩
    | some id =>
      rw [given] at checked
      dsimp only at checked
      split at checked
      · next same =>
        cases checked
        refine ⟨rfl, named, valid, ?_⟩
        rw [given]
        cases id with
        | text said =>
          simp only [JsonValue.isText, decide_eq_true_eq] at same
          rw [same]
        | _ => cases same
      · cases checked
  · cases hashed

/-- What `unwrapGiftWrap` returns: a message that was read, with its id, under the key of a seal
that verifies. -/
structure Accepted (tools : Tools κ) (signer : NostrSigner) (giftWrap : Event) (rumor : Value)
    (sender : Units) : Prop where
  sealed : ∃ sealed, IsSealOf tools signer giftWrap sealed ∧ tools.verifyEvent sealed = true ∧
    sealed.field "pubkey" = some (.text sender)
  author : rumor.field "pubkey" = some (.text sender)
  valid : tools.validateEvent (canonicalOf rumor) = true
  id : rumor.field "id" =
    some (.text (tools.hash (tools.doubles.stringify (serialized (canonicalOf rumor)))))
  read : ∃ text message, tools.doubles.parse text = some message ∧
    canonicalOf rumor = canonicalOf message

theorem unwrapGiftWrap_ok (unwrapped : unwrapGiftWrap tools signer giftWrap = .ok (rumor, sender)) :
    Accepted tools signer giftWrap rumor sender := by
  rw [unwrapGiftWrap] at unwrapped
  cases able : signer.nip44Decrypt with
  | none =>
    rw [able] at unwrapped
    cases unwrapped
  | some nip44Decrypt =>
    rw [able] at unwrapped
    dsimp only at unwrapped
    split at unwrapped
    · cases unwrapped
    · obtain ⟨sealed, opened, unwrapped⟩ := bind_ok unwrapped
      obtain ⟨held, verified⟩ := openWrap_ok able opened
      split at unwrapped
      · next key content author_ _ =>
        obtain ⟨sealPlaintext, _, unwrapped⟩ := bind_ok unwrapped
        obtain ⟨message, read, unwrapped⟩ := bind_ok unwrapped
        obtain ⟨checked, passed, unwrapped⟩ := bind_ok unwrapped
        cases unwrapped
        obtain ⟨parsed, object⟩ := parse_of_readObject read
        obtain ⟨same, named, valid, id⟩ := checkRumor_ok object passed
        have key_ : sealed.field "pubkey" = some (.text sender) := by
          rw [JsonValue.textField] at author_
          split at author_
          · next said found =>
            cases author_
            exact found
          · cases author_
        have author : message.field "pubkey" = some (.text sender) := by
          rw [JsonValue.hasText, Option.any_eq_true] at named
          obtain ⟨value, found, text⟩ := named
          rw [found]
          cases value with
          | text said =>
            simp only [JsonValue.isText, decide_eq_true_eq] at text
            rw [text]
          | _ => cases text
        have kept : rumor.field "pubkey" = message.field "pubkey" :=
          congrArg Canonical.pubkey same
        exact ⟨⟨sealed, held, verified, key_⟩, kept.trans author, same.symm ▸ valid,
          same.symm ▸ id, ⟨sealPlaintext, message, parsed, same⟩⟩
      · cases unwrapped

end Accepted

/-! ## Rumors of one id -/

/-- One number is infinite and the other is its opposite: both are written as `null`. -/
def Opposite (left right : Option Value) : Prop :=
  (left = some (.number .infinity) ∧ right = some (.number .negInfinity)) ∨
    (left = some (.number .negInfinity) ∧ right = some (.number .infinity))

section SameId

variable {κ : Type} {tools : Tools κ} {SignedBy : Units → Value → Prop}

/-- Two numbers that are written alike are the same, unless they are opposite infinities. -/
theorem number_of_written {left right : Number} (doubles : Doubles)
    (first : ∃ numeral, doubles.read numeral = left)
    (second : ∃ numeral, doubles.read numeral = right)
    (same : JsonValue.written doubles.write (.number left) =
      JsonValue.written doubles.write (.number right)) :
    left = right ↔ ¬ Opposite (some (.number left)) (some (.number right)) := by
  obtain ⟨numeral, read⟩ := first
  obtain ⟨other, read'⟩ := second
  have real := doubles.real numeral
  have real' := doubles.real other
  cases left with
  | nan => exact absurd read real
  | finite value =>
    cases right with
    | nan => exact absurd read' real'
    | finite value' =>
      simp only [JsonValue.written, JsonValue.number.injEq] at same
      have back := doubles.back numeral value read
      rw [same, doubles.back other value' read'] at back
      simp [Opposite, back]
    | infinity => simp [JsonValue.written] at same
    | negInfinity => simp [JsonValue.written] at same
  | infinity =>
    cases right with
    | nan => exact absurd read' real'
    | finite value' => simp [JsonValue.written] at same
    | infinity => simp [Opposite]
    | negInfinity => simp [Opposite]
  | negInfinity =>
    cases right with
    | nan => exact absurd read' real'
    | finite value' => simp [JsonValue.written] at same
    | infinity => simp [Opposite]
    | negInfinity => simp [Opposite]

variable {write : Rat → Numeral}

theorem written_texts {left right : List Units}
    (same : (left.map JsonValue.text).map (JsonValue.written write) =
      (right.map JsonValue.text).map (JsonValue.written write)) : left = right := by
  rw [List.map_map, List.map_map] at same
  apply List.map_injective_iff.mpr _ same
  intro one other alike
  simpa [JsonValue.written] using alike

theorem written_tags {left right : List (List Units)}
    (same : JsonValue.written write (tagsValue left) = JsonValue.written write (tagsValue right)) :
    left = right := by
  simp only [tagsValue, JsonValue.written, JsonValue.writtenItems_eq, List.map_map,
    JsonValue.array.injEq] at same
  apply List.map_injective_iff.mpr _ same
  intro one other alike
  simp only [Function.comp_apply, JsonValue.written, JsonValue.array.injEq,
    JsonValue.writtenItems_eq] at alike
  exact written_texts alike

theorem written_serialized {pubkey pubkey' content content' : Units}
    {created_at created_at' kind kind' : Number} {tags tags' : List (List Units)}
    (same : JsonValue.written write (serialized (typed pubkey created_at kind tags content)) =
      JsonValue.written write (serialized (typed pubkey' created_at' kind' tags' content'))) :
    pubkey = pubkey' ∧
      JsonValue.written write (.number created_at) = JsonValue.written write (.number created_at') ∧
      JsonValue.written write (.number kind) = JsonValue.written write (.number kind') ∧
      JsonValue.written write (tagsValue tags) = JsonValue.written write (tagsValue tags') ∧
      content = content' := by
  have items := JsonValue.array.inj same
  obtain ⟨_, items⟩ := List.cons.inj items
  obtain ⟨author, items⟩ := List.cons.inj items
  obtain ⟨time, items⟩ := List.cons.inj items
  obtain ⟨kind_, items⟩ := List.cons.inj items
  obtain ⟨tagged, items⟩ := List.cons.inj items
  obtain ⟨said, _⟩ := List.cons.inj items
  exact ⟨JsonValue.text.inj author, time, kind_, tagged, JsonValue.text.inj said⟩

theorem unique_serialized (pubkey : Units) (created_at kind : Number) (tags : List (List Units))
    (content : Units) :
    JsonValue.Unique (serialized (typed pubkey created_at kind tags content)) := by
  have items : JsonValue.Unique (tagsValue tags) := by
    apply JsonValue.uniqueItems_of_mem
    intro item member
    obtain ⟨tag, _, rfl⟩ := List.mem_map.mp member
    apply JsonValue.uniqueItems_of_mem
    intro value among
    obtain ⟨text, _, rfl⟩ := List.mem_map.mp among
    trivial
  exact ⟨trivial, trivial, trivial, trivial, items, trivial, trivial⟩

theorem Accepted.typed {signer : NostrSigner} {giftWrap : Event} {rumor : Value} {sender : Units}
    (documented : Documented tools SignedBy) (accepted : Accepted tools signer giftWrap rumor sender) :
    ∃ created_at kind tags content,
      canonicalOf rumor = GiftWrap.typed sender created_at kind tags content ∧
      (∃ numeral, tools.doubles.read numeral = created_at) ∧
      ∃ numeral, tools.doubles.read numeral = kind := by
  obtain ⟨pubkey, created_at, kind, tags, content, fields, _⟩ :=
    documented.typed_of_valid _ accepted.valid
  have own : (some (.text pubkey) : Option Value) = some (.text sender) := by
    rw [← accepted.author]
    exact (congrArg Canonical.pubkey fields).symm
  cases own
  obtain ⟨text, message, parsed, same⟩ := accepted.read
  rw [same] at fields
  refine ⟨created_at, kind, tags, content, same.trans fields, ?_, ?_⟩
  · exact Doubles.number_of_parse parsed (congrArg Canonical.created_at fields)
  · exact Doubles.number_of_parse parsed (congrArg Canonical.kind fields)

/-- Two accepted rumors of one id are the same event, unless a number of one is infinite and the
other's is its opposite. -/
theorem Accepted.same {signer signer' : NostrSigner} {giftWrap giftWrap' : Event}
    {rumor rumor' : Value} {sender sender' : Units} (documented : Documented tools SignedBy)
    (accepted : Accepted tools signer giftWrap rumor sender)
    (accepted' : Accepted tools signer' giftWrap' rumor' sender')
    (id : rumor.field "id" = rumor'.field "id") :
    (sender = sender' ∧ canonicalOf rumor = canonicalOf rumor') ↔
      ¬ Opposite (rumor.field "created_at") (rumor'.field "created_at") ∧
        ¬ Opposite (rumor.field "kind") (rumor'.field "kind") := by
  obtain ⟨created_at, kind, tags, content, fields, timed, kinded⟩ := accepted.typed documented
  obtain ⟨created_at', kind', tags', content', fields', timed', kinded'⟩ :=
    accepted'.typed documented
  rw [accepted.id, accepted'.id, Option.some.injEq, JsonValue.text.injEq, fields, fields'] at id
  obtain ⟨author, time, kind_, tagged, said⟩ := written_serialized (Doubles.written_of_stringify
    (unique_serialized _ _ _ _ _) (unique_serialized _ _ _ _ _) (documented.apart id))
  have times := number_of_written tools.doubles timed timed' time
  have kinds := number_of_written tools.doubles kinded kinded' kind_
  have tagged := written_tags tagged
  have time_ : rumor.field "created_at" = some (.number created_at) :=
    congrArg Canonical.created_at fields
  have time_' : rumor'.field "created_at" = some (.number created_at') :=
    congrArg Canonical.created_at fields'
  have kind__ : rumor.field "kind" = some (.number kind) := congrArg Canonical.kind fields
  have kind__' : rumor'.field "kind" = some (.number kind') := congrArg Canonical.kind fields'
  rw [time_, time_', kind__, kind__', ← times, ← kinds, fields, fields']
  subst author
  subst tagged
  subst said
  simp [GiftWrap.typed]

end SameId

/-! ## Both ways -/

/-- What is wrapped is unwrapped; a rumor that is returned is written under the key of a seal that
verifies, whether it is asked for by anyone or by its own author; and two rumors of one id are the
same event just when no number of theirs is an infinity that the other has the opposite of. -/
theorem unwrapGiftWrap_iff {κ : Type} {tools : Tools κ} {SignedBy : Units → Value → Prop}
    (documented : Documented tools SignedBy) :
    (∀ signer recipient message pq sealedAt wrappedAt ephSk wrap, Talks tools signer recipient →
      WellFormed tools signer.getPublicKey message → tools.doubles.IsDouble sealedAt →
      sealAndGiftWrap tools signer recipient.getPublicKey message pq (.finite sealedAt) wrappedAt
        ephSk = .ok wrap →
      ∃ rumor, unwrapGiftWrap tools recipient wrap = .ok (rumor, signer.getPublicKey) ∧
        canonicalOf rumor = canonicalOf message) ∧
    (∀ signer giftWrap rumor sender,
      unwrapGiftWrap tools signer giftWrap = .ok (rumor, sender) →
      rumor.field "pubkey" = some (.text sender) ∧
        ∃ sealed, IsSealOf tools signer giftWrap sealed ∧ SignedBy sender sealed) ∧
    (∀ signer giftWrap rumor, unwrapGiftWrapForSelf tools signer giftWrap = some rumor →
      unwrapGiftWrap tools signer giftWrap = .ok (rumor, signer.getPublicKey)) ∧
    ∀ signer signer' giftWrap giftWrap' rumor rumor' sender sender',
      unwrapGiftWrap tools signer giftWrap = .ok (rumor, sender) →
      unwrapGiftWrap tools signer' giftWrap' = .ok (rumor', sender') →
      rumor.field "id" = rumor'.field "id" →
      ((sender = sender' ∧ canonicalOf rumor = canonicalOf rumor') ↔
        ¬ Opposite (rumor.field "created_at") (rumor'.field "created_at") ∧
          ¬ Opposite (rumor.field "kind") (rumor'.field "kind")) := by
  refine ⟨?_, ?_, ?_, ?_⟩
  · intro signer recipient message pq sealedAt wrappedAt ephSk wrap talks wellFormed time wrapped
    exact unwrap_sealAndGiftWrap documented talks wellFormed time wrapped
  · intro signer giftWrap rumor sender unwrapped
    have accepted := unwrapGiftWrap_ok unwrapped
    obtain ⟨sealed, held, verified, key⟩ := accepted.sealed
    obtain ⟨pubkey, own, signed⟩ := documented.signed sealed verified
    rw [key] at own
    cases own
    exact ⟨accepted.author, sealed, held, signed⟩
  · intro signer giftWrap rumor own
    rw [unwrapGiftWrapForSelf] at own
    split at own
    · next message sender unwrapped =>
      split at own
      · next same =>
        cases own
        rw [unwrapped, same]
      · cases own
    · cases own
  · intro signer signer' giftWrap giftWrap' rumor rumor' sender sender' unwrapped unwrapped' id
    exact (unwrapGiftWrap_ok unwrapped).same documented (unwrapGiftWrap_ok unwrapped') id

/-! ## Events as they are -/

def isTextItem : Value → Bool
  | .text _ => true
  | _ => false

def isTag : Value → Bool
  | .array items => items.all isTextItem
  | _ => false

def isPubkey (key : Units) : Bool :=
  key.length = 64 && key.all fun unit => (48 ≤ unit && unit ≤ 57) || (97 ≤ unit && unit ≤ 102)

def validates (event : Canonical) : Bool :=
  match event.pubkey, event.created_at, event.kind, event.tags, event.content with
  | some (.text pubkey), some (.number _), some (.number _), some (.array tags), some (.text _) =>
    isPubkey pubkey && tags.all isTag
  | _, _, _, _, _ => false

theorem isPubkey_iff {key : Units} : isPubkey key = true ↔ IsPubkey key := by
  simp [isPubkey, IsPubkey]

theorem texts_of_all {items : List Value} (texts : items.all isTextItem = true) :
    ∃ said : List Units, items = said.map .text := by
  induction items with
  | nil => exact ⟨[], rfl⟩
  | cons item rest induction =>
    rw [List.all_cons, Bool.and_eq_true] at texts
    obtain ⟨said, same⟩ := induction texts.2
    cases item with
    | text first => exact ⟨first :: said, by rw [same, List.map_cons]⟩
    | _ => cases texts.1

theorem tags_of_all {items : List Value} (every : items.all isTag = true) :
    ∃ tags, JsonValue.array items = tagsValue tags := by
  induction items with
  | nil => exact ⟨[], rfl⟩
  | cons item rest induction =>
    rw [List.all_cons, Bool.and_eq_true] at every
    obtain ⟨tags, same⟩ := induction every.2
    cases item with
    | array inner =>
      obtain ⟨said, rfl⟩ := texts_of_all every.1
      refine ⟨said :: tags, ?_⟩
      rw [tagsValue, JsonValue.array.injEq] at same
      rw [tagsValue, List.map_cons, same]
    | _ => cases every.1

theorem typed_of_validates {event : Canonical} (valid : validates event = true) :
    ∃ pubkey created_at kind tags content, event = typed pubkey created_at kind tags content ∧
      IsPubkey pubkey := by
  obtain ⟨pubkey, created_at, kind, tags, content⟩ := event
  rw [validates] at valid
  split at valid
  · next key time kind_ items said keyed timed kinded tagged told =>
    rw [Bool.and_eq_true] at valid
    obtain ⟨named, same⟩ := tags_of_all valid.2
    dsimp only at keyed timed kinded tagged told
    refine ⟨key, time, kind_, named, said, ?_, isPubkey_iff.mp valid.1⟩
    rw [keyed, timed, kinded, tagged, told, same]
    rfl
  · cases valid

theorem validates_typed {pubkey : Units} (created_at kind : Number) (tags : List (List Units))
    (content : Units) (key : IsPubkey pubkey) :
    validates (typed pubkey created_at kind tags content) = true := by
  have each : ∀ tag : List Units, (tag.map JsonValue.text).all isTextItem = true := by
    intro tag
    simp [isTextItem]
  simp [validates, typed, tagsValue, isPubkey_iff.mpr key, isTag, each]

def wholeDoubles : Doubles where
  read numeral :=
    if numeral.text.contains 101 then
      if numeral.text.head? = some 45 then .negInfinity else .infinity
    else .finite (Units.decimal numeral.text)
  write value := ⟨Units.digits value.num.toNat, Units.scanNumber_digits _⟩
  real numeral := by
    split
    · split <;> simp
    · simp
  back numeral value read := by
    split at read
    · split at read <;> cases read
    · cases read
      obtain ⟨same, all, _⟩ := Units.digits_spec (Units.decimal numeral.text)
      have plain : (Units.digits (Units.decimal numeral.text)).contains 101 = false := by
        rw [← Bool.not_eq_true, List.contains_iff_mem]
        intro member
        exact absurd (all 101 member) (by decide)
      have whole : (Units.decimal numeral.text : Rat).num.toNat = Units.decimal numeral.text := by
        simp
      dsimp only
      rw [whole, plain, same]
      rfl

/-- Libraries that hide nothing: their texts, keys and ids are what they stand for. -/
def openTools : Tools Units where
  doubles := wholeDoubles
  validateEvent := validates
  hash := id
  verifyEvent sealed := (sealed.textField "pubkey").isSome
  getPublicKey := id
  encrypt _ _ text := .ok text

def openSigner (key : Units) : NostrSigner where
  getPublicKey := key
  signEvent template := .ok (template.withField "pubkey" (.text key))
  nip44Encrypt := some fun _ text _ => .ok text
  nip44Decrypt := some fun _ cipher => .ok cipher

def SignedOpenly (key : Units) (sealed : Value) : Prop := sealed.field "pubkey" = some (.text key)

theorem openTools_documented : Documented openTools SignedOpenly where
  typed_of_valid _ valid := typed_of_validates valid
  valid _ created_at kind tags content key _ _ := validates_typed created_at kind tags content key
  apart := Function.injective_id
  signed sealed verified := by
    obtain ⟨key, found⟩ := Option.isSome_iff_exists.mp verified
    rw [JsonValue.textField] at found
    split at found
    · next said held => exact ⟨said, held, held⟩
    · cases found
  small value _ := by
    refine ⟨⟨Units.digits value, Units.scanNumber_digits _⟩, ?_⟩
    obtain ⟨same, all, _⟩ := Units.digits_spec value
    have plain : (Units.digits value).contains 101 = false := by
      rw [← Bool.not_eq_true, List.contains_iff_mem]
      intro member
      exact absurd (all 101 member) (by decide)
    show (if _ then _ else _) = _
    rw [plain, same]
    rfl

theorem openSigner_talks (key other : Units) : Talks openTools (openSigner key) (openSigner other) where
  decrypts := by
    refine ⟨fun _ cipher => .ok cipher, rfl, ?_, ?_⟩
    · intro nip44Encrypt text pq cipher able encrypted
      cases able
      cases encrypted
      rfl
    · intro ephSk text cipher encrypted
      cases encrypted
      rfl
  signs template sealed unique object same signed := by
    cases signed
    have stays : ∀ name : String, (template.field name).map wholeDoubles.reread =
        template.field name := by
      intro name
      have read := @Doubles.field_reread wholeDoubles template name
      rw [← read]
      exact congrArg (fun value => JsonValue.field value name) same
    have field : ∀ name : String, (wholeDoubles.reread
        (template.withField "pubkey" (.text key))).field name =
        if Units.ofString name = Units.ofString "pubkey" then some (.text key)
        else template.field name := by
      intro name
      rw [Doubles.field_reread, JsonValue.field_withField object]
      split
      · rfl
      · exact stays name
    have own := field "pubkey"
    rw [if_pos rfl] at own
    refine ⟨@JsonValue.unique_withField Number template (.text key) unique trivial "pubkey", ?_,
      own, ?_, ?_⟩
    · have text : (wholeDoubles.reread
          (template.withField "pubkey" (.text key))).textField "pubkey" = some key := by
        rw [JsonValue.textField, own]
      exact congrArg Option.isSome text
    · exact (field "kind").trans (if_neg (by decide))
    · exact (field "content").trans (if_neg (by decide))

def aliceKey : Units := List.replicate 64 97

theorem aliceKey_isPubkey : IsPubkey aliceKey := isPubkey_iff.mp (by decide)

def aliceNote : Value := .object [
  (Units.ofString "pubkey", .text aliceKey),
  (Units.ofString "kind", .number (.finite (14 : Nat))),
  (Units.ofString "created_at", .number (.finite (1 : Nat))),
  (Units.ofString "tags", tagsValue [[Units.ofString "p", aliceKey]]),
  (Units.ofString "content", .text (Units.ofString "hello"))]

theorem aliceNote_wellFormed : WellFormed openTools aliceKey aliceNote where
  unique := by
    refine ⟨?_, trivial, trivial, trivial, ?_, trivial, trivial⟩
    · simp only [List.map_cons, List.map_nil]
      decide
    · exact ⟨⟨trivial, trivial, trivial⟩, trivial⟩
  object := rfl
  key := aliceKey_isPubkey
  fields := ⟨(1 : Nat), (14 : Nat), [[Units.ofString "p", aliceKey]], Units.ofString "hello", rfl,
    openTools_documented.small 1 (by norm_num), openTools_documented.small 14 (by norm_num)⟩

theorem unwrapGiftWrap_iff_note :
    ∃ wrap rumor,
      sealAndGiftWrap openTools (openSigner aliceKey) aliceKey aliceNote none (.finite (1 : Nat)) 1
        [] = .ok wrap ∧
      unwrapGiftWrap openTools (openSigner aliceKey) wrap = .ok (rumor, aliceKey) ∧
      canonicalOf rumor = canonicalOf aliceNote := by
  have valid : openTools.validateEvent (canonicalOf aliceNote) = true :=
    validates_typed (.finite (1 : Nat)) (.finite (14 : Nat)) [[Units.ofString "p", aliceKey]]
      (Units.ofString "hello") aliceKey_isPubkey
  have hashed := getEventHash_of_valid valid
  have wrapped : ∃ wrap, sealAndGiftWrap openTools (openSigner aliceKey) aliceKey aliceNote none
      (.finite (1 : Nat)) 1 [] = .ok wrap := by
    simp only [sealAndGiftWrap, openSigner, hashed]
    exact ⟨_, rfl⟩
  obtain ⟨wrap, wrapped⟩ := wrapped
  obtain ⟨rumor, unwrapped, same⟩ := (unwrapGiftWrap_iff openTools_documented).1
    (openSigner aliceKey) (openSigner aliceKey) aliceNote none (1 : Nat) 1 [] wrap
    (openSigner_talks aliceKey aliceKey) aliceNote_wellFormed
    (openTools_documented.small 1 (by norm_num)) wrapped
  exact ⟨wrap, rumor, wrapped, unwrapped, same⟩

/-! ## Opposite times -/

def timedRumor (time : Numeral) : Json := .object [
  (Units.ofString "pubkey", .text aliceKey),
  (Units.ofString "created_at", .number time),
  (Units.ofString "kind", .number ⟨Units.ofString "14", by decide⟩),
  (Units.ofString "tags", .array []),
  (Units.ofString "content", .text [])]

def timedSeal (time : Numeral) : Json := .object [
  (Units.ofString "pubkey", .text aliceKey),
  (Units.ofString "kind", .number ⟨Units.ofString "13", by decide⟩),
  (Units.ofString "content", .text (JsonValue.stringify Numeral.format (timedRumor time)))]

def timedWrap (time : Numeral) : Event where
  pubkey := []
  kind := KIND_GIFT_WRAP
  created_at := 0
  tags := []
  content := JsonValue.stringify Numeral.format (timedSeal time)

def unwrappedRumor (time : Numeral) : Value :=
  (JsonValue.map wholeDoubles.read (timedRumor time)).withField "id"
    (.text (wholeDoubles.stringify (serialized (typed aliceKey (wholeDoubles.read time)
      (.finite (14 : Nat)) [] []))))

theorem unwrap_timedWrap (time : Numeral) :
    unwrapGiftWrap openTools (openSigner aliceKey) (timedWrap time) =
      .ok (unwrappedRumor time, aliceKey) := by
  have uniqueRumor : JsonValue.Unique (timedRumor time) := by
    refine ⟨?_, trivial, trivial, trivial, trivial, trivial, trivial⟩
    simp only [List.map_cons, List.map_nil]
    decide
  have uniqueSeal : JsonValue.Unique (timedSeal time) := by
    refine ⟨?_, trivial, trivial, trivial, trivial⟩
    simp only [List.map_cons, List.map_nil]
    decide
  have readSeal : readObject openTools (timedWrap time).content (.expected KIND_SEALED) =
      .ok (JsonValue.map wholeDoubles.read (timedSeal time)) := by
    apply readObject_of_parse
    · show wholeDoubles.parse _ = _
      rw [Doubles.parse, Json.parse, timedWrap,
        JsonValue.parse_stringify Numeral.format ⟨_, uniqueSeal⟩]
      rfl
    · rfl
  have readRumor : readObject openTools (JsonValue.stringify Numeral.format (timedRumor time))
      .undecrypted = .ok (JsonValue.map wholeDoubles.read (timedRumor time)) := by
    apply readObject_of_parse
    · show wholeDoubles.parse _ = _
      rw [Doubles.parse, Json.parse, JsonValue.parse_stringify Numeral.format ⟨_, uniqueRumor⟩]
      rfl
    · rfl
  have fields : canonicalOf (JsonValue.map wholeDoubles.read (timedRumor time)) =
      typed aliceKey (wholeDoubles.read time) (.finite (14 : Nat)) [] [] := by
    have fourteen : wholeDoubles.read ⟨Units.ofString "14", by decide⟩ = .finite (14 : Nat) := by
      decide
    simp only [canonicalOf, JsonValue.field_map, typed, ← fourteen]
    rfl
  have valid : openTools.validateEvent
      (typed aliceKey (wholeDoubles.read time) (.finite (14 : Nat)) [] []) = true :=
    validates_typed (wholeDoubles.read time) (.finite (14 : Nat)) [] [] aliceKey_isPubkey
  have hashed := getEventHash_of_valid valid
  have opened : openWrap openTools (fun _ cipher => .ok cipher) (timedWrap time) =
      .ok (JsonValue.map wholeDoubles.read (timedSeal time)) := by
    have thirteen : ((JsonValue.map wholeDoubles.read (timedSeal time)).field "kind").any
        (JsonValue.isNumber fun kind => kind = KIND_SEALED) = true := by
      have read : wholeDoubles.read ⟨Units.ofString "13", by decide⟩ = KIND_SEALED := by
        decide
      have kind : (JsonValue.map wholeDoubles.read (timedSeal time)).field "kind" =
          some (.number KIND_SEALED) := by
        rw [← read]
        rfl
      rw [kind]
      decide
    have verified : openTools.verifyEvent (JsonValue.map wholeDoubles.read (timedSeal time)) = true :=
      rfl
    simp only [openWrap, bind, Except.bind, readSeal, thirteen, verified]
    rfl
  have checked : checkRumor openTools aliceKey (JsonValue.map wholeDoubles.read (timedRumor time)) =
      .ok (unwrappedRumor time) := by
    have named : (JsonValue.map wholeDoubles.read (timedRumor time)).hasText "pubkey" aliceKey =
        true := by
      have author : (JsonValue.map wholeDoubles.read (timedRumor time)).field "pubkey" =
          some (.text aliceKey) := congrArg Canonical.pubkey fields
      simp [JsonValue.hasText, author, JsonValue.isText]
    have filled : aliceKey ≠ [] := by decide
    have unnamed : (JsonValue.map wholeDoubles.read (timedRumor time)).field "id" = none := rfl
    rw [checkRumor, if_neg (by simp [filled, named]), fields, hashed]
    simp only [bind, Except.bind, unnamed]
    rfl
  have key : (JsonValue.map wholeDoubles.read (timedSeal time)).textField "pubkey" =
      some aliceKey := rfl
  have content : (JsonValue.map wholeDoubles.read (timedSeal time)).textField "content" =
      some (JsonValue.stringify Numeral.format (timedRumor time)) := rfl
  have kind : (timedWrap time).kind = KIND_GIFT_WRAP := rfl
  simp only [unwrapGiftWrap, openSigner, kind, ne_eq, not_true_eq_false, if_false, bind, Except.bind,
    opened, key, content, readRumor, checked]
  rfl

def huge : Numeral := ⟨Units.ofString "1e400", by decide⟩

def hugeNegative : Numeral := ⟨Units.ofString "-1e400", by decide⟩

/-- Two rumors of opposite times are accepted under one id. -/
theorem opposite_times :
    Documented openTools SignedOpenly ∧
      unwrapGiftWrap openTools (openSigner aliceKey) (timedWrap huge) =
        .ok (unwrappedRumor huge, aliceKey) ∧
      unwrapGiftWrap openTools (openSigner aliceKey) (timedWrap hugeNegative) =
        .ok (unwrappedRumor hugeNegative, aliceKey) ∧
      (unwrappedRumor huge).field "id" = (unwrappedRumor hugeNegative).field "id" ∧
      (unwrappedRumor huge).field "created_at" = some (.number .infinity) ∧
      (unwrappedRumor hugeNegative).field "created_at" = some (.number .negInfinity) := by
  have first : wholeDoubles.read huge = .infinity := by decide
  have second : wholeDoubles.read hugeNegative = .negInfinity := by decide
  have object : ∀ time, (JsonValue.map wholeDoubles.read (timedRumor time)).isObject = true :=
    fun _ => rfl
  have times : ∀ time, (unwrappedRumor time).field "created_at" =
      some (.number (wholeDoubles.read time)) := by
    intro time
    rw [unwrappedRumor, JsonValue.field_withField (object time), if_neg (by decide)]
    rfl
  have ids : ∀ time, (unwrappedRumor time).field "id" =
      some (.text (wholeDoubles.stringify (serialized (typed aliceKey (wholeDoubles.read time)
        (.finite (14 : Nat)) [] [])))) := by
    intro time
    rw [unwrappedRumor, JsonValue.field_withField (object time), if_pos rfl]
  refine ⟨openTools_documented, unwrap_timedWrap huge, unwrap_timedWrap hugeNegative, ?_, ?_, ?_⟩
  · rw [ids, ids, first, second]
    rfl
  · rw [times, first]
  · rw [times, second]

end NostrWot.Dm.GiftWrap
