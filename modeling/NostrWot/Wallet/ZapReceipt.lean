import NostrWot.Data.Numeral
import NostrWot.Data.Trim
import NostrWot.Feed.Zaps

namespace NostrWot.Wallet.ZapReceipt

open NostrWot.Data

open NostrWot.Feed (Count OVERFLOW BOLT11)

/-! # Zap receipts

The sender and the amount of a zap receipt, read from the request that it carries.
-/

structure RawNostrEvent where
  kind : Number
  pubkey : Units
  tags : List (List Units)
  id : Units
  deriving DecidableEq

structure ValidatedZapReceipt where
  senderPubkey : Units
  amountMsat : Number
  bolt11 : Units
  messageId : Option Json
  comment : Option Json
  receiptId : Units
  providerPubkey : Units

def P_TAG : Units := Units.ofString "p"

def E_TAG : Units := Units.ofString "e"

def DESCRIPTION : Units := Units.ofString "description"

def AMOUNT : Units := Units.ofString "amount"

def RawNostrEvent.getTag (event : RawNostrEvent) (name : Units) : Option (List Units) :=
  event.tags.find? fun tag => tag[0]? = some name

/-- `value[index]` of anything but `null`. -/
def entry (index : Nat) : Json → Option Json
  | .text said => said[index]?.map fun unit => .text [unit]
  | .array items => items[index]?
  | .object fields => (fields.find? fun field => field.1 = Units.digits index).map Prod.snd
  | _ => none

def named (name : Units) (value : Json) : Bool := (entry 0 value).any (Json.isString name)

def findTag (name : Units) : List Json → Except Fault (Option Json)
  | [] => .ok none
  | item :: rest =>
    if item.isNull then .error .typeError
    else if named name item then .ok (some item)
    else findTag name rest

def getTag (request : Json) (name : Units) : Except Fault (Option Json) :=
  match request.field "tags" with
  | some (.array items) => findTag name items
  | _ => .error .typeError

def parseInt (text : Units) : Number :=
  let text := Units.trimStart text
  let negative := text.head? = some 45
  let unsigned := if negative ∨ text.head? = some 43 then text.tail else text
  let digits := unsigned.takeWhile JsonSyntax.isDigit
  if digits = [] then .nan
  else
    match Count.ofNat (Units.decimal digits) with
    | .infinity => if negative then .negInfinity else .infinity
    | .finite value => .finite (if negative then - value else value)

def partsOf (event : RawNostrEvent) (expectedRecipient : Units) : Option (Units × Units) :=
  if event.kind ≠ 9735 then none
  else
    match event.getTag P_TAG, event.getTag BOLT11, event.getTag DESCRIPTION with
    | some pTag, some bolt11Tag, some descTag =>
      if pTag[1]? ≠ some expectedRecipient then none
      else
        match bolt11Tag[1]?, descTag[1]? with
        | some bolt11, some description => if bolt11 = [] then none else some (bolt11, description)
        | _, _ => none
    | _, _, _ => none

def requestOf (numbers : Numbers) (description : Units) : Option (Json × Units) :=
  (Json.parse description).bind fun request =>
    if (request.field "kind").any (Json.isNumber numbers 9734) then
      (request.textField "pubkey").map fun pubkey => (request, pubkey)
    else none

def orEmpty : Option Json → Json
  | none | some .null => .text []
  | some value => value

def positive (amount : Number) : Bool := amount.isFinite && !amount.le 0

/-- `messageIdTag?.[1]`, of the event or else of the request. -/
def messageIdOf (event : RawNostrEvent) (request : Json) : Except Fault (Option Json) :=
  match event.getTag E_TAG with
  | some tag => .ok (tag[1]?.map .text)
  | none => (getTag request E_TAG).map fun tag => tag.bind (entry 1)

def accept (numbers : Numbers) (event : RawNostrEvent) (expectedRecipient : Units)
    (trustedProviderPubkeys : Option (List Units)) (bolt11 : Units) (request : Json)
    (pubkey : Units) : Except Fault (Option ValidatedZapReceipt) := do
  let zrPTag ← getTag request P_TAG
  if !(zrPTag.bind (entry 1)).any (Json.isString expectedRecipient) then return none
  let amountTag ← getTag request AMOUNT
  if amountTag.isNone then return none
  let text ← Json.toText numbers (orEmpty (amountTag.bind (entry 1)))
  if !positive (parseInt text) then return none
  if trustedProviderPubkeys.any fun keys => !keys.contains event.pubkey then return none
  let messageId ← messageIdOf event request
  return some {
    senderPubkey := pubkey
    amountMsat := parseInt text
    bolt11 := bolt11
    messageId := messageId
    comment := (request.field "content").filter (Json.truthy numbers)
    receiptId := event.id
    providerPubkey := event.pubkey }

def validateZapReceipt (numbers : Numbers) (event : RawNostrEvent) (expectedRecipient : Units)
    (trustedProviderPubkeys : Option (List Units)) :
    Except Fault (Option ValidatedZapReceipt) :=
  match partsOf event expectedRecipient with
  | none => .ok none
  | some (bolt11, description) =>
    match requestOf numbers description with
    | none => .ok none
    | some (request, pubkey) =>
      accept numbers event expectedRecipient trustedProviderPubkeys bolt11 request pubkey

/-! ## What a receipt says -/

def IsTag (name value : Units) (item : Json) : Prop :=
  ∃ parts, item = .array parts ∧ ∃ first second, parts[0]? = some first ∧ parts[1]? = some second ∧
    Json.isString name first = true ∧ Json.isString value second = true

/-- A positive decimal integer and nothing else. -/
def InFull (text : Units) : Prop :=
  text ≠ [] ∧ (∀ unit ∈ text, JsonSyntax.isDigit unit = true) ∧ 0 < Units.decimal text

def IsText (value : Json) : Prop := ∃ said, value = .text said

def tagOf (name : Units) (items : List Json) : Option Json := items.find? (named name)

/-- The event and its request name the recipient, the amount is the one that was asked for, and
every field has its type. -/
structure Faithful (event : RawNostrEvent) (expectedRecipient : Units) (request : Json)
    (receipt : ValidatedZapReceipt) : Prop where
  recipient : ∃ tag ∈ event.tags, tag[0]? = some P_TAG ∧ tag[1]? = some expectedRecipient
  requested : ∃ items, request.field "tags" = some (.array items) ∧
    (∃ item ∈ items, IsTag P_TAG expectedRecipient item) ∧
    ∃ item digits, tagOf AMOUNT items = some item ∧ IsTag AMOUNT digits item ∧ InFull digits ∧
      receipt.amountMsat = .finite (Units.decimal digits)
  messageId : ∀ value, receipt.messageId = some value → IsText value
  comment : ∀ value, receipt.comment = some value → IsText value

/-- `null` or a receipt, never a throw; and a receipt only of a request that the description
holds and that it is faithful to. -/
def Sound (numbers : Numbers) (event : RawNostrEvent) (expectedRecipient : Units)
    (trustedProviderPubkeys : Option (List Units)) : Prop :=
  ∃ answer, validateZapReceipt numbers event expectedRecipient trustedProviderPubkeys = .ok answer ∧
    ∀ receipt, answer = some receipt → ∃ tag description request,
      event.getTag DESCRIPTION = some tag ∧ tag[1]? = some description ∧
      Json.parse description = some request ∧ Faithful event expectedRecipient request receipt

/-! ## When it does -/

/-- No `null` stands before what is found under a name. -/
def NullFree (name : Units) (items : List Json) : Prop :=
  (items.takeWhile fun item => !named name item).all (fun item => !item.isNull) = true

instance (name : Units) (items : List Json) : Decidable (NullFree name items) :=
  inferInstanceAs (Decidable (_ = true))

/-- The value behind a tag's name is this text. -/
def Gives (item : Option Json) (value : Units) : Prop :=
  (item.bind (entry 1)).any (Json.isString value) = true

structure WellTyped (numbers : Numbers) (event : RawNostrEvent) (expectedRecipient : Units)
    (request : Json) (items : List Json) : Prop where
  recipient : ∃ item ∈ items, IsTag P_TAG expectedRecipient item
  amount : ∃ item digits, tagOf AMOUNT items = some item ∧ IsTag AMOUNT digits item ∧
    InFull digits ∧ nearestDouble (Units.decimal digits) = Units.decimal digits
  messageId : event.getTag E_TAG = none →
    NullFree E_TAG items ∧ ∀ value, (tagOf E_TAG items).bind (entry 1) = some value → IsText value
  comment : ∀ value, request.field "content" = some value → Json.truthy numbers value = true → IsText value

/-- A request whose tags can be searched and whose members have their types as far as they are
looked at: up to the first check that fails. -/
def Sober (numbers : Numbers) (event : RawNostrEvent) (expectedRecipient : Units)
    (trustedProviderPubkeys : Option (List Units)) (request : Json) : Prop :=
  ∃ items, request.field "tags" = some (.array items) ∧ NullFree P_TAG items ∧
    (Gives (tagOf P_TAG items) expectedRecipient →
      NullFree AMOUNT items ∧ ∀ item, tagOf AMOUNT items = some item →
        ∃ text, Json.toText numbers (orEmpty (entry 1 item)) = .ok text ∧
          (positive (parseInt text) = true →
            (∀ keys, trustedProviderPubkeys = some keys → event.pubkey ∈ keys) →
              WellTyped numbers event expectedRecipient request items))

/-! ## Tags -/

section Tags

variable {name : Units} {items : List Json}

theorem findTag_of_nullFree (free : NullFree name items) :
    findTag name items = .ok (tagOf name items) := by
  induction items with
  | nil => rfl
  | cons item rest induction =>
    rw [findTag, tagOf, List.find?_cons]
    cases hit : named name item with
    | true =>
      have filled : item.isNull = false := by
        cases item <;> first | rfl | simp [named, entry] at hit
      simp [filled]
    | false =>
      rw [NullFree, List.takeWhile_cons, hit] at free
      simp only [Bool.not_false, if_true, List.all_cons, Bool.and_eq_true,
        Bool.not_eq_true'] at free
      simp only [free.1, Bool.false_eq_true, if_false]
      exact induction free.2

theorem findTag_of_null (null_ : ¬ NullFree name items) :
    findTag name items = .error .typeError := by
  induction items with
  | nil => exact absurd rfl null_
  | cons item rest induction =>
    rw [findTag]
    rw [NullFree, List.takeWhile_cons] at null_
    cases empty : item.isNull with
    | true => rfl
    | false =>
      cases hit : named name item with
      | true => simp [hit] at null_
      | false =>
        simp only [hit, Bool.not_false, if_true, List.all_cons, empty, Bool.true_and] at null_
        simp only [Bool.false_eq_true, if_false]
        exact induction null_

theorem getTag_eq {request : Json} (tags : request.field "tags" = some (.array items))
    (name : Units) : getTag request name =
      if NullFree name items then .ok (tagOf name items) else .error .typeError := by
  have read : getTag request name = findTag name items := by simp only [getTag, tags]
  rw [read]
  by_cases free : NullFree name items
  · rw [if_pos free, findTag_of_nullFree free]
  · rw [if_neg free, findTag_of_null free]

theorem getTag_untagged {request : Json} (untagged : ∀ items, request.field "tags" ≠ some (.array items))
    (name : Units) : getTag request name = .error .typeError := by
  rw [getTag]
  split
  · next items tags => exact absurd tags (untagged items)
  · rfl

end Tags

/-! ## Amounts -/

theorem isText_of_isString {text : Units} {value : Json} (same : Json.isString text value = true) :
    value = .text text := by
  cases value <;> simp [Json.isString, JsonValue.isText] at same
  rw [same]

theorem digit_plain {unit : UInt16} (digit : JsonSyntax.isDigit unit = true) :
    Units.isSpace unit = false ∧ unit ≠ 45 ∧ unit ≠ 43 := by
  simp only [JsonSyntax.isDigit, Bool.and_eq_true, decide_eq_true_eq,
    UInt16.le_iff_toNat_le] at digit
  have low : 48 ≤ unit.toNat := digit.1
  have high : unit.toNat ≤ 57 := digit.2
  simp only [Units.isSpace, Bool.or_eq_false_iff, Bool.and_eq_false_iff, decide_eq_false_iff_not,
    UInt16.le_iff_toNat_le, ← UInt16.toNat_inj, ne_eq]
  simp only [UInt16.reduceToNat]
  omega

theorem parseInt_inFull {digits : Units} (full : InFull digits) :
    parseInt digits = if OVERFLOW ≤ nearestDouble (Units.decimal digits) then .infinity
      else .finite (nearestDouble (Units.decimal digits)) := by
  obtain ⟨filled, all, _⟩ := full
  have every : digits.takeWhile JsonSyntax.isDigit = digits := List.takeWhile_eq_self_iff.mpr all
  cases digits with
  | nil => exact absurd rfl filled
  | cons first rest =>
    obtain ⟨space, minus, plus⟩ := digit_plain (all first List.mem_cons_self)
    have trimmed : Units.trimStart (first :: rest) = first :: rest := by
      rw [Units.trimStart, List.dropWhile_cons, space]
      rfl
    by_cases beyond : OVERFLOW ≤ nearestDouble (Units.decimal (first :: rest))
    · simp only [parseInt, trimmed, List.head?_cons, Option.some.injEq, minus, plus, or_self,
        if_false, every, filled, Count.ofNat, if_pos beyond]
    · simp only [parseInt, trimmed, List.head?_cons, Option.some.injEq, minus, plus, or_self,
        if_false, every, filled, Count.ofNat, if_neg beyond]

theorem parseInt_exact {digits : Units} (full : InFull digits)
    (passes : positive (parseInt digits) = true) :
    parseInt digits = .finite (Units.decimal digits) ↔
      nearestDouble (Units.decimal digits) = Units.decimal digits := by
  rw [parseInt_inFull full] at passes ⊢
  by_cases beyond : OVERFLOW ≤ nearestDouble (Units.decimal digits)
  · rw [if_pos beyond] at passes
    cases passes
  · rw [if_neg beyond, Number.finite.injEq, Nat.cast_inj]

/-! ## The checks of a request -/

section Checks

variable {numbers : Numbers} {event : RawNostrEvent} {expectedRecipient bolt11 pubkey : Units}
  {trusted : Option (List Units)} {request : Json}

/-- What `accept` may answer. -/
def Accepts (numbers : Numbers) (event : RawNostrEvent) (expectedRecipient : Units)
    (trusted : Option (List Units)) (bolt11 : Units) (request : Json) (pubkey : Units) : Prop :=
  ∃ answer, accept numbers event expectedRecipient trusted bolt11 request pubkey = .ok answer ∧
    ∀ receipt, answer = some receipt → Faithful event expectedRecipient request receipt

theorem accept_untagged (untagged : ∀ items, request.field "tags" ≠ some (.array items)) :
    accept numbers event expectedRecipient trusted bolt11 request pubkey = .error .typeError := by
  simp only [accept, getTag_untagged untagged]
  rfl

variable {items : List Json}

theorem accept_null (tags : request.field "tags" = some (.array items))
    (null_ : ¬ NullFree P_TAG items) :
    accept numbers event expectedRecipient trusted bolt11 request pubkey = .error .typeError := by
  simp only [accept, getTag_eq tags, if_neg null_]
  rfl

theorem accept_other (tags : request.field "tags" = some (.array items))
    (free : NullFree P_TAG items) (other : ¬ Gives (tagOf P_TAG items) expectedRecipient) :
    accept numbers event expectedRecipient trusted bolt11 request pubkey = .ok none := by
  rw [Gives, Bool.not_eq_true] at other
  simp only [accept, getTag_eq tags, if_pos free, bind, Except.bind, other, Bool.not_false, if_true]
  rfl

theorem accept_given {items : List Json} (tags : request.field "tags" = some (.array items))
    (free : NullFree P_TAG items) (gives : Gives (tagOf P_TAG items) expectedRecipient) :
    (¬ NullFree AMOUNT items →
      accept numbers event expectedRecipient trusted bolt11 request pubkey = .error .typeError) ∧
    (NullFree AMOUNT items → tagOf AMOUNT items = none →
      accept numbers event expectedRecipient trusted bolt11 request pubkey = .ok none) ∧
    ∀ item, NullFree AMOUNT items → tagOf AMOUNT items = some item →
      accept numbers event expectedRecipient trusted bolt11 request pubkey =
        Json.toText numbers (orEmpty (entry 1 item)) >>= fun text =>
          if !positive (parseInt text) then .ok none
          else if trusted.any fun keys => !keys.contains event.pubkey then .ok none
          else (messageIdOf event request).map fun messageId => some {
            senderPubkey := pubkey
            amountMsat := parseInt text
            bolt11 := bolt11
            messageId := messageId
            comment := (request.field "content").filter (Json.truthy numbers)
            receiptId := event.id
            providerPubkey := event.pubkey } := by
  rw [Gives] at gives
  refine ⟨?_, ?_, ?_⟩
  · intro null_
    simp only [accept, getTag_eq tags, if_pos free, bind, Except.bind, gives, if_neg null_]
    rfl
  · intro free' none_
    simp only [accept, getTag_eq tags, if_pos free, bind, Except.bind, gives, if_pos free', none_]
    rfl
  · intro item free' found
    simp only [accept, getTag_eq tags, if_pos free, bind, Except.bind, gives, if_pos free', found,
      Bool.not_true, Bool.false_eq_true, if_false, Option.isNone_some, Option.bind_some]
    cases Json.toText numbers (orEmpty (entry 1 item)) with
    | error fault => rfl
    | ok text =>
      dsimp only
      split
      · rfl
      · split
        · rfl
        · cases messageIdOf event request <;> rfl

theorem untrusted_iff : (trusted.any fun keys => !keys.contains event.pubkey) = true ↔
    ¬ ∀ keys, trusted = some keys → event.pubkey ∈ keys := by
  cases trusted with
  | none => simp
  | some keys => simp

theorem entry_of_isTag {name value : Units} {item : Json} (tag : IsTag name value item) :
    entry 1 item = some (.text value) := by
  obtain ⟨parts, rfl, first, second, _, at_, _, same⟩ := tag
  rw [entry, at_, isText_of_isString same]

theorem faithful_iff {item : Json} {text : Units} {messageId : Option Json}
    (recipient : ∃ tag ∈ event.tags, tag[0]? = some P_TAG ∧ tag[1]? = some expectedRecipient)
    (tags : request.field "tags" = some (.array items)) (found : tagOf AMOUNT items = some item)
    (said : Json.toText numbers (orEmpty (entry 1 item)) = .ok text)
    (passes : positive (parseInt text) = true) (id : messageIdOf event request = .ok messageId) :
    Faithful event expectedRecipient request {
      senderPubkey := pubkey
      amountMsat := parseInt text
      bolt11 := bolt11
      messageId := messageId
      comment := (request.field "content").filter (Json.truthy numbers)
      receiptId := event.id
      providerPubkey := event.pubkey } ↔
      WellTyped numbers event expectedRecipient request items := by
  have amount : ∀ digits, IsTag AMOUNT digits item → InFull digits →
      (parseInt text = .finite (Units.decimal digits) ↔
        nearestDouble (Units.decimal digits) = Units.decimal digits) := by
    intro digits tag full
    rw [entry_of_isTag tag] at said
    cases said
    exact parseInt_exact full passes
  have comment : ∀ value, (request.field "content").filter (Json.truthy numbers) = some value ↔
      request.field "content" = some value ∧ Json.truthy numbers value = true := by
    intro value
    exact Option.filter_eq_some_iff
  constructor
  · intro faithful
    obtain ⟨others, tagged, named_, asked⟩ := faithful.requested
    rw [tags, Option.some.injEq, JsonValue.array.injEq] at tagged
    subst tagged
    refine ⟨named_, ?_, ?_, ?_⟩
    · obtain ⟨other, digits, first, tag, full, exact_⟩ := asked
      rw [found, Option.some.injEq] at first
      subst first
      exact ⟨item, digits, found, tag, full, (amount digits tag full).mp exact_⟩
    · intro none_
      rw [messageIdOf, none_, getTag_eq tags] at id
      by_cases free : NullFree E_TAG items
      · simp only [if_pos free, Except.map, Except.ok.injEq] at id
        refine ⟨free, ?_⟩
        intro value held
        exact faithful.messageId value (id.symm.trans held)
      · simp only [if_neg free, Except.map] at id
        cases id
    · intro value held truthy
      exact faithful.comment value ((comment value).mpr ⟨held, truthy⟩)
  · intro typed
    refine ⟨recipient, ⟨items, tags, typed.recipient, ?_⟩, ?_, ?_⟩
    · obtain ⟨other, digits, first, tag, full, exact_⟩ := typed.amount
      have same := first
      rw [found, Option.some.injEq] at same
      subst same
      exact ⟨item, digits, found, tag, full, (amount digits tag full).mpr exact_⟩
    · intro value held
      dsimp only at held
      cases own : event.getTag E_TAG with
      | some tag =>
        rw [messageIdOf, own] at id
        simp only [Except.ok.injEq] at id
        rw [← id, Option.map_eq_some_iff] at held
        obtain ⟨said, _, same⟩ := held
        exact ⟨said, same.symm⟩
      | none =>
        obtain ⟨free, texts⟩ := typed.messageId own
        rw [messageIdOf, own, getTag_eq tags] at id
        simp only [if_pos free, Except.map, Except.ok.injEq] at id
        exact texts value (id.trans held)
    · intro value held
      obtain ⟨inside, truthy⟩ := (comment value).mp held
      exact typed.comment value inside truthy

theorem accepts_amount {item : Json}
    (recipient : ∃ tag ∈ event.tags, tag[0]? = some P_TAG ∧ tag[1]? = some expectedRecipient)
    (tags : request.field "tags" = some (.array items)) (found : tagOf AMOUNT items = some item) :
    (∃ answer, (Json.toText numbers (orEmpty (entry 1 item)) >>= fun text =>
        if !positive (parseInt text) then .ok none
        else if trusted.any fun keys => !keys.contains event.pubkey then .ok none
        else (messageIdOf event request).map fun messageId => some {
          senderPubkey := pubkey
          amountMsat := parseInt text
          bolt11 := bolt11
          messageId := messageId
          comment := (request.field "content").filter (Json.truthy numbers)
          receiptId := event.id
          providerPubkey := event.pubkey }) = .ok answer ∧
      ∀ receipt, answer = some receipt → Faithful event expectedRecipient request receipt) ↔
    ∃ text, Json.toText numbers (orEmpty (entry 1 item)) = .ok text ∧
      (positive (parseInt text) = true → (∀ keys, trusted = some keys → event.pubkey ∈ keys) →
        WellTyped numbers event expectedRecipient request items) := by
  cases said : Json.toText numbers (orEmpty (entry 1 item)) with
  | error fault =>
    constructor
    · intro accepts
      obtain ⟨answer, same, _⟩ := accepts
      cases same
    · intro rest
      obtain ⟨text, same, _⟩ := rest
      cases same
  | ok text =>
    simp only [bind, Except.bind, Except.ok.injEq, exists_eq_left']
    by_cases passes : positive (parseInt text) = true
    · by_cases honest : ∀ keys, trusted = some keys → event.pubkey ∈ keys
      · have known : (trusted.any fun keys => !keys.contains event.pubkey) = false := by
          rw [← Bool.not_eq_true, untrusted_iff, not_not]
          exact honest
        simp only [passes, known, Bool.not_true, Bool.false_eq_true, if_false, forall_const]
        rw [imp_iff_right honest]
        cases id : messageIdOf event request with
        | error fault =>
          constructor
          · intro accepts
            obtain ⟨answer, same, _⟩ := accepts
            cases same
          · intro typed
            rw [messageIdOf] at id
            cases own : event.getTag E_TAG with
            | some tag =>
              rw [own] at id
              cases id
            | none =>
              rw [own, getTag_eq tags, if_pos (typed.messageId own).1] at id
              cases id
        | ok messageId =>
          simp only [Except.map, Except.ok.injEq, exists_eq_left', Option.some.injEq,
            forall_eq']
          exact faithful_iff recipient tags found said passes id
      · have unknown := untrusted_iff.mpr honest
        simp only [passes, unknown, Bool.not_true, Bool.false_eq_true, if_false, if_true]
        constructor
        · intro _ _ known
          exact absurd known honest
        · intro _
          refine ⟨none, rfl, ?_⟩
          intro receipt same
          cases same
    · constructor
      · intro _ passed
        exact absurd passed passes
      · intro _
        refine ⟨none, by simp [passes], ?_⟩
        intro receipt same
        cases same

theorem accepts_iff
    (recipient : ∃ tag ∈ event.tags, tag[0]? = some P_TAG ∧ tag[1]? = some expectedRecipient) :
    Accepts numbers event expectedRecipient trusted bolt11 request pubkey ↔
      Sober numbers event expectedRecipient trusted request := by
  by_cases tagged : ∃ items, request.field "tags" = some (.array items)
  · obtain ⟨items, tags⟩ := tagged
    have only : ∀ {others}, request.field "tags" = some (.array others) → items = others := by
      intro others same
      rw [tags] at same
      exact JsonValue.array.inj (Option.some.inj same)
    by_cases free : NullFree P_TAG items
    · by_cases gives : Gives (tagOf P_TAG items) expectedRecipient
      · obtain ⟨thrown, missing, given⟩ := @accept_given numbers event expectedRecipient bolt11 pubkey
          trusted request items tags free gives
        by_cases free' : NullFree AMOUNT items
        · cases found : tagOf AMOUNT items with
          | none =>
            constructor
            · intro _
              refine ⟨items, tags, free, fun _ => ⟨free', ?_⟩⟩
              intro item some_
              rw [found] at some_
              cases some_
            · intro _
              refine ⟨none, missing free' found, ?_⟩
              intro receipt same
              cases same
          | some item =>
            have sober : Sober numbers event expectedRecipient trusted request ↔
                ∃ text, Json.toText numbers (orEmpty (entry 1 item)) = .ok text ∧
                  (positive (parseInt text) = true →
                    (∀ keys, trusted = some keys → event.pubkey ∈ keys) →
                      WellTyped numbers event expectedRecipient request items) := by
              constructor
              · intro sober
                obtain ⟨others, same, _, rest⟩ := sober
                have alike := only same
                subst alike
                exact (rest gives).2 item found
              · intro rest
                refine ⟨items, tags, free, fun _ => ⟨free', ?_⟩⟩
                intro other some_
                rw [found, Option.some.injEq] at some_
                exact some_ ▸ rest
            rw [sober, Accepts, given item free' found]
            exact accepts_amount recipient tags found
        · constructor
          · intro accepts
            obtain ⟨answer, same, _⟩ := accepts
            rw [thrown free'] at same
            cases same
          · intro sober
            obtain ⟨others, same, _, rest⟩ := sober
            have alike := only same
            subst alike
            exact absurd (rest gives).1 free'
      · constructor
        · intro _
          exact ⟨items, tags, free, fun given => absurd given gives⟩
        · intro _
          refine ⟨none, accept_other tags free gives, ?_⟩
          intro receipt same
          cases same
    · constructor
      · intro accepts
        obtain ⟨answer, same, _⟩ := accepts
        rw [accept_null tags free] at same
        cases same
      · intro sober
        obtain ⟨others, same, free', _⟩ := sober
        exact absurd (only same ▸ free') free
  · constructor
    · intro accepts
      obtain ⟨answer, same, _⟩ := accepts
      rw [accept_untagged fun items tags => tagged ⟨items, tags⟩] at same
      cases same
    · intro sober
      obtain ⟨items, tags, _⟩ := sober
      exact absurd ⟨items, tags⟩ tagged

end Checks

/-! ## Every event -/

theorem partsOf_some {event : RawNostrEvent} {expectedRecipient bolt11 description : Units}
    (parts : partsOf event expectedRecipient = some (bolt11, description)) :
    (∃ tag ∈ event.tags, tag[0]? = some P_TAG ∧ tag[1]? = some expectedRecipient) ∧
      ∃ tag, event.getTag DESCRIPTION = some tag ∧ tag[1]? = some description := by
  rw [partsOf] at parts
  split at parts
  · cases parts
  · split at parts
    · next pTag bolt11Tag descTag first _ third =>
      split at parts
      · cases parts
      · next names_ =>
        have name := List.find?_some first
        simp only [decide_eq_true_eq] at name
        refine ⟨⟨pTag, List.mem_of_find?_eq_some first, name, not_not.mp names_⟩, descTag, third, ?_⟩
        split at parts
        · next said value =>
          split at parts
          · cases parts
          · cases parts
            exact value
        · cases parts
    · cases parts

theorem requestOf_some {numbers : Numbers} {description pubkey : Units} {request : Json}
    (requested : requestOf numbers description = some (request, pubkey)) :
    Json.parse description = some request := by
  obtain ⟨parsed, read, checked⟩ := Option.bind_eq_some_iff.mp requested
  split at checked
  · obtain ⟨key, _, same⟩ := Option.map_eq_some_iff.mp checked
    cases same
    exact read
  · cases checked

/-- A receipt is validated without a throw, and only if its request says all that it says, just
when a request that is looked into is sober. -/
theorem validateZapReceipt_iff (numbers : Numbers) (event : RawNostrEvent)
    (expectedRecipient : Units) (trustedProviderPubkeys : Option (List Units)) :
    Sound numbers event expectedRecipient trustedProviderPubkeys ↔
      ∀ bolt11 description request pubkey,
        partsOf event expectedRecipient = some (bolt11, description) →
        requestOf numbers description = some (request, pubkey) →
          Sober numbers event expectedRecipient trustedProviderPubkeys request := by
  rw [Sound, validateZapReceipt]
  cases parts : partsOf event expectedRecipient with
  | none => simp
  | some both =>
    obtain ⟨bolt11, description⟩ := both
    dsimp only
    cases requested : requestOf numbers description with
    | none =>
      constructor
      · intro _ bolt11' description' request pubkey same found
        cases same
        rw [requested] at found
        cases found
      · intro _
        refine ⟨none, rfl, ?_⟩
        intro receipt same
        cases same
    | some both =>
      obtain ⟨request, pubkey⟩ := both
      obtain ⟨recipient, tag, found, value⟩ := partsOf_some parts
      have read := requestOf_some requested
      have iff := @accepts_iff numbers event expectedRecipient bolt11 pubkey
        trustedProviderPubkeys request recipient
      constructor
      · intro sound bolt11' description' request' pubkey' same found'
        cases same
        rw [requested] at found'
        cases found'
        obtain ⟨answer, answered, faithful⟩ := sound
        refine iff.mp ⟨answer, answered, ?_⟩
        intro receipt some_
        obtain ⟨tag', description', request', first, value', read', kept⟩ := faithful receipt some_
        rw [found] at first
        cases first
        rw [value] at value'
        cases value'
        rw [read] at read'
        cases read'
        exact kept
      · intro sober
        obtain ⟨answer, answered, faithful⟩ := iff.mpr (sober bolt11 description request pubkey rfl requested)
        refine ⟨answer, answered, ?_⟩
        intro receipt some_
        exact ⟨tag, description, request, found, value, read, faithful receipt some_⟩

/-! ## A request without tags -/

def wholeNumbers : Numbers where
  read numeral := .finite (Units.decimal numeral.text)
  said
    | .finite value => Units.digits value.num.toNat
    | _ => []

def untaggedRequest : Json := .object [
  (Units.ofString "kind", .number ⟨Units.ofString "9734", by decide⟩),
  (Units.ofString "pubkey", .text (Units.ofString "me"))]

def untaggedReceipt : RawNostrEvent where
  kind := 9735
  pubkey := Units.ofString "lnurl"
  tags := [
    [P_TAG, Units.ofString "me"],
    [BOLT11, Units.ofString "lnbc1"],
    [DESCRIPTION, Units.ofString "\x7b\"kind\":9734,\"pubkey\":\"me\"\x7d"]]
  id := Units.ofString "id"

/-- It is thrown at. -/
theorem untagged_throws :
    validateZapReceipt wholeNumbers untaggedReceipt (Units.ofString "me") none =
      .error .typeError := by
  have unique : JsonValue.Unique untaggedRequest :=
    ⟨by decide, trivial, trivial, trivial⟩
  have written : JsonValue.stringify Numeral.format untaggedRequest =
      Units.ofString "\x7b\"kind\":9734,\"pubkey\":\"me\"\x7d" := by
    decide
  have parsed : Json.parse (Units.ofString "\x7b\"kind\":9734,\"pubkey\":\"me\"\x7d") =
      some untaggedRequest := by
    rw [Json.parse, ← written, JsonValue.parse_stringify Numeral.format ⟨untaggedRequest, unique⟩]
    rfl
  have parts : partsOf untaggedReceipt (Units.ofString "me") = some (Units.ofString "lnbc1",
      Units.ofString "\x7b\"kind\":9734,\"pubkey\":\"me\"\x7d") := by
    decide
  have requested : requestOf wholeNumbers (Units.ofString "\x7b\"kind\":9734,\"pubkey\":\"me\"\x7d") =
      some (untaggedRequest, Units.ofString "me") := by
    have kind : (untaggedRequest.field "kind").any (Json.isNumber wholeNumbers 9734) = true := by
      decide
    have pubkey : untaggedRequest.textField "pubkey" = some (Units.ofString "me") := by
      decide
    rw [requestOf, parsed, Option.bind_some, if_pos kind, pubkey]
    rfl
  have untagged : ∀ items, untaggedRequest.field "tags" ≠ some (.array items) := by
    intro items tags
    cases tags
  simp only [validateZapReceipt, parts, requested]
  exact accept_untagged untagged

end NostrWot.Wallet.ZapReceipt
