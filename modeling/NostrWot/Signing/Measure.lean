import NostrWot.Signing.Untrusted
import Mathlib.Algebra.BigOperators.Group.List.Basic
import Mathlib.Data.Rat.Cast.Order

namespace NostrWot.Signing.Untrusted

open NostrWot.Data

/-! # What a template weighs

The early checks of a template never refuse what its exact measure accepts, and
the exact measure is the length of its JSON text in UTF-8.
-/

/-! ## UTF-8 -/

section Utf8

variable {unit next : UInt16} {rest : Units}

theorem encode_alone (unit : UInt16) :
    (Units.encode [unit]).length = if unit < 0x80 then 1 else if unit < 0x800 then 2 else 3 := by
  rw [← Units.length_encode_single]
  simp [Units.encode, Units.scalars, Utf8.encode]

theorem encode_single (apart : (Units.isHigh unit && Units.isLow next) = false) :
    (Units.encode (unit :: next :: rest)).length =
      (if unit < 0x80 then 1 else if unit < 0x800 then 2 else 3) +
        (Units.encode (next :: rest)).length := by
  rw [← Units.length_encode_single]
  unfold Units.encode
  rw [Units.scalars, apart, if_neg (by decide), Units.length_encode_cons]

theorem encode_pair (paired : (Units.isHigh unit && Units.isLow next) = true) :
    (Units.encode (unit :: next :: rest)).length = 4 + (Units.encode rest).length := by
  obtain ⟨high, low⟩ := (Bool.and_eq_true _ _).mp paired
  unfold Units.encode
  rw [Units.scalars, paired, if_pos rfl, Units.length_encode_cons, Units.length_encode_pair high low]

theorem not_high_of_lt (small : unit < 0x800) : Units.isHigh unit = false := by
  rw [Bool.eq_false_iff]
  intro high
  have above := (Units.isHigh_bounds high).1
  have below : unit.toNat < 0x800 := UInt16.lt_iff_toNat_lt.mp small
  omega

theorem utf8ByteLength_eq (text : Units) : utf8ByteLength text = (Units.encode text).length := by
  fun_induction utf8ByteLength text with
  | case1 => rfl
  | case2 unit one => rw [encode_alone, if_pos one]
  | case3 unit more two => rw [encode_alone, if_neg more, if_pos two]
  | case4 unit more many => rw [encode_alone, if_neg more, if_neg many]
  | case5 unit next rest one ih =>
    have below : unit < 0x800 := by
      have small := UInt16.lt_iff_toNat_lt.mp one
      rw [UInt16.lt_iff_toNat_lt]
      exact Nat.lt_trans small (by decide)
    rw [encode_single (by rw [not_high_of_lt below, Bool.false_and]), if_pos one, ih]
  | case6 unit next rest more two ih =>
    rw [encode_single (by rw [not_high_of_lt two, Bool.false_and]), if_neg more, if_pos two, ih]
  | case7 unit next rest more many high low ih =>
    rw [encode_pair (by rw [Units.isHigh, Units.isLow, high, low]; rfl), ih]
  | case8 unit next rest more many high alone ih =>
    rw [encode_single (by rw [Units.isHigh, Units.isLow, high, Bool.eq_false_iff.mpr alone]; rfl),
      if_neg more, if_neg many, ih]
  | case9 unit next rest more many plain ih =>
    rw [encode_single (by rw [Units.isHigh, Bool.eq_false_iff.mpr plain, Bool.false_and]),
      if_neg more, if_neg many, ih]

theorem length_le_utf8ByteLength (text : Units) : text.length ≤ utf8ByteLength text := by
  fun_induction utf8ByteLength text with
  | case1 => exact le_rfl
  | case2 | case3 | case4 => simp
  | case5 unit next rest _ ih | case6 unit next rest _ _ ih | case8 unit next rest _ _ _ _ ih
  | case9 unit next rest _ _ _ ih =>
    simp only [List.length_cons] at ih ⊢
    omega
  | case7 unit next rest _ _ _ _ ih =>
    simp only [List.length_cons]
    omega

end Utf8

/-! ## Plain templates -/

/-- A template that is plain data. -/
structure Template where
  kind : Nat
  content : Units
  tags : List (List Units)
  created_at : Option Nat := none
  pubkey : Option Units := none

/-- All but the sizes of the content and the values is in order. -/
structure Template.WellFormed (template : Template) : Prop where
  kind : template.kind ≤ MAX_KIND
  tags : template.tags.length ≤ MAX_EVENT_TAGS
  values : ∀ tag ∈ template.tags, tag ≠ [] ∧ tag.length ≤ MAX_TAG_VALUES
  created_at : ∀ time ∈ template.created_at, time ≤ MAX_SAFE_INTEGER
  pubkey : ∀ key ∈ template.pubkey, isHexPubkey key = true

/-- The objects that a plain template is made of. -/
inductive Node where
  | ofTemplate (template : Template)
  | ofTags (tags : List (List Units))
  | ofTag (values : List Units)

def Node.field : Node → String → Foreign Node
  | .ofTemplate template, name =>
    if name = "kind" then .number (.finite template.kind)
    else if name = "content" then .text template.content
    else if name = "tags" then .object (.ofTags template.tags)
    else if name = "created_at" then
      (template.created_at.map fun time => Foreign.number (.finite time)).getD .undefined
    else if name = "pubkey" then (template.pubkey.map Foreign.text).getD .undefined
    else .undefined
  | .ofTags tags, name => if name = "length" then .number (.finite tags.length) else .undefined
  | .ofTag values, name => if name = "length" then .number (.finite values.length) else .undefined

def Node.item : Node → Nat → Foreign Node
  | .ofTemplate _, _ => .undefined
  | .ofTags tags, place => (tags[place]?.map fun tag => Foreign.object (.ofTag tag)).getD .undefined
  | .ofTag values, place => (values[place]?.map Foreign.text).getD .undefined

/-- Plain data answers every read with what it holds. -/
def plain : Caller Unit Node (List (Foreign Node)) where
  isArray node :=
    match node with
    | .ofTemplate _ => return false
    | .ofTags _ | .ofTag _ => return true
  get node key :=
    match key with
    | .name name => return node.field name
    | .index place => return node.item place
  has node place :=
    match node with
    | .ofTags tags => return place < tags.length
    | .ofTag values => return place < values.length
    | .ofTemplate _ => return false
  keys _ := return 0
  number _ := return .nan
  iterator value :=
    match value with
    | .object (.ofTag values) => return values.map Foreign.text
    | .object (.ofTags tags) => return tags.map fun tag => Foreign.object (.ofTag tag)
    | _ => throw .foreign
  next values :=
    match values with
    | [] => return none
    | value :: rest => return some (value, rest)
  map _ := return none
  species _ _ := return none
  stringify _ := return []
  freeze _ := return ()

/-- The copy that a template ends in. -/
def Template.copied (template : Template) : CopiedEvent Node where
  kind := template.kind
  content := template.content
  tags := .own (template.tags.map fun tag => some (tag.map Foreign.text))
  created_at := template.created_at
  pubkey := template.pubkey

/-- The JSON text of the copy. -/
def Template.text (template : Template) : Units :=
  eventText template.kind template.content (template.tags.map some) template.created_at
    template.pubkey

/-! ## The early charge stays below -/

def tagCharge (values : List Units) : Nat :=
  2 + values.length * 3 + (values.map List.length).sum

def tagsCharge (tags : List (List Units)) : Nat := (tags.map tagCharge).sum

theorem length_tagText {values : List Units} (filled : values ≠ []) :
    tagCharge values ≤ (tagText (some values)).length + 1 := by
  have quotes : (values.map List.length).sum + 2 * values.length ≤
      ((values.map Units.quote).map List.length).sum := by
    clear filled
    induction values with
    | nil => exact le_rfl
    | cons first rest ih =>
      have one := Units.length_quote first
      simp only [List.map_cons, List.sum_cons, List.length_cons] at ih ⊢
      omega
  have positive := List.length_pos_iff.mpr filled
  rw [tagText, Units.length_bracketed, List.length_map, tagCharge]
  omega

theorem length_tags {tags : List (List Units)} (filled : ∀ tag ∈ tags, tag ≠ []) :
    tagsCharge tags ≤ ((tags.map fun tag => tagText (some tag)).map List.length).sum + tags.length := by
  induction tags with
  | nil => exact le_rfl
  | cons first rest ih =>
    have one := length_tagText (filled first List.mem_cons_self)
    have others := ih fun tag member => filled tag (List.mem_cons_of_mem _ member)
    simp only [tagsCharge, List.map_cons, List.sum_cons, List.length_cons] at others ⊢
    omega

theorem length_le_braced {fields : List (Units × Units)} {label value : Units}
    (member : (label, value) ∈ fields) : value.length ≤ (Units.braced fields).length := by
  have inner : value.length ≤
      ((fields.map fun field => Units.quote field.1 ++ 58 :: field.2).map List.length).sum := by
    induction fields with
    | nil => contradiction
    | cons first rest ih =>
      simp only [List.map_cons, List.sum_cons]
      rcases List.mem_cons.mp member with here | later
      · simp only [← here, List.length_append, List.length_cons]
        omega
      · have below := ih later
        omega
  rw [Units.braced, List.length_append, List.length_cons, Units.length_intercalate]
  omega

variable {template : Template}

theorem length_le_text {label value : Units}
    (member : (label, value) ∈ [(Units.ofString "kind", Units.digits template.kind),
      (Units.ofString "content", Units.quote template.content),
      (Units.ofString "tags", Units.bracketed ((template.tags.map some).map tagText))]) :
    value.length ≤ template.text.length :=
  length_le_braced (List.mem_append_left _ (List.mem_append_left _ member))

theorem content_le_text (template : Template) :
    template.content.length ≤ template.text.length := by
  have quoted := Units.length_quote template.content
  have below : (Units.quote template.content).length ≤ template.text.length :=
    length_le_text (List.mem_cons_of_mem _ List.mem_cons_self)
  omega

theorem charge_le_text (wellFormed : template.WellFormed) :
    tagsCharge template.tags ≤ template.text.length := by
  have charge := length_tags fun tag member => (wellFormed.values tag member).1
  have below : (Units.bracketed ((template.tags.map some).map tagText)).length ≤
      template.text.length :=
    length_le_text (List.mem_cons_of_mem _ (List.mem_cons_of_mem _ List.mem_cons_self))
  have tags : (template.tags.map some).map tagText =
      template.tags.map fun tag => tagText (some tag) := List.map_map
  rw [tags, Units.length_bracketed, List.length_map] at below
  omega

/-! ## The passes over plain data -/

section Passes

variable {limit : Int} {tooLarge : SignerError}

def charged (bytes : Nat) : Number := .finite bytes

theorem lt_charged (limit : Int) (bytes : Nat) :
    (Number.finite limit).lt (charged bytes) = decide (limit < bytes) := by
  simp only [charged, Number.lt]
  congr 1
  exact_mod_cast rfl

theorem charged_add (bytes more : Nat) :
    (charged bytes).add (.finite more) = charged (bytes + more) := by
  simp [charged, Number.add]

theorem checkValues_plain (index : Nat) {fuel bytes : Nat} {values : List Units}
    (enough : values.length < fuel) (within : bytes ≤ limit) :
    checkValues plain index limit tooLarge fuel (values.map Foreign.text) (charged bytes) () =
      if limit < (bytes + (values.map List.length).sum : Nat) then .error (.signer tooLarge)
      else .ok (charged (bytes + (values.map List.length).sum), ()) := by
  induction values generalizing fuel bytes with
  | nil =>
    cases fuel with
    | zero => contradiction
    | succ fuel =>
      rw [if_neg (by simpa using within)]
      rfl
  | cons first rest ih =>
    cases fuel with
    | zero => contradiction
    | succ fuel =>
      have step : checkValues plain index limit tooLarge (fuel + 1)
          ((first :: rest).map Foreign.text) (charged bytes) () =
          (if (Number.finite limit).lt ((charged bytes).add (.finite first.length)) then
            refuse tooLarge
          else checkValues plain index limit tooLarge fuel (rest.map Foreign.text)
            ((charged bytes).add (.finite first.length))) () := rfl
      rw [step, charged_add, lt_charged, List.map_cons, List.sum_cons, ← Nat.add_assoc]
      by_cases large : limit < (bytes + first.length : Nat)
      · rw [if_pos (decide_eq_true large), if_pos]
        · rfl
        · omega
      · rw [if_neg (by simpa using large)]
        exact ih (Nat.lt_of_succ_lt_succ enough) (not_lt.mp large)

theorem checkTag_plain (index : Nat) {fuel bytes : Nat} {values : List Units}
    (enough : values.length < fuel) (filled : values ≠ []) (few : values.length ≤ MAX_TAG_VALUES) :
    checkTag plain fuel index limit tooLarge (.object (.ofTag values)) (charged bytes) () =
      if limit < (bytes + tagCharge values : Nat) then .error (.signer tooLarge)
      else .ok (charged (bytes + tagCharge values), ()) := by
  have positive := List.length_pos_iff.mpr filled
  have nonzero : isZero (Foreign.number (ρ := Node) (charged values.length)) = false := by
    have apart : charged values.length ≠ 0 := by
      intro same
      have zero : (values.length : Rat) = 0 := Number.finite.inj same
      have none : values.length = 0 := by exact_mod_cast zero
      omega
    simp [isZero, apart]
  have step : checkTag plain fuel index limit tooLarge (.object (.ofTag values)) (charged bytes) () =
      (if isZero (Foreign.number (ρ := Node) (charged values.length)) then
        fail ("event.tags[" ++ toString index ++ "] must be a non-empty array")
      else if (Number.finite MAX_TAG_VALUES).lt (charged values.length) then
        fail ("event.tags[" ++ toString index ++ "] may hold at most " ++
          toString MAX_TAG_VALUES ++ " values")
      else if (Number.finite limit).lt ((charged bytes).add (tagOverhead (charged values.length))) then
        refuse tooLarge
      else checkValues plain index limit tooLarge fuel (values.map Foreign.text)
        ((charged bytes).add (tagOverhead (charged values.length)))) () := rfl
  have overhead : (charged bytes).add (tagOverhead (charged values.length)) =
      charged (bytes + (2 + values.length * 3)) := by
    simp [charged, tagOverhead, Number.add]
  have short : (Number.finite MAX_TAG_VALUES).lt (charged values.length) = false := by
    have below := lt_charged MAX_TAG_VALUES values.length
    rw [decide_eq_false (by omega)] at below
    exact below
  have total : bytes + tagCharge values =
      bytes + (2 + values.length * 3) + (values.map List.length).sum := by
    rw [tagCharge]
    omega
  rw [step, nonzero, short, if_neg (by decide), if_neg (by decide), overhead, lt_charged, total]
  by_cases large : limit < (bytes + (2 + values.length * 3) : Nat)
  · rw [if_pos (decide_eq_true large), if_pos]
    · rfl
    · omega
  · rw [if_neg (by simpa using large)]
    exact checkValues_plain index enough (not_lt.mp large)

theorem checkTags_plain {fuel rounds index bytes : Nat} {tags done left : List (List Units)}
    (parts : tags = done ++ left) (place : done.length = index) (long : left.length < rounds)
    (enough : ∀ tag ∈ tags, tag.length < fuel)
    (values : ∀ tag ∈ tags, tag ≠ [] ∧ tag.length ≤ MAX_TAG_VALUES) (within : bytes ≤ limit) :
    checkTags plain fuel limit tooLarge (.ofTags tags) rounds index (charged bytes) () =
      if limit < (bytes + tagsCharge left : Nat) then .error (.signer tooLarge) else .ok ((), ()) := by
  induction left generalizing rounds index bytes done with
  | nil =>
    cases rounds with
    | zero => contradiction
    | succ rounds =>
      have step : checkTags plain fuel limit tooLarge (.ofTags tags) (rounds + 1) index
          (charged bytes) () =
          (if (Number.finite index).lt (charged tags.length) then (do
            let tag ← plain.get (.ofTags tags) (.index index)
            let tagBytes ← checkTag plain fuel index limit tooLarge tag (charged bytes)
            checkTags plain fuel limit tooLarge (.ofTags tags) rounds (index + 1) tagBytes)
          else return ()) () := rfl
      have ended : (Number.finite index).lt (charged tags.length) = false := by
        have below := lt_charged index tags.length
        rw [decide_eq_false (by rw [parts, List.append_nil, place]; omega)] at below
        exact below
      rw [step, ended, if_neg (by decide), if_neg (by simpa [tagsCharge] using within)]
      rfl
  | cons tag left ih =>
    cases rounds with
    | zero => contradiction
    | succ rounds =>
      have member : tag ∈ tags := by
        rw [parts]
        exact List.mem_append_right _ List.mem_cons_self
      have here : tags[index]? = some tag := by
        rw [parts, ← place]
        simp
      have step : checkTags plain fuel limit tooLarge (.ofTags tags) (rounds + 1) index
          (charged bytes) () =
          (if (Number.finite index).lt (charged tags.length) then (do
            let tag ← plain.get (.ofTags tags) (.index index)
            let tagBytes ← checkTag plain fuel index limit tooLarge tag (charged bytes)
            checkTags plain fuel limit tooLarge (.ofTags tags) rounds (index + 1) tagBytes)
          else return ()) () := rfl
      have inside : (Number.finite index).lt (charged tags.length) = true := by
        have below := lt_charged index tags.length
        rw [decide_eq_true (by rw [parts, List.length_append, List.length_cons]; omega)] at below
        exact below
      have read : plain.get (.ofTags tags) (.index index) =
          (pure (.object (.ofTag tag)) : Reads Unit (Foreign Node)) := by
        simp [plain, Node.item, here]
      have charge := @checkTag_plain limit tooLarge index fuel bytes tag (enough tag member)
        (values tag member).1 (values tag member).2
      have total : bytes + tagsCharge (tag :: left) =
          bytes + tagCharge tag + tagsCharge left := by
        simp only [tagsCharge, List.map_cons, List.sum_cons]
        omega
      rw [step, inside, if_pos rfl, read, pure_bind]
      show (checkTag plain fuel index limit tooLarge (.object (.ofTag tag)) (charged bytes) () >>=
        fun answer => checkTags plain fuel limit tooLarge (.ofTags tags) rounds (index + 1)
          answer.1 answer.2) = _
      rw [charge, total]
      by_cases large : limit < (bytes + tagCharge tag : Nat)
      · rw [if_pos large, if_pos]
        · rfl
        · omega
      · rw [if_neg large]
        exact @ih rounds (index + 1) (bytes + tagCharge tag) (done ++ [tag])
          (by rw [parts]; simp) (by simp [place]) (Nat.lt_of_succ_lt_succ long)
          (not_lt.mp large)

theorem collect_plain {fuel : Nat} {values : List (Foreign Node)} (enough : values.length < fuel) :
    collect plain fuel values () = .ok (values, ()) := by
  induction values generalizing fuel with
  | nil =>
    cases fuel with
    | zero => contradiction
    | succ fuel => rfl
  | cons value rest ih =>
    cases fuel with
    | zero => contradiction
    | succ fuel =>
      show (collect plain fuel rest () >>= fun answer => .ok (value :: answer.1, answer.2)) = _
      rw [ih (Nat.lt_of_succ_lt_succ enough)]
      rfl

theorem spread_plain {fuel : Nat} {values : List Units} (enough : values.length < fuel) :
    spread plain fuel (.object (.ofTag values)) () = .ok (values.map Foreign.text, ()) := by
  show collect plain fuel (values.map Foreign.text) () = _
  exact collect_plain (by rwa [List.length_map])

theorem mapItems_plain {fuel place : Nat} {tags done left : List (List Units)}
    (parts : tags = done ++ left) (at_ : done.length = place)
    (enough : ∀ tag ∈ tags, tag.length < fuel) :
    mapItems plain fuel (.ofTags tags) left.length place () =
      .ok (left.map fun tag => some (tag.map Foreign.text), ()) := by
  induction left generalizing place done with
  | nil => rfl
  | cons tag left ih =>
    have member : tag ∈ tags := by
      rw [parts]
      exact List.mem_append_right _ List.mem_cons_self
    have here : tags[place]? = some tag := by
      rw [parts, ← at_]
      simp
    have inside : place < tags.length := by
      rw [parts, List.length_append, List.length_cons]
      omega
    have others := @ih (place + 1) (done ++ [tag]) (by rw [parts]; simp) (by simp [at_])
    have present : plain.has (.ofTags tags) place = (pure true : Reads Unit Bool) := by
      simp [plain, inside]
    have read : plain.get (.ofTags tags) (.index place) =
        (pure (.object (.ofTag tag)) : Reads Unit (Foreign Node)) := by
      simp [plain, Node.item, here]
    rw [List.length_cons, mapItems, present, pure_bind, if_pos rfl, read, pure_bind]
    show (spread plain fuel (.object (.ofTag tag)) () >>= fun copy =>
      mapItems plain fuel (.ofTags tags) left.length (place + 1) copy.2 >>= fun answer =>
        .ok (some copy.1 :: answer.1, answer.2)) = _
    rw [spread_plain (enough tag member)]
    show (mapItems plain fuel (.ofTags tags) left.length (place + 1) () >>= fun answer =>
        .ok (some (tag.map Foreign.text) :: answer.1, answer.2)) = _
    rw [others]
    rfl

theorem copyTags_plain {fuel : Nat} {tags : List (List Units)} (few : tags.length ≤ MAX_EVENT_TAGS)
    (enough : ∀ tag ∈ tags, tag.length < fuel) :
    copyTags plain fuel (.ofTags tags) () =
      .ok (.own (tags.map fun tag => some (tag.map Foreign.text)), ()) := by
  have length : toLength (charged tags.length) = tags.length := by
    have small : tags.length ≤ 2 ^ 53 - 1 := Nat.le_trans few (by decide)
    have floor : (tags.length : Rat).floor = tags.length := by
      exact_mod_cast Rat.floor_intCast tags.length
    simp only [charged, toLength, MAX_SAFE_INTEGER, floor, Int.toNat_natCast]
    exact Nat.min_eq_left small
  have step : copyTags plain fuel (.ofTags tags) () =
      (if 2 ^ 32 ≤ toLength (charged tags.length) then throw .foreign
      else do
        return .own (← mapItems plain fuel (.ofTags tags) (toLength (charged tags.length)) 0) :
          Reads Unit (CopiedTags Node)) () := rfl
  have short : ¬ 2 ^ 32 ≤ tags.length := by
    have small : tags.length ≤ 10000 := few
    omega
  rw [step, length, if_neg short]
  show (mapItems plain fuel (.ofTags tags) tags.length 0 () >>= fun answer =>
    Except.ok (CopiedTags.own answer.1, answer.2)) = _
  rw [@mapItems_plain fuel 0 tags [] tags rfl rfl enough]
  rfl

end Passes

/-! ## The measure -/

theorem textOf_mapM (values : List Units) :
    (values.map fun value => Foreign.text (ρ := Node) value).mapM textOf = some values := by
  induction values with
  | nil => rfl
  | cons first rest ih =>
    rw [List.map_cons, List.mapM_cons, ih]
    rfl

theorem texts_plain (tags : List (List Units)) :
    (CopiedTags.own (ρ := Node) (tags.map fun tag => some (tag.map Foreign.text))).texts =
      some (tags.map some) := by
  induction tags with
  | nil => rfl
  | cons first rest ih =>
    simp only [CopiedTags.texts] at ih ⊢
    rw [List.map_cons, List.mapM_cons, ih]
    simp only [textOf_mapM]
    rfl

theorem requireNonNegativeInteger_ok {value max : Nat} (what : String) (small : value ≤ max) :
    requireNonNegativeInteger (σ := Unit) (ρ := Node) (.number (.finite value)) what max =
      pure value := by
  have fits : ((value : Rat).den = 1 ∧ (0 : Rat) ≤ value ∧ (value : Rat) ≤ max) := by
    exact ⟨Rat.den_natCast value, Nat.cast_nonneg value, by exact_mod_cast small⟩
  simp only [requireNonNegativeInteger, if_pos fits, Rat.num_natCast, Int.toNat_natCast]

theorem created_at_plain (wellFormed : template.WellFormed) :
    readDefined plain (.ofTemplate template) "created_at" (fun value =>
      requireNonNegativeInteger value "event.created_at" MAX_SAFE_INTEGER) () =
        .ok (template.created_at, ()) := by
  cases stated : template.created_at with
  | none =>
    have read : plain.get (.ofTemplate template) (.name "created_at") =
        (pure .undefined : Reads Unit (Foreign Node)) := by
      simp [plain, Node.field, stated]
    rw [readDefined, read]
    rfl
  | some time =>
    have read : plain.get (.ofTemplate template) (.name "created_at") =
        (pure (.number (.finite time)) : Reads Unit (Foreign Node)) := by
      simp [plain, Node.field, stated]
    rw [readDefined, read, pure_bind]
    simp only [pure_bind, requireNonNegativeInteger_ok _ (wellFormed.created_at time stated)]
    rfl

theorem pubkey_plain (wellFormed : template.WellFormed) :
    readDefined plain (.ofTemplate template) "pubkey" (fun value =>
      requirePubkey value "event.pubkey") () = .ok (template.pubkey, ()) := by
  cases stated : template.pubkey with
  | none =>
    have read : plain.get (.ofTemplate template) (.name "pubkey") =
        (pure .undefined : Reads Unit (Foreign Node)) := by
      simp [plain, Node.field, stated]
    rw [readDefined, read]
    rfl
  | some key =>
    have read : plain.get (.ofTemplate template) (.name "pubkey") =
        (pure (.text key) : Reads Unit (Foreign Node)) := by
      simp [plain, Node.field, stated]
    have hex := wellFormed.pubkey key stated
    rw [readDefined, read, pure_bind]
    simp only [pure_bind, requirePubkey, hex, if_true]
    rfl

theorem validateTemplate_plain (wellFormed : template.WellFormed) {fuel : Nat}
    (rounds : template.tags.length < fuel) (enough : ∀ tag ∈ template.tags, tag.length < fuel)
    (limit : Int) (tooLarge : SignerError) :
    validateTemplate plain fuel (.object (.ofTemplate template)) limit tooLarge () =
      if limit < (Units.encode template.text).length then .error (.signer tooLarge)
      else .ok ((template.copied, (Units.encode template.text).length), ()) := by
  have units := length_le_utf8ByteLength template.text
  have content := content_le_text template
  have charge := charge_le_text wellFormed
  have step : validateTemplate plain fuel (.object (.ofTemplate template)) limit tooLarge () =
      (do
        let kind ← requireNonNegativeInteger (.number (.finite template.kind)) "event.kind" MAX_KIND
        if limit < template.content.length then refuse tooLarge
        else if (Number.finite MAX_EVENT_TAGS).lt (charged template.tags.length) then
          fail ("event.tags may hold at most " ++ toString MAX_EVENT_TAGS ++ " tags")
        else
          checkTags plain fuel limit tooLarge (.ofTags template.tags) fuel 0 (charged 0)
          let tags ← copyTags plain fuel (.ofTags template.tags)
          let created_at ← readDefined plain (.ofTemplate template) "created_at" fun value =>
            requireNonNegativeInteger value "event.created_at" MAX_SAFE_INTEGER
          let pubkey ← readDefined plain (.ofTemplate template) "pubkey" fun value =>
            requirePubkey value "event.pubkey"
          let event : CopiedEvent Node :=
            { kind, content := template.content, tags, created_at, pubkey }
          let bytes := utf8ByteLength (← stringify plain event)
          if limit < bytes then refuse tooLarge else return (event, bytes)) () := rfl
  have few : (Number.finite MAX_EVENT_TAGS).lt (charged template.tags.length) = false := by
    have below := lt_charged MAX_EVENT_TAGS template.tags.length
    rw [decide_eq_false (by have small := wellFormed.tags; omega)] at below
    exact below
  rw [step, requireNonNegativeInteger_ok _ wellFormed.kind, pure_bind, few, ← utf8ByteLength_eq]
  by_cases long : limit < template.content.length
  · rw [if_pos long, if_pos (by omega)]
    rfl
  rw [if_neg long, if_neg (by decide)]
  have within : ((0 : Nat) : Int) ≤ limit := by omega
  have pass := @checkTags_plain limit tooLarge fuel fuel 0 0 template.tags [] template.tags rfl rfl
    rounds enough wellFormed.values within
  rw [Nat.zero_add] at pass
  show (checkTags plain fuel limit tooLarge (.ofTags template.tags) fuel 0 (charged 0) () >>= _) = _
  rw [pass]
  by_cases large : limit < tagsCharge template.tags
  · rw [if_pos large, if_pos (by omega)]
    rfl
  rw [if_neg large]
  show (copyTags plain fuel (.ofTags template.tags) () >>= _) = _
  rw [copyTags_plain wellFormed.tags enough]
  show (readDefined plain (.ofTemplate template) "created_at" _ () >>= _) = _
  rw [created_at_plain wellFormed]
  show (readDefined plain (.ofTemplate template) "pubkey" _ () >>= _) = _
  rw [pubkey_plain wellFormed]
  show (stringify plain template.copied () >>= _) = _
  have text : stringify plain template.copied = pure template.text := by
    simp only [stringify, Template.copied, texts_plain]
    rfl
  rw [text]
  show (if limit < (utf8ByteLength template.text : Int) then refuse tooLarge
    else pure (template.copied, utf8ByteLength template.text) :
      Reads Unit (CopiedEvent Node × Nat)) () = _
  split <;> rfl

/-- The count is what an encoder writes, and a template that is otherwise in order is refused as
too large exactly when the JSON text of its copy takes more bytes than the limit. -/
theorem template_measured :
    (∀ text : Units, utf8ByteLength text = (Units.encode text).length) ∧
    ∀ template : Template, template.WellFormed → ∀ fuel : Nat, template.tags.length < fuel →
      (∀ tag ∈ template.tags, tag.length < fuel) → ∀ (limit : Int) (tooLarge : SignerError),
      stringify plain template.copied () = .ok (template.text, ()) ∧
      validateTemplate plain fuel (.object (.ofTemplate template)) limit tooLarge () =
        if limit < (Units.encode template.text).length then .error (.signer tooLarge)
        else .ok ((template.copied, (Units.encode template.text).length), ()) := by
  refine ⟨utf8ByteLength_eq, fun template wellFormed fuel rounds enough limit tooLarge => ⟨?_, ?_⟩⟩
  · simp only [stringify, Template.copied, texts_plain]
    rfl
  · exact validateTemplate_plain wellFormed rounds enough limit tooLarge

def reaction : Template where
  kind := 7
  content := [0xD83D, 0xDE00]
  tags := [[Units.ofString "e", []]]

theorem template_measured_reaction :
    (validateTemplate plain 3 (.object (.ofTemplate reaction)) 45 eventTooLarge ()).isOk = true ∧
      (validateTemplate plain 3 (.object (.ofTemplate reaction)) 44 eventTooLarge ()).isOk = false := by
  have wellFormed : reaction.WellFormed := by
    constructor
    · decide
    · decide
    · decide
    · simp [reaction]
    · simp [reaction]
  have enough : reaction.tags.length < 3 ∧ ∀ tag ∈ reaction.tags, tag.length < 3 := by decide
  have large := (template_measured.2 reaction wellFormed 3 enough.1 enough.2 44 eventTooLarge).2
  have small := (template_measured.2 reaction wellFormed 3 enough.1 enough.2 45 eventTooLarge).2
  have bytes : (Units.encode reaction.text).length = 45 := by decide
  rw [bytes] at large small
  rw [large, small]
  decide

end NostrWot.Signing.Untrusted
