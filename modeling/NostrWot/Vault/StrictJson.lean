import NostrWot.Data.JsonValue

namespace NostrWot.Vault

/-! # Strict JSON

The walk that a stored record's text is taken through: `JSON.parse` decides the
grammar, and the tokens that it discards are walked for names that repeat,
surrogates without a partner and the form of the root `updated_at`.
-/

open Data Data.JsonSyntax

namespace StrictJson

section Scanner

variable {ν : Type} (numbers : JsonValue.NumberFormat ν)

def UPDATED_AT : Units := [117, 112, 100, 97, 116, 101, 100, 95, 97, 116]

/-- The loop over the units of a string: every surrogate has its partner. -/
def paired : Units → Bool
  | [] => true
  | [unit] => !Units.isHigh unit && !Units.isLow unit
  | unit :: next :: rest =>
    if Units.isHigh unit then Units.isLow next && paired rest
    else !Units.isLow unit && paired (next :: rest)

/-- `string(token)`; a token of another kind is no name, and is not met in a text of the grammar. -/
def string (token : Units) : Option Units :=
  match JsonValue.parse numbers token with
  | some ⟨.text value, _⟩ => if paired value then some value else none
  | _ => none

/-- `/^(?:0|[1-9]\d*)$/`. -/
def isPlainInteger : Units → Bool
  | [] => false
  | first :: rest => first = 48 && rest.isEmpty || 49 ≤ first && first ≤ 57 && rest.all isDigit

mutual

/-- `walk(root)` at the first of the remaining tokens; what it leaves. -/
def walk : Nat → Bool → List Units → Option (List Units)
  | 0, _, _ => none
  | _ + 1, _, [] => none
  | fuel + 1, root, token :: tokens =>
    if token = [123] then walkMembers fuel root [] tokens
    else if token = [91] then walkItems fuel tokens
    else if token.head? = some 34 then (string numbers token).map fun _ => tokens
    else some tokens

/-- The loop over the items of an array. -/
def walkItems : Nat → List Units → Option (List Units)
  | 0, _ => none
  | fuel + 1, tokens =>
    if tokens.head? = some [93] then some tokens.tail
    else
      match walk fuel false tokens with
      | none => none
      | some tokens =>
        if tokens.head? = some [44] then walkItems fuel tokens.tail else some tokens.tail

def walkMembers : Nat → Bool → List Units → List Units → Option (List Units)
  | 0, _, _, _ => none
  | _ + 1, _, _, [] => none
  | fuel + 1, root, names, token :: tokens =>
    if token = [125] then some tokens
    else
      match string numbers token with
      | none => none
      | some name =>
        if name ∈ names then none
        -- the colon is passed over
        else if root && name = UPDATED_AT && !(tokens.tail.head?.any isPlainInteger) then none
        else
          match walk fuel false tokens.tail with
          | none => none
          | some tokens =>
            if tokens.head? = some [44] then
              walkMembers fuel root (name :: names) tokens.tail
            else some tokens.tail

end

def strictJson (text : Units) : Option (JsonValue.Document ν) :=
  match JsonValue.parse numbers text with
  | none => none
  | some result =>
    if (walk numbers (tokenize text).length true (tokenize text)).isSome then some result else none

end Scanner

/-! ## What the walk asks of a text -/

mutual

/-- No object repeats a name, and no string or name holds a surrogate without a partner. -/
def Sound : Node → Prop
  | .word _ | .number _ => True
  | .string _ value => Units.isWellFormed value = true
  | .array items => SoundItems items
  | .object members => (members.map fun member => member.1.2).Nodup ∧ SoundMembers members

def SoundItems : List Node → Prop
  | [] => True
  | item :: items => Sound item ∧ SoundItems items

def SoundMembers : List ((Units × Units) × Node) → Prop
  | [] => True
  | (name, node) :: members =>
    Units.isWellFormed name.2 = true ∧ Sound node ∧ SoundMembers members

end

mutual

/-- No string or name of a value holds a surrogate without a partner. -/
def Formed {ν : Type} : JsonValue ν → Prop
  | .null | .boolean _ | .number _ => True
  | .text value => Units.isWellFormed value = true
  | .array items => FormedItems items
  | .object fields => FormedFields fields

def FormedItems {ν : Type} : List (JsonValue ν) → Prop
  | [] => True
  | item :: items => Formed item ∧ FormedItems items

def FormedFields {ν : Type} : List (Units × JsonValue ν) → Prop
  | [] => True
  | (name, value) :: fields => Units.isWellFormed name = true ∧ Formed value ∧ FormedFields fields

end

def Plain (node : Node) : Prop := ∃ token, node = .number token ∧ isPlainInteger token = true

/-- What a text's root says under `updated_at` is written as a plain integer. -/
def Timed : Node → Prop
  | .object members => ∀ member ∈ members, member.1.2 = UPDATED_AT → Plain member.2
  | _ => True

section Walk

variable {ν : Type} {numbers : JsonValue.NumberFormat ν}

theorem paired_eq (text : Units) : paired text = Units.isWellFormed text := by
  fun_induction paired text with
  | case1 => rfl
  | case2 unit => simp [Units.isWellFormed, Units.isSurrogate]
  | case3 unit next rest high ih =>
    rw [Units.isWellFormed, high, Bool.true_and, ih]
    cases Units.isLow next <;> simp [Units.isSurrogate, high]
  | case4 unit next rest plain ih =>
    have low := Bool.eq_false_iff.mpr plain
    rw [Units.isWellFormed, low, Bool.false_and, if_neg (by decide), ih, Units.isSurrogate, low,
      Bool.false_or]

theorem string_token {token value : Units} (quotes : Quotes token value) (name : Units) :
    string numbers token = some name ↔ name = value ∧ Units.isWellFormed value = true := by
  obtain ⟨body, rfl, scanned⟩ := quotes
  have read : JsonValue.parse numbers (34 :: body) = some ⟨.text value, trivial⟩ := by
    have begins : skip (34 :: body) = 34 :: body := rfl
    rw [JsonValue.parse, parseText, parseNode, begins]
    dsimp only
    rw [if_pos rfl, scanned]
    rfl
  rw [string, read]
  dsimp only
  rw [paired_eq]
  split
  · next sound => simpa [sound] using eq_comm
  · next broken => simp [broken]

theorem tidy_head {unit : UInt16} (number : unit = 45 ∨ isDigit unit = true) :
    unit ≠ 34 ∧ unit ≠ 44 ∧ unit ≠ 91 ∧ unit ≠ 93 ∧ unit ≠ 123 ∧ unit ≠ 125 := by
  rcases number with rfl | digit
  · decide
  · refine ⟨?_, ?_, ?_, ?_, ?_, ?_⟩ <;>
    · rintro rfl
      exact absurd digit (by decide)

theorem tokens_begin {node : Node} (tidy : node.Tidy) : ∃ token tokens,
    node.tokens = token :: tokens ∧ token ≠ [93] ∧
      (isPlainInteger token = true ↔ Plain node) := by
  cases node with
  | word token =>
    have among : token = TRUE ∨ token = FALSE ∨ token = NULL := by simpa [Node.Tidy] using tidy
    refine ⟨token, [], rfl, ?_, ?_⟩
    · rcases among with rfl | rfl | rfl <;> decide
    · have other : isPlainInteger token = false := by
        rcases among with rfl | rfl | rfl <;> rfl
      simp [other, Plain]
  | number token =>
    obtain ⟨unit, more, rfl, number⟩ := tidy
    refine ⟨_, [], rfl, ?_, by simp [Plain]⟩
    intro same
    exact (tidy_head number).2.2.2.1 (List.head_eq_of_cons_eq same)
  | string token value =>
    obtain ⟨body, rfl, -⟩ := tidy
    refine ⟨_, [], rfl, by simp, ?_⟩
    simp [isPlainInteger, Plain]
  | array items => exact ⟨_, _, rfl, by decide, by simp [Plain, isPlainInteger]⟩
  | object members => exact ⟨_, _, rfl, by decide, by simp [Plain, isPlainInteger]⟩

/-! ### The walk over a node -/

def NodesWalked (numbers : JsonValue.NumberFormat ν) (fuel : Nat) : Prop :=
  ∀ root node rest, node.Tidy → node.tokens.length ≤ fuel →
    (Sound node ∧ (root = true → Timed node) →
      walk numbers fuel root (node.tokens ++ rest) = some rest) ∧
    (¬ (Sound node ∧ (root = true → Timed node)) →
      walk numbers fuel root (node.tokens ++ rest) = none)

def ItemsWalked (numbers : JsonValue.NumberFormat ν) (fuel : Nat) : Prop :=
  ∀ items rest, TidyItems items → (itemTokens items).length + 1 ≤ fuel →
    (SoundItems items → walkItems numbers fuel (itemTokens items ++ [93] :: rest) = some rest) ∧
    (¬ SoundItems items → walkItems numbers fuel (itemTokens items ++ [93] :: rest) = none)

def MembersSound (root : Bool) (names : List Units) (members : List ((Units × Units) × Node)) : Prop :=
  (∀ member ∈ members, member.1.2 ∉ names) ∧ (members.map fun member => member.1.2).Nodup ∧
    SoundMembers members ∧
    (root = true → ∀ member ∈ members, member.1.2 = UPDATED_AT → Plain member.2)

def MembersWalked (numbers : JsonValue.NumberFormat ν) (fuel : Nat) : Prop :=
  ∀ root names members rest, TidyMembers members → (memberTokens members).length + 1 ≤ fuel →
    (MembersSound root names members →
      walkMembers numbers fuel root names (memberTokens members ++ [125] :: rest) = some rest) ∧
    (¬ MembersSound root names members →
      walkMembers numbers fuel root names (memberTokens members ++ [125] :: rest) = none)

theorem membersSound_cons {root : Bool} {names : List Units} {name : Units × Units} {node : Node}
    {members : List ((Units × Units) × Node)} :
    MembersSound root names ((name, node) :: members) ↔
      Units.isWellFormed name.2 = true ∧ name.2 ∉ names ∧
        (root = true → name.2 = UPDATED_AT → Plain node) ∧ Sound node ∧
        MembersSound root (name.2 :: names) members := by
  simp only [MembersSound, List.map_cons, List.nodup_cons, SoundMembers, List.mem_cons,
    forall_eq_or_imp, not_or, List.mem_map, not_exists, not_and]
  constructor
  · rintro ⟨⟨fresh, apart⟩, ⟨other, nodup⟩, ⟨formed, sound, rest⟩, timed⟩
    exact ⟨formed, fresh, fun isRoot => (timed isRoot).1, sound,
      fun member among => ⟨other member among, apart member among⟩, nodup, rest,
      fun isRoot => (timed isRoot).2⟩
  · rintro ⟨formed, fresh, plain, sound, apart, nodup, rest, timed⟩
    exact ⟨⟨fresh, fun member among => (apart member among).2⟩,
      ⟨fun member among => (apart member among).1, nodup⟩, ⟨formed, sound, rest⟩,
      fun isRoot => ⟨plain isRoot, timed isRoot⟩⟩

section Steps

variable {fuel : Nat}

theorem walkItems_enter {tokens : List Units} (open_ : tokens.head? ≠ some [93]) :
    walkItems numbers (fuel + 1) tokens = (walk numbers fuel false tokens).bind fun tokens =>
      if tokens.head? = some [44] then walkItems numbers fuel tokens.tail else some tokens.tail := by
  rw [walkItems, if_neg open_]
  cases walk numbers fuel false tokens <;> rfl

theorem walkItems_step (nodes : NodesWalked numbers fuel) (items : ItemsWalked numbers fuel) :
    ItemsWalked numbers (fuel + 1) := by
  intro list rest tidy enough
  cases list with
  | nil => exact ⟨fun _ => rfl, fun broken => absurd trivial broken⟩
  | cons item others =>
    obtain ⟨first, more, begins, open_, -⟩ := tokens_begin tidy.1
    rw [itemTokens, List.length_append] at enough
    obtain ⟨whole, broken⟩ := nodes false item (moreItemTokens others ++ [93] :: rest) tidy.1
      (by omega)
    have entered : (itemTokens (item :: others) ++ [93] :: rest).head? ≠ some [93] := by
      rw [itemTokens, begins]
      simpa using open_
    rw [walkItems_enter entered, itemTokens, List.append_assoc, SoundItems]
    by_cases sound : Sound item
    · rw [whole ⟨sound, fun top => absurd top Bool.false_ne_true⟩, Option.bind_some]
      cases others with
      | nil => exact ⟨fun _ => rfl, fun broken => absurd ⟨sound, trivial⟩ broken⟩
      | cons next others =>
        have shape := @moreItemTokens_eq (next :: others) (by simp)
        rw [shape] at enough ⊢
        simp only [List.cons_append, List.length_cons, List.head?_cons, List.tail_cons, if_pos] at enough ⊢
        obtain ⟨left, stuck⟩ := items (next :: others) rest tidy.2 (by omega)
        exact ⟨fun both => left both.2, fun neither => stuck fun later => neither ⟨sound, later⟩⟩
    · rw [broken fun both => sound both.1]
      exact ⟨fun both => absurd both.1 sound, fun _ => rfl⟩

theorem walkMembers_enter {root : Bool} {names tokens : List Units} {name : Units × Units}
    (quotes : Quotes name.1 name.2) (fresh : Units.isWellFormed name.2 = true ∧ name.2 ∉ names) :
    walkMembers numbers (fuel + 1) root names (name.1 :: tokens) =
      if root && name.2 = UPDATED_AT && !(tokens.tail.head?.any isPlainInteger) then none
      else (walk numbers fuel false tokens.tail).bind fun tokens =>
        if tokens.head? = some [44] then walkMembers numbers fuel root (name.2 :: names) tokens.tail
        else some tokens.tail := by
  have opens : name.1 ≠ [125] := by
    obtain ⟨body, shape, -⟩ := quotes
    simp [shape]
  have said := (@string_token ν numbers _ _ quotes name.2).mpr ⟨rfl, fresh.1⟩
  rw [walkMembers, if_neg opens, said]
  dsimp only
  rw [if_neg fresh.2]
  cases walk numbers fuel false tokens.tail <;> rfl

theorem walkMembers_stop {root : Bool} {names tokens : List Units} {name : Units × Units}
    (quotes : Quotes name.1 name.2)
    (broken : ¬ (Units.isWellFormed name.2 = true ∧ name.2 ∉ names)) :
    walkMembers numbers (fuel + 1) root names (name.1 :: tokens) = none := by
  have opens : name.1 ≠ [125] := by
    obtain ⟨body, shape, -⟩ := quotes
    simp [shape]
  rw [walkMembers, if_neg opens]
  cases said : string numbers name.1 with
  | none => rfl
  | some value =>
    obtain ⟨rfl, formed⟩ := (string_token quotes value).mp said
    have met : name.2 ∈ names := by
      by_contra fresh
      exact broken ⟨formed, fresh⟩
    exact if_pos met

theorem walkMembers_step (nodes : NodesWalked numbers fuel) (members : MembersWalked numbers fuel) :
    MembersWalked numbers (fuel + 1) := by
  intro root names list rest tidy enough
  cases list with
  | nil =>
    refine ⟨fun _ => rfl, fun broken => absurd ?_ broken⟩
    exact ⟨List.forall_mem_nil _, List.nodup_nil, trivial, fun _ => List.forall_mem_nil _⟩
  | cons member others =>
    obtain ⟨name, node⟩ := member
    obtain ⟨quotes, tidyNode, tidyRest⟩ := tidy
    simp only [memberTokens, List.length_cons, List.length_append] at enough
    obtain ⟨whole, broken⟩ := nodes false node (moreMemberTokens others ++ [125] :: rest) tidyNode
      (by omega)
    obtain ⟨first, more, begins, -, plain⟩ := tokens_begin tidyNode
    rw [memberTokens, membersSound_cons]
    simp only [List.cons_append, List.append_assoc]
    by_cases fresh : Units.isWellFormed name.2 = true ∧ name.2 ∉ names
    · rw [walkMembers_enter quotes fresh, List.tail_cons]
      by_cases timed : root = true → name.2 = UPDATED_AT → Plain node
      · have passes : (root && decide (name.2 = UPDATED_AT) &&
            !((node.tokens ++ (moreMemberTokens others ++ [125] :: rest)).head?.any
              isPlainInteger)) = false := by
          rw [begins, List.cons_append, List.head?_cons, Option.any_some]
          cases root with
          | false => rfl
          | true =>
            by_cases named : name.2 = UPDATED_AT
            · simp [plain.mpr (timed rfl named)]
            · simp [named]
        rw [passes, if_neg (by decide)]
        by_cases sound : Sound node
        · rw [whole ⟨sound, fun top => absurd top Bool.false_ne_true⟩, Option.bind_some]
          cases others with
          | nil =>
            refine ⟨fun _ => rfl, fun neither => absurd ?_ neither⟩
            exact ⟨fresh.1, fresh.2, timed, sound, List.forall_mem_nil _, List.nodup_nil, trivial,
              fun _ => List.forall_mem_nil _⟩
          | cons next others =>
            have shape := @moreMemberTokens_eq (next :: others) (by simp)
            rw [shape] at enough ⊢
            simp only [List.cons_append, List.length_cons, List.head?_cons, List.tail_cons,
              if_pos] at enough ⊢
            obtain ⟨left, stuck⟩ := members root (name.2 :: names) (next :: others) rest tidyRest
              (by omega)
            exact ⟨fun all => left all.2.2.2.2,
              fun neither => stuck fun later =>
                neither ⟨fresh.1, fresh.2, timed, sound, later⟩⟩
        · rw [broken fun both => sound both.1]
          exact ⟨fun all => absurd all.2.2.2.1 sound, fun _ => rfl⟩
      · have stops : (root && decide (name.2 = UPDATED_AT) &&
            !((node.tokens ++ (moreMemberTokens others ++ [125] :: rest)).head?.any
              isPlainInteger)) = true := by
          push Not at timed
          obtain ⟨isRoot, named, other⟩ := timed
          have odd := Bool.eq_false_iff.mpr (mt plain.mp other)
          rw [begins, List.cons_append, List.head?_cons, Option.any_some]
          simp [isRoot, named, odd]
        rw [stops, if_pos rfl]
        exact ⟨fun all => absurd all.2.2.1 timed, fun _ => rfl⟩
    · rw [walkMembers_stop quotes fresh]
      exact ⟨fun all => absurd ⟨all.1, all.2.1⟩ fresh, fun _ => rfl⟩

theorem walk_step (items : ItemsWalked numbers fuel) (members : MembersWalked numbers fuel) :
    NodesWalked numbers (fuel + 1) := by
  intro root node rest tidy enough
  cases node with
  | word token =>
    have among : token = TRUE ∨ token = FALSE ∨ token = NULL := by simpa [Node.Tidy] using tidy
    refine ⟨fun _ => ?_, fun broken => absurd ⟨trivial, fun _ => trivial⟩ broken⟩
    rcases among with rfl | rfl | rfl <;> rfl
  | number token =>
    obtain ⟨unit, more, rfl, number⟩ := tidy
    obtain ⟨quote, -, bracket, -, brace, -⟩ := tidy_head number
    refine ⟨fun _ => ?_, fun broken => absurd ⟨trivial, fun _ => trivial⟩ broken⟩
    rw [Node.tokens, List.cons_append, List.nil_append, walk, if_neg (by simp [brace]),
      if_neg (by simp [bracket]), if_neg (by simp [quote])]
  | string token value =>
    have said := @string_token ν numbers _ _ tidy
    obtain ⟨body, rfl, -⟩ := tidy
    rw [Node.tokens, List.cons_append, List.nil_append, walk, if_neg (by simp), if_neg (by simp),
      List.head?_cons, if_pos rfl]
    constructor
    · rintro ⟨formed, -⟩
      rw [(said value).mpr ⟨rfl, formed⟩]
      rfl
    · intro broken
      cases read : string numbers (34 :: body) with
      | none => rfl
      | some name => exact absurd ⟨((said name).mp read).2, fun _ => trivial⟩ broken
  | array list =>
    rw [Node.tokens] at enough ⊢
    simp only [List.length_cons, List.length_append, List.length_nil] at enough
    obtain ⟨whole, broken⟩ := items list rest tidy (by omega)
    rw [List.cons_append, walk, if_neg (by decide), if_pos rfl, List.append_assoc]
    exact ⟨fun both => whole both.1, fun neither => broken fun sound =>
      neither ⟨sound, fun _ => trivial⟩⟩
  | object list =>
    rw [Node.tokens] at enough ⊢
    simp only [List.length_cons, List.length_append, List.length_nil] at enough
    obtain ⟨whole, broken⟩ := members root [] list rest tidy (by omega)
    rw [List.cons_append, walk, if_pos rfl, List.append_assoc]
    have same : Sound (.object list) ∧ (root = true → Timed (.object list)) ↔
        MembersSound root [] list := by
      constructor
      · rintro ⟨⟨apart, sound⟩, timed⟩
        exact ⟨fun _ _ => List.not_mem_nil, apart, sound, timed⟩
      · rintro ⟨-, apart, sound, timed⟩
        exact ⟨⟨apart, sound⟩, timed⟩
    rw [same]
    exact ⟨whole, broken⟩

end Steps

theorem walks (fuel : Nat) :
    NodesWalked numbers fuel ∧ ItemsWalked numbers fuel ∧ MembersWalked numbers fuel := by
  induction fuel with
  | zero =>
    refine ⟨?_, nofun, nofun⟩
    intro root node rest tidy enough
    obtain ⟨first, more, begins, -⟩ := tokens_begin tidy
    simp [begins] at enough
  | succ fuel ih =>
    obtain ⟨nodes, items, members⟩ := ih
    exact ⟨walk_step items members, walkItems_step nodes items, walkMembers_step nodes members⟩

theorem strictJson_iff (text : Units) (value : JsonValue.Document ν) :
    strictJson numbers text = some value ↔
      JsonValue.parse numbers text = some value ∧
        ∃ node, parseText text = some node ∧ Sound node ∧ Timed node := by
  unfold strictJson
  cases parsed : parseText text with
  | none => simp [JsonValue.parse, parsed]
  | some node =>
    obtain ⟨tidy, same⟩ := tokenize_parseText parsed
    obtain ⟨whole, broken⟩ := (@walks ν numbers node.tokens.length).1 true node [] tidy
      (Nat.le_refl _)
    rw [List.append_nil] at whole broken
    have read : JsonValue.parse numbers text =
        some ⟨JsonValue.ofNode numbers node, JsonValue.unique_ofNode numbers node⟩ := by
      rw [JsonValue.parse, parsed, Option.map_some]
    rw [read, same]
    dsimp only
    by_cases sound : Sound node ∧ Timed node
    · rw [whole ⟨sound.1, fun _ => sound.2⟩]
      simp [sound]
    · rw [broken fun both => sound ⟨both.1, both.2 rfl⟩]
      simpa using fun _ formed => not_and.mp sound formed

end Walk

/-! ### What is written of a value -/

section Written

variable {ν : Type} (numbers : JsonValue.NumberFormat ν)

theorem toMembers_eq (fields : List (Units × JsonValue ν)) :
    JsonValue.toMembers numbers fields =
      fields.map fun field => ((Units.quote field.1, field.1), JsonValue.toNode numbers field.2) := by
  induction fields with
  | nil => rfl
  | cons field fields ih =>
    obtain ⟨name, value⟩ := field
    rw [JsonValue.toMembers, ih]
    rfl

theorem toMembers_names (fields : List (Units × JsonValue ν)) :
    (JsonValue.toMembers numbers fields).map (fun member => member.1.2) = fields.map Prod.fst := by
  rw [toMembers_eq, List.map_map]
  rfl

mutual

theorem sound_toNode (value : JsonValue ν) (unique : value.Unique) (formed : Formed value) :
    Sound (JsonValue.toNode numbers value) := by
  cases value with
  | null => trivial
  | boolean value => trivial
  | number value => trivial
  | text value => exact formed
  | array items => exact sound_toItems items unique formed
  | object fields =>
    refine ⟨?_, sound_toMembers fields unique.2 formed⟩
    rw [toMembers_names]
    exact unique.1

theorem sound_toItems (items : List (JsonValue ν)) (unique : JsonValue.UniqueItems items)
    (formed : FormedItems items) : SoundItems (JsonValue.toItems numbers items) := by
  cases items with
  | nil => trivial
  | cons item items =>
    exact ⟨sound_toNode item unique.1 formed.1, sound_toItems items unique.2 formed.2⟩

theorem sound_toMembers (fields : List (Units × JsonValue ν)) (unique : JsonValue.UniqueFields fields)
    (formed : FormedFields fields) : SoundMembers (JsonValue.toMembers numbers fields) := by
  cases fields with
  | nil => trivial
  | cons field fields =>
    obtain ⟨name, value⟩ := field
    obtain ⟨named, inside, later⟩ := formed
    exact ⟨named, sound_toNode value unique.1 inside, sound_toMembers fields unique.2 later⟩

end

end Written

end StrictJson

end NostrWot.Vault
