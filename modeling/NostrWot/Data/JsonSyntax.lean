import NostrWot.Data.CodeUnits

namespace NostrWot.Data.JsonSyntax

/-! # JSON texts

The grammar of JSON over code units: what `JSON.parse` reads of a text before any
value is made of it, with every token as it is written.
-/

def isBlank (unit : UInt16) : Bool := unit = 32 || unit = 9 || unit = 10 || unit = 13

def isDigit (unit : UInt16) : Bool := 48 ≤ unit && unit ≤ 57

def skip (text : Units) : Units := text.dropWhile isBlank

/-! ## Strings -/

def hexValue (unit : UInt16) : Option Nat :=
  if isDigit unit then some (unit.toNat - 48)
  else if 97 ≤ unit && unit ≤ 102 then some (unit.toNat - 87)
  else if 65 ≤ unit && unit ≤ 70 then some (unit.toNat - 55)
  else none

/-- What follows a backslash, other than `u`, and the unit that it stands for. -/
def simpleEscape (unit : UInt16) : Option UInt16 :=
  if unit = 34 then some 34
  else if unit = 92 then some 92
  else if unit = 47 then some 47
  else if unit = 98 then some 8
  else if unit = 102 then some 12
  else if unit = 110 then some 10
  else if unit = 114 then some 13
  else if unit = 116 then some 9
  else none

/-- The unit of `\uXXXX`. -/
def unitOf (first second third fourth : UInt16) : Option UInt16 := do
  let first ← hexValue first
  let second ← hexValue second
  let third ← hexValue third
  let fourth ← hexValue fourth
  return UInt16.ofNat (first * 4096 + second * 256 + third * 16 + fourth)

/-- The rest of a string after its opening quote: its token with the quote that closes it, what it
says, and what follows. -/
def scanString : Units → Option (Units × Units × Units)
  | [] => none
  | unit :: rest =>
    if unit = 34 then some ([34], [], rest)
    else if unit = 92 then
      match rest with
      | [] => none
      | escaped :: rest =>
        if escaped = 117 then
          match rest with
          | first :: second :: third :: fourth :: rest =>
            match unitOf first second third fourth, scanString rest with
            | some unit, some (token, value, after) =>
              some (92 :: 117 :: first :: second :: third :: fourth :: token, unit :: value,
                after)
            | _, _ => none
          | _ => none
        else
          match simpleEscape escaped, scanString rest with
          | some unit, some (token, value, after) =>
            some (92 :: escaped :: token, unit :: value, after)
          | _, _ => none
    else if unit < 32 then none
    else
      match scanString rest with
      | some (token, value, after) => some (unit :: token, unit :: value, after)
      | none => none

/-! ## Numbers -/

def scanInteger : Units → Option (Units × Units)
  | [] => none
  | unit :: rest =>
    if unit = 48 then some ([48], rest)
    else if isDigit unit then some (unit :: rest.takeWhile isDigit, rest.dropWhile isDigit)
    else none

/-- `(?:\.\d+)?`. -/
def scanFraction : Units → Units × Units
  | point :: digit :: rest =>
    if point = 46 && isDigit digit then
      (point :: digit :: rest.takeWhile isDigit, rest.dropWhile isDigit)
    else ([], point :: digit :: rest)
  | text => ([], text)

/-- `[+-]?`. -/
def scanSign : Units → Units × Units
  | sign :: rest => if sign = 43 || sign = 45 then ([sign], rest) else ([], sign :: rest)
  | [] => ([], [])

/-- `(?:[eE][+-]?\d+)?`. -/
def scanExponent : Units → Units × Units
  | mark :: rest =>
    if mark = 101 || mark = 69 then
      match (scanSign rest).2 with
      | digit :: after =>
        if isDigit digit then
          (mark :: (scanSign rest).1 ++ digit :: after.takeWhile isDigit, after.dropWhile isDigit)
        else ([], mark :: rest)
      | [] => ([], mark :: rest)
    else ([], mark :: rest)
  | [] => ([], [])

/-- `-?(?:0|[1-9]\d*)(?:\.\d+)?(?:[eE][+-]?\d+)?`. -/
def scanNumber (text : Units) : Option (Units × Units) :=
  let (minus, unsigned) :=
    match text with
    | unit :: rest => if unit = 45 then ([unit], rest) else ([], text)
    | [] => ([], [])
  (scanInteger unsigned).map fun (integer, rest) =>
    let (fraction, rest) := scanFraction rest
    let (exponent, rest) := scanExponent rest
    (minus ++ integer ++ fraction ++ exponent, rest)

def scanWord (word text : Units) : Option (Units × Units) :=
  if word.isPrefixOf text then some (word, text.drop word.length) else none

def TRUE : Units := [116, 114, 117, 101]

def FALSE : Units := [102, 97, 108, 115, 101]

def NULL : Units := [110, 117, 108, 108]

/-! ## Values -/

/-- What a text says, its strings and numbers as they are written. -/
inductive Node where
  | word (token : Units)
  | number (token : Units)
  | string (token value : Units)
  | array (items : List Node)
  | object (members : List ((Units × Units) × Node))

mutual

def parseNode : Nat → Units → Option (Node × Units)
  | 0, _ => none
  | fuel + 1, text =>
    match skip text with
    | [] => none
    | unit :: rest =>
      if unit = 34 then
        (scanString rest).map fun (token, value, after) => (.string (34 :: token) value, after)
      else if unit = 91 then
        match skip rest with
        | [] => none
        | next :: after =>
          if next = 93 then some (.array [], after)
          else (parseItems fuel (next :: after)).map fun (items, after) => (.array items, after)
      else if unit = 123 then
        match skip rest with
        | [] => none
        | next :: after =>
          if next = 125 then some (.object [], after)
          else (parseMembers fuel (next :: after)).map fun (members, after) =>
            (.object members, after)
      else
        (((scanWord TRUE (unit :: rest)).or (scanWord FALSE (unit :: rest))).or
          (scanWord NULL (unit :: rest))).map (fun (token, after) => (.word token, after)) |>.or
            ((scanNumber (unit :: rest)).map fun (token, after) => (.number token, after))

def parseItems : Nat → Units → Option (List Node × Units)
  | 0, _ => none
  | fuel + 1, text =>
    match parseNode fuel text with
    | none => none
    | some (item, rest) =>
      match skip rest with
      | [] => none
      | next :: after =>
        if next = 93 then some ([item], after)
        else if next = 44 then
          (parseItems fuel after).map fun (items, after) => (item :: items, after)
        else none

def parseMembers : Nat → Units → Option (List ((Units × Units) × Node) × Units)
  | 0, _ => none
  | fuel + 1, text =>
    match skip text with
    | [] => none
    | quote :: rest =>
      if quote = 34 then
        match scanString rest with
        | none => none
        | some (token, name, rest) =>
          match skip rest with
          | [] => none
          | colon :: rest =>
            if colon = 58 then
              match parseNode fuel rest with
              | none => none
              | some (node, rest) =>
                match skip rest with
                | [] => none
                | next :: after =>
                  if next = 125 then some ([((34 :: token, name), node)], after)
                  else if next = 44 then
                    (parseMembers fuel after).map fun (members, after) =>
                      (((34 :: token, name), node) :: members, after)
                  else none
            else none
      else none

end

def parseText (text : Units) : Option Node :=
  match parseNode (text.length + 1) text with
  | none => none
  | some (node, rest) => if skip rest = [] then some node else none

/-! ## Tokens -/

mutual

/-- The tokens of a text that says this. -/
def Node.tokens : Node → List Units
  | .word token | .number token | .string token _ => [token]
  | .array items => [91] :: (itemTokens items ++ [[93]])
  | .object members => [123] :: (memberTokens members ++ [[125]])

def itemTokens : List Node → List Units
  | [] => []
  | item :: items => item.tokens ++ moreItemTokens items

def moreItemTokens : List Node → List Units
  | [] => []
  | item :: items => [44] :: (item.tokens ++ moreItemTokens items)

def memberTokens : List ((Units × Units) × Node) → List Units
  | [] => []
  | (name, node) :: members => name.1 :: [58] :: (node.tokens ++ moreMemberTokens members)

def moreMemberTokens : List ((Units × Units) × Node) → List Units
  | [] => []
  | (name, node) :: members =>
    [44] :: name.1 :: [58] :: (node.tokens ++ moreMemberTokens members)

end

/-- A token that says this, read alone. -/
def Quotes (token value : Units) : Prop :=
  ∃ body, token = 34 :: body ∧ scanString body = some (body, value, [])

mutual

def Node.Tidy : Node → Prop
  | .word token => token ∈ [TRUE, FALSE, NULL]
  | .number token => ∃ unit more, token = unit :: more ∧ (unit = 45 ∨ isDigit unit = true)
  | .string token value => Quotes token value
  | .array items => TidyItems items
  | .object members => TidyMembers members

def TidyItems : List Node → Prop
  | [] => True
  | item :: items => item.Tidy ∧ TidyItems items

def TidyMembers : List ((Units × Units) × Node) → Prop
  | [] => True
  | (name, node) :: members => Quotes name.1 name.2 ∧ node.Tidy ∧ TidyMembers members

end

/-- `(?:[^"\\]|\\.)*"`, after an opening quote. -/
def matchQuoted : Units → Option (Units × Units)
  | [] => none
  | unit :: rest =>
    if unit = 34 then some ([34], rest)
    else if unit = 92 then
      match rest with
      | [] => none
      | escaped :: rest => (matchQuoted rest).map fun (token, after) => (92 :: escaped :: token, after)
    else (matchQuoted rest).map fun (token, after) => (unit :: token, after)

def isPunctuation (unit : UInt16) : Bool :=
  unit = 123 || unit = 125 || unit = 91 || unit = 93 || unit = 58 || unit = 44

/-- `"(?:[^"\\]|\\.)*"`. -/
def quoted : Units → Option (Units × Units)
  | [] => none
  | unit :: rest =>
    if unit = 34 then (matchQuoted rest).map fun (token, after) => (34 :: token, after) else none

/-- `[{}\[\]:,]`. -/
def punctuation : Units → Option (Units × Units)
  | [] => none
  | unit :: rest => if isPunctuation unit then some ([unit], rest) else none

/-- The alternatives of the expression, in their order. -/
def alternatives : List (Units → Option (Units × Units)) :=
  [quoted, scanNumber, scanWord TRUE, scanWord FALSE, scanWord NULL, punctuation]

def matchToken (text : Units) : Option (Units × Units) :=
  alternatives.findSome? fun alternative => alternative text

/-- `text.match(expression)` with the flag `g`: every match, from left to right. -/
def tokenizeWith : Nat → Units → List Units
  | 0, _ => []
  | _, [] => []
  | fuel + 1, unit :: rest =>
    match matchToken (unit :: rest) with
    | some (token, after) => token :: tokenizeWith fuel after
    | none => tokenizeWith fuel rest

def tokenize (text : Units) : List Units := tokenizeWith text.length text

/-! ### What a match takes -/

section Parts

variable {text token after : Units}

theorem matchQuoted_parts (found : matchQuoted text = some (token, after)) :
    token ++ after = text := by
  fun_induction matchQuoted text generalizing token with
  | case1 => contradiction
  | case2 rest =>
    cases found
    rfl
  | case3 => contradiction
  | case4 escaped rest _ ih =>
    obtain ⟨⟨token, after⟩, inner, shape⟩ := Option.map_eq_some_iff.mp found
    cases shape
    rw [← ih inner]
    rfl
  | case5 unit rest _ _ ih =>
    obtain ⟨⟨token, after⟩, inner, shape⟩ := Option.map_eq_some_iff.mp found
    cases shape
    rw [← ih inner]
    rfl

theorem scanInteger_parts (found : scanInteger text = some (token, after)) :
    token ++ after = text ∧ token ≠ [] := by
  cases text with
  | nil => contradiction
  | cons unit rest =>
    rw [scanInteger] at found
    split at found
    · next zero =>
      cases found
      exact ⟨by rw [zero]; rfl, by simp⟩
    · split at found
      · cases found
        exact ⟨by rw [List.cons_append, List.takeWhile_append_dropWhile], by simp⟩
      · contradiction

theorem scanFraction_parts (text : Units) : (scanFraction text).1 ++ (scanFraction text).2 = text := by
  unfold scanFraction
  split
  · split
    · rw [List.cons_append, List.cons_append, List.takeWhile_append_dropWhile]
    · rfl
  · rfl

theorem scanSign_parts (text : Units) : (scanSign text).1 ++ (scanSign text).2 = text := by
  cases text with
  | nil => rfl
  | cons sign rest =>
    rw [scanSign]
    split <;> rfl

theorem scanExponent_parts (text : Units) : (scanExponent text).1 ++ (scanExponent text).2 = text := by
  cases text with
  | nil => rfl
  | cons mark rest =>
    rw [scanExponent]
    split
    · have sign := scanSign_parts rest
      split
      · next digit after signed =>
        rw [signed] at sign
        split
        · show (mark :: ((scanSign rest).1 ++ digit :: after.takeWhile isDigit)) ++
            after.dropWhile isDigit = _
          rw [List.cons_append, List.append_assoc, List.cons_append,
            List.takeWhile_append_dropWhile, sign]
        · rfl
      · rfl
    · rfl

variable {rest : Units}

theorem unsigned_parts {unsigned integer : Units}
    (scanned : scanInteger unsigned = some (integer, rest)) :
    (integer ++ (scanFraction rest).1 ++ (scanExponent (scanFraction rest).2).1) ++
      (scanExponent (scanFraction rest).2).2 = unsigned ∧ integer ≠ [] := by
  obtain ⟨parts, some_⟩ := scanInteger_parts scanned
  refine ⟨?_, some_⟩
  rw [List.append_assoc, scanExponent_parts, List.append_assoc, scanFraction_parts, parts]

theorem scanNumber_parts (found : scanNumber text = some (token, after)) :
    token ++ after = text ∧ token ≠ [] := by
  have unsigned : ∀ minus unsigned, ((scanInteger unsigned).map fun scanned =>
      (minus ++ scanned.1 ++ (scanFraction scanned.2).1 ++
        (scanExponent (scanFraction scanned.2).2).1, (scanExponent (scanFraction scanned.2).2).2)) =
          some (token, after) → token ++ after = minus ++ unsigned ∧ token ≠ [] := by
    intro minus unsigned found
    obtain ⟨⟨integer, rest⟩, scanned, shape⟩ := Option.map_eq_some_iff.mp found
    obtain ⟨parts, some_⟩ := unsigned_parts scanned
    cases shape
    constructor
    · rw [← parts]
      simp only [List.append_assoc]
    · simp [some_]
  cases text with
  | nil => contradiction
  | cons unit rest =>
    unfold scanNumber at found
    by_cases minus : unit = 45
    · simp only [if_pos minus] at found
      exact unsigned [unit] rest found
    · simp only [if_neg minus] at found
      exact unsigned [] (unit :: rest) found

def NumberUnit (unit : UInt16) : Prop := isDigit unit = true ∨ unit ∈ [43, 45, 46, 69, 101]

theorem numberUnits_takeWhile (text : Units) : ∀ unit ∈ text.takeWhile isDigit, NumberUnit unit :=
  fun _ among => .inl (List.all_eq_true.mp List.all_takeWhile _ among)

theorem scanInteger_units (found : scanInteger text = some (token, after)) :
    ∀ unit ∈ token, NumberUnit unit := by
  cases text with
  | nil => contradiction
  | cons unit rest =>
    rw [scanInteger] at found
    split at found
    · cases found
      simpa using .inl (by decide)
    · split at found
      · next digit =>
        cases found
        exact List.forall_mem_cons.mpr ⟨.inl digit, numberUnits_takeWhile rest⟩
      · contradiction

theorem scanFraction_units (text : Units) : ∀ unit ∈ (scanFraction text).1, NumberUnit unit := by
  unfold scanFraction
  split
  · split
    · next both =>
      simp only [Bool.and_eq_true, decide_eq_true_eq] at both
      obtain ⟨rfl, digit⟩ := both
      exact List.forall_mem_cons.mpr
        ⟨.inr (by decide), List.forall_mem_cons.mpr ⟨.inl digit, numberUnits_takeWhile _⟩⟩
    · nofun
  · nofun

theorem scanSign_units (text : Units) : ∀ unit ∈ (scanSign text).1, NumberUnit unit := by
  cases text with
  | nil => nofun
  | cons sign rest =>
    rw [scanSign]
    split
    · next either =>
      simp only [Bool.or_eq_true, decide_eq_true_eq] at either
      rcases either with rfl | rfl
      · simpa using .inr (by decide)
      · simpa using .inr (by decide)
    · nofun

theorem scanExponent_units (text : Units) : ∀ unit ∈ (scanExponent text).1, NumberUnit unit := by
  cases text with
  | nil => nofun
  | cons mark rest =>
    rw [scanExponent]
    split
    · next either =>
      have marked : NumberUnit mark := by
        simp only [Bool.or_eq_true, decide_eq_true_eq] at either
        rcases either with rfl | rfl
        · exact .inr (by decide)
        · exact .inr (by decide)
      split
      · split
        · next digit =>
          intro unit among
          simp only [List.mem_append, List.mem_cons] at among
          rcases among with (rfl | signed) | rfl | more
          · exact marked
          · exact scanSign_units rest unit signed
          · exact .inl digit
          · exact numberUnits_takeWhile _ unit more
        · nofun
      · nofun
    · nofun

theorem scanNumber_units (found : scanNumber text = some (token, after)) :
    ∀ unit ∈ token, NumberUnit unit := by
  have unsigned : ∀ minus unsigned, (∀ unit ∈ minus, NumberUnit unit) →
      ((scanInteger unsigned).map fun scanned =>
        (minus ++ scanned.1 ++ (scanFraction scanned.2).1 ++
          (scanExponent (scanFraction scanned.2).2).1,
            (scanExponent (scanFraction scanned.2).2).2)) = some (token, after) →
      ∀ unit ∈ token, NumberUnit unit := by
    intro minus unsigned signed found unit among
    obtain ⟨⟨integer, rest⟩, scanned, shape⟩ := Option.map_eq_some_iff.mp found
    cases shape
    simp only [List.mem_append] at among
    rcases among with ((first | second) | third) | fourth
    · exact signed unit first
    · exact scanInteger_units scanned unit second
    · exact scanFraction_units _ unit third
    · exact scanExponent_units _ unit fourth
  cases text with
  | nil => contradiction
  | cons unit rest =>
    unfold scanNumber at found
    by_cases minus : unit = 45
    · simp only [if_pos minus] at found
      exact unsigned [unit] rest (by simpa [minus] using .inr (by decide)) found
    · simp only [if_neg minus] at found
      exact unsigned [] (unit :: rest) nofun found

variable {unit : UInt16}

theorem numberUnit_plain (number : NumberUnit unit) :
    Units.isSurrogate unit = false := by
  rcases number with digit | among
  · rw [← Bool.not_eq_true, Units.isSurrogate_iff]
    simp only [isDigit, Bool.and_eq_true, decide_eq_true_eq, UInt16.le_iff_toNat_le] at digit
    change 48 ≤ unit.toNat ∧ unit.toNat ≤ 57 at digit
    omega
  · simp only [List.mem_cons, List.not_mem_nil, or_false] at among
    rcases among with rfl | rfl | rfl | rfl | rfl <;> rfl

theorem scanWord_parts {word : Units} (found : scanWord word text = some (token, after))
    (some_ : word ≠ []) : token ++ after = text ∧ token ≠ [] := by
  unfold scanWord at found
  split at found
  · next front =>
    cases found
    obtain ⟨rest, rfl⟩ := List.isPrefixOf_iff_prefix.mp front
    exact ⟨by rw [List.drop_left], some_⟩
  · contradiction

theorem matchToken_parts (found : matchToken text = some (token, after)) :
    token ++ after = text ∧ token ≠ [] := by
  obtain ⟨alternative, among, matched⟩ := List.exists_of_findSome?_eq_some found
  simp only [alternatives, List.mem_cons, List.not_mem_nil, or_false] at among
  rcases among with rfl | rfl | rfl | rfl | rfl | rfl
  · cases text with
    | nil => contradiction
    | cons unit rest =>
      rw [quoted] at matched
      split at matched
      · next quote =>
        obtain ⟨⟨token, after⟩, inner, shape⟩ := Option.map_eq_some_iff.mp matched
        cases shape
        rw [List.cons_append, matchQuoted_parts inner, quote]
        exact ⟨rfl, by simp⟩
      · contradiction
  · exact scanNumber_parts matched
  · exact scanWord_parts matched (by decide)
  · exact scanWord_parts matched (by decide)
  · exact scanWord_parts matched (by decide)
  · cases text with
    | nil => contradiction
    | cons unit rest =>
      rw [punctuation] at matched
      split at matched
      · cases matched
        exact ⟨rfl, by simp⟩
      · contradiction

theorem matchToken_shorter (found : matchToken text = some (token, after)) :
    after.length < text.length := by
  obtain ⟨parts, some_⟩ := matchToken_parts found
  have positive := List.length_pos_iff.mpr some_
  rw [← parts, List.length_append]
  omega

theorem tokenizeWith_enough {fuel more : Nat} (enough : text.length ≤ fuel)
    (enough' : text.length ≤ more) : tokenizeWith fuel text = tokenizeWith more text := by
  induction fuel generalizing text more with
  | zero =>
    have empty := List.length_eq_zero_iff.mp (Nat.le_zero.mp enough)
    subst empty
    cases more <;> rfl
  | succ fuel ih =>
    cases text with
    | nil => cases more <;> rfl
    | cons unit rest =>
      cases more with
      | zero => simp at enough'
      | succ more =>
        rw [tokenizeWith, tokenizeWith]
        cases found : matchToken (unit :: rest) with
        | none =>
          simp only [List.length_cons] at enough enough'
          exact ih (by omega) (by omega)
        | some matched =>
          obtain ⟨token, after⟩ := matched
          have shorter := matchToken_shorter found
          simp only [List.length_cons] at enough enough' shorter
          dsimp only
          rw [@ih after more (by omega) (by omega)]

theorem tokenize_match (found : matchToken text = some (token, after)) :
    tokenize text = token :: tokenize after := by
  have shorter := matchToken_shorter found
  cases text with
  | nil => simp at shorter
  | cons unit rest =>
    rw [tokenize, List.length_cons, tokenizeWith, found]
    dsimp only
    rw [tokenize, tokenizeWith_enough]
    · simp only [List.length_cons] at shorter
      omega
    · exact Nat.le_refl _

theorem scanNumber_space (space : isBlank unit = true) (rest : Units) :
    scanNumber (unit :: rest) = none := by
  simp only [isBlank, Bool.or_eq_true, decide_eq_true_eq] at space
  rcases space with ((rfl | rfl) | rfl) | rfl <;> rfl

theorem tokenize_space (space : isBlank unit = true) (rest : Units) :
    tokenize (unit :: rest) = tokenize rest := by
  have nothing : matchToken (unit :: rest) = none := by
    have number := scanNumber_space space rest
    simp only [isBlank, Bool.or_eq_true, decide_eq_true_eq] at space
    rw [matchToken, List.findSome?_eq_none_iff]
    intro alternative among
    simp only [alternatives, List.mem_cons, List.not_mem_nil, or_false] at among
    rcases among with rfl | rfl | rfl | rfl | rfl | rfl
    · rcases space with ((rfl | rfl) | rfl) | rfl <;> rfl
    · exact number
    · rcases space with ((rfl | rfl) | rfl) | rfl <;> rfl
    · rcases space with ((rfl | rfl) | rfl) | rfl <;> rfl
    · rcases space with ((rfl | rfl) | rfl) | rfl <;> rfl
    · rcases space with ((rfl | rfl) | rfl) | rfl <;> rfl
  rw [tokenize, List.length_cons, tokenizeWith, nothing]
  rfl

theorem tokenize_skip (text : Units) : tokenize (skip text) = tokenize text := by
  induction text with
  | nil => rfl
  | cons unit rest ih =>
    rw [skip, List.dropWhile_cons]
    split
    · next space => rw [tokenize_space space, ← ih, skip]
    · rfl

/-! ### The tokens of what is read -/

theorem matchQuoted_close (rest : Units) : matchQuoted (34 :: rest) = some ([34], rest) := by
  unfold matchQuoted
  exact if_pos rfl

theorem matchQuoted_escape {escaped : UInt16} (found : matchQuoted rest = some (token, after)) :
    matchQuoted (92 :: escaped :: rest) = some (92 :: escaped :: token, after) := by
  rw [matchQuoted, if_neg (by decide), if_pos rfl, found]
  rfl

theorem matchQuoted_plain (open_ : unit ≠ 34) (plain : unit ≠ 92)
    (found : matchQuoted rest = some (token, after)) :
    matchQuoted (unit :: rest) = some (unit :: token, after) := by
  unfold matchQuoted
  dsimp only
  rw [if_neg open_, if_neg plain, found]
  rfl

theorem hexValue_plain {digit : Nat} (hex : hexValue unit = some digit) :
    unit ≠ 34 ∧ unit ≠ 92 := by
  constructor
  · rintro rfl
    contradiction
  · rintro rfl
    contradiction

theorem unitOf_digits {first second third fourth : UInt16}
    (read : unitOf first second third fourth = some unit) :
    (∃ digit, hexValue first = some digit) ∧ (∃ digit, hexValue second = some digit) ∧
      (∃ digit, hexValue third = some digit) ∧ ∃ digit, hexValue fourth = some digit := by
  obtain ⟨one, isFirst, read⟩ := Option.bind_eq_some_iff.mp read
  obtain ⟨two, isSecond, read⟩ := Option.bind_eq_some_iff.mp read
  obtain ⟨three, isThird, read⟩ := Option.bind_eq_some_iff.mp read
  obtain ⟨four, isFourth, -⟩ := Option.bind_eq_some_iff.mp read
  exact ⟨⟨one, isFirst⟩, ⟨two, isSecond⟩, ⟨three, isThird⟩, ⟨four, isFourth⟩⟩

theorem matchQuoted_of_scanString {value : Units}
    (scanned : scanString text = some (token, value, after)) :
    matchQuoted text = some (token, after) := by
  fun_induction scanString text generalizing token value with
  | case1 => contradiction
  | case2 rest =>
    cases scanned
    exact matchQuoted_close _
  | case3 => contradiction
  | case4 first second third fourth rest unit inner said left read hex _ ih =>
    cases scanned
    obtain ⟨⟨_, one⟩, ⟨_, two⟩, ⟨_, three⟩, ⟨_, four⟩⟩ := unitOf_digits hex
    have digits := ih read
    have digits := matchQuoted_plain (hexValue_plain four).1 (hexValue_plain four).2 digits
    have digits := matchQuoted_plain (hexValue_plain three).1 (hexValue_plain three).2 digits
    have digits := matchQuoted_plain (hexValue_plain two).1 (hexValue_plain two).2 digits
    have digits := matchQuoted_plain (hexValue_plain one).1 (hexValue_plain one).2 digits
    exact matchQuoted_escape digits
  | case5 => contradiction
  | case6 => contradiction
  | case7 escaped rest _ unit inner said left read _ _ ih =>
    cases scanned
    exact matchQuoted_escape (ih read)
  | case8 => contradiction
  | case9 => contradiction
  | case10 unit rest open_ plain _ inner said left read ih =>
    cases scanned
    exact matchQuoted_plain open_ plain (ih read)
  | case11 => contradiction

theorem tokenize_string {value : Units} (scanned : scanString text = some (token, value, after)) :
    tokenize (34 :: text) = (34 :: token) :: tokenize after := by
  refine tokenize_match ?_
  rw [matchToken, alternatives, List.findSome?_cons, quoted, if_pos rfl,
    matchQuoted_of_scanString scanned]
  rfl

theorem tokenize_punctuation (mark : isPunctuation unit = true) (rest : Units) :
    tokenize (unit :: rest) = [unit] :: tokenize rest := by
  refine tokenize_match ?_
  simp only [isPunctuation, Bool.or_eq_true, decide_eq_true_eq] at mark
  rcases mark with ((((rfl | rfl) | rfl) | rfl) | rfl) | rfl <;> rfl

theorem tokenize_number (open_ : unit ≠ 34)
    (scanned : scanNumber (unit :: rest) = some (token, after)) :
    tokenize (unit :: rest) = token :: tokenize after := by
  refine tokenize_match ?_
  rw [matchToken, alternatives, List.findSome?_cons, quoted, if_neg open_, List.findSome?_cons,
    scanned]

theorem tokenize_word {word : Units} (among : word ∈ [TRUE, FALSE, NULL])
    (scanned : scanWord word text = some (token, after)) :
    tokenize text = token :: tokenize after := by
  refine tokenize_match ?_
  unfold scanWord at scanned
  split at scanned
  · next front =>
    obtain ⟨rest, rfl⟩ := List.isPrefixOf_iff_prefix.mp front
    rw [List.drop_left] at scanned
    cases scanned
    simp only [List.mem_cons, List.not_mem_nil, or_false] at among
    rcases among with rfl | rfl | rfl <;> rfl
  · contradiction

theorem moreItemTokens_eq {items : List Node} (some_ : items ≠ []) :
    moreItemTokens items = [44] :: itemTokens items := by
  cases items with
  | nil => contradiction
  | cons item items => rfl

theorem moreMemberTokens_eq {members : List ((Units × Units) × Node)} (some_ : members ≠ []) :
    moreMemberTokens members = [44] :: memberTokens members := by
  cases members with
  | nil => contradiction
  | cons member members => rfl

theorem tokenize_skipped (begins : skip text = unit :: rest) :
    tokenize text = tokenize (unit :: rest) := by
  rw [← tokenize_skip text, begins]

theorem scanNumber_begins (scanned : scanNumber (unit :: rest) = some (token, after)) :
    unit = 45 ∨ isDigit unit = true := by
  unfold scanNumber at scanned
  by_cases minus : unit = 45
  · exact .inl minus
  · simp only [if_neg minus] at scanned
    obtain ⟨found, integral, -⟩ := Option.map_eq_some_iff.mp scanned
    rw [scanInteger] at integral
    split at integral
    · next zero =>
      rw [zero]
      exact .inr (by decide)
    · split at integral
      · next digit => exact .inr digit
      · contradiction

theorem scanNumber_tidy (scanned : scanNumber (unit :: rest) = some (token, after)) :
    (Node.number token).Tidy := by
  obtain ⟨parts, some_⟩ := scanNumber_parts scanned
  cases token with
  | nil => contradiction
  | cons first more =>
    have same : first = unit := by
      rw [List.cons_append] at parts
      exact List.head_eq_of_cons_eq parts
    exact ⟨first, more, rfl, same ▸ scanNumber_begins scanned⟩

theorem scanWord_token {word : Units} (scanned : scanWord word text = some (token, after)) :
    token = word := by
  unfold scanWord at scanned
  split at scanned
  · cases scanned
    rfl
  · contradiction

theorem scanString_token {value : Units} (scanned : scanString text = some (token, value, after)) :
    scanString token = some (token, value, []) := by
  fun_induction scanString text generalizing token value with
  | case1 => contradiction
  | case2 rest =>
    cases scanned
    unfold scanString
    exact if_pos rfl
  | case3 => contradiction
  | case4 first second third fourth rest unit inner said left read hex _ ih =>
    cases scanned
    rw [scanString, if_neg (by decide), if_pos rfl, if_pos rfl, hex, ih read]
  | case5 => contradiction
  | case6 => contradiction
  | case7 escaped rest other unit inner said left read simple _ ih =>
    cases scanned
    unfold scanString
    rw [if_neg (by decide), if_pos rfl]
    dsimp only
    rw [if_neg other, simple, ih read]
  | case8 => contradiction
  | case9 => contradiction
  | case10 unit rest open_ plain printed inner said left read ih =>
    cases scanned
    unfold scanString
    rw [if_neg open_, if_neg plain, if_neg printed, ih read]
  | case11 => contradiction

theorem tokenize_scalar {node : Node} (open_ : unit ≠ 34)
    (scanned : ((((scanWord TRUE (unit :: rest)).or (scanWord FALSE (unit :: rest))).or
      (scanWord NULL (unit :: rest))).map (fun scanned => (Node.word scanned.1, scanned.2)) |>.or
        ((scanNumber (unit :: rest)).map fun scanned => (Node.number scanned.1, scanned.2))) =
          some (node, after)) :
    node.Tidy ∧ tokenize (unit :: rest) = node.tokens ++ tokenize after := by
  rw [Option.or_eq_some_iff] at scanned
  rcases scanned with word | ⟨-, number⟩
  · obtain ⟨⟨token, left⟩, found, shape⟩ := Option.map_eq_some_iff.mp word
    cases shape
    rw [Option.or_eq_some_iff, Option.or_eq_some_iff] at found
    have word : ∃ word ∈ [TRUE, FALSE, NULL], scanWord word (unit :: rest) = some (token, left) := by
      rcases found with (isTrue | ⟨-, isFalse⟩) | ⟨-, isNull⟩
      · exact ⟨TRUE, by decide, isTrue⟩
      · exact ⟨FALSE, by decide, isFalse⟩
      · exact ⟨NULL, by decide, isNull⟩
    obtain ⟨word, among, isWord⟩ := word
    have same := scanWord_token isWord
    subst same
    exact ⟨among, tokenize_word among isWord⟩
  · obtain ⟨⟨token, left⟩, found, shape⟩ := Option.map_eq_some_iff.mp number
    cases shape
    exact ⟨scanNumber_tidy found, tokenize_number open_ found⟩

theorem tokenize_parse (fuel : Nat) :
    (∀ text node rest, parseNode fuel text = some (node, rest) →
      node.Tidy ∧ tokenize text = node.tokens ++ tokenize rest) ∧
    (∀ text items rest, parseItems fuel text = some (items, rest) →
      items ≠ [] ∧ TidyItems items ∧ tokenize text = itemTokens items ++ [93] :: tokenize rest) ∧
    ∀ text members rest, parseMembers fuel text = some (members, rest) →
      members ≠ [] ∧ TidyMembers members ∧
        tokenize text = memberTokens members ++ [125] :: tokenize rest := by
  induction fuel with
  | zero => exact ⟨nofun, nofun, nofun⟩
  | succ fuel ih =>
    obtain ⟨nodes, items, members⟩ := ih
    refine ⟨fun text node rest parsed => ?_, fun text list rest parsed => ?_,
      fun text list rest parsed => ?_⟩
    · rw [parseNode] at parsed
      cases begins : skip text with
      | nil => simp [begins] at parsed
      | cons unit tail =>
        rw [tokenize_skipped begins]
        simp only [begins] at parsed
        split at parsed
        · next quote =>
          obtain ⟨⟨token, value, after⟩, scanned, shape⟩ := Option.map_eq_some_iff.mp parsed
          cases shape
          rw [quote, tokenize_string scanned]
          exact ⟨⟨token, rfl, scanString_token scanned⟩, rfl⟩
        · next open_ =>
          split at parsed
          · next bracket =>
            rw [bracket, tokenize_punctuation (by decide)]
            cases inside : skip tail with
            | nil => simp [inside] at parsed
            | cons next after =>
              simp only [inside] at parsed
              rw [tokenize_skipped inside]
              split at parsed
              · next closes =>
                cases parsed
                rw [closes, tokenize_punctuation (by decide)]
                exact ⟨trivial, rfl⟩
              · obtain ⟨⟨list, left⟩, walked, shape⟩ := Option.map_eq_some_iff.mp parsed
                cases shape
                obtain ⟨-, tidy, same⟩ := items _ _ _ walked
                rw [same]
                exact ⟨tidy, by simp [Node.tokens]⟩
          · split at parsed
            · next brace =>
              rw [brace, tokenize_punctuation (by decide)]
              cases inside : skip tail with
              | nil => simp [inside] at parsed
              | cons next after =>
                simp only [inside] at parsed
                rw [tokenize_skipped inside]
                split at parsed
                · next closes =>
                  cases parsed
                  rw [closes, tokenize_punctuation (by decide)]
                  exact ⟨trivial, rfl⟩
                · obtain ⟨⟨list, left⟩, walked, shape⟩ := Option.map_eq_some_iff.mp parsed
                  cases shape
                  obtain ⟨-, tidy, same⟩ := members _ _ _ walked
                  rw [same]
                  exact ⟨tidy, by simp [Node.tokens]⟩
            · exact tokenize_scalar open_ parsed
    · rw [parseItems] at parsed
      cases first : parseNode fuel text with
      | none => simp [first] at parsed
      | some found =>
        obtain ⟨item, tail⟩ := found
        obtain ⟨tidy, same⟩ := nodes _ _ _ first
        rw [same]
        simp only [first] at parsed
        cases begins : skip tail with
        | nil => simp [begins] at parsed
        | cons next after =>
          rw [tokenize_skipped begins]
          simp only [begins] at parsed
          split at parsed
          · next closes =>
            cases parsed
            rw [closes, tokenize_punctuation (by decide)]
            exact ⟨by simp, ⟨tidy, trivial⟩, by simp [itemTokens, moreItemTokens]⟩
          · split at parsed
            · next comma =>
              obtain ⟨⟨others, left⟩, walked, shape⟩ := Option.map_eq_some_iff.mp parsed
              cases shape
              obtain ⟨some_, tidy', same'⟩ := items _ _ _ walked
              rw [comma, tokenize_punctuation (by decide), same']
              refine ⟨by simp, ⟨tidy, tidy'⟩, ?_⟩
              rw [itemTokens, moreItemTokens_eq some_]
              simp
            · contradiction
    · rw [parseMembers] at parsed
      cases begins : skip text with
      | nil => simp [begins] at parsed
      | cons quote tail =>
        rw [tokenize_skipped begins]
        simp only [begins] at parsed
        split at parsed
        · next opens =>
          cases scanned : scanString tail with
          | none => simp [scanned] at parsed
          | some found =>
            obtain ⟨token, name, named⟩ := found
            have quotes : Quotes (34 :: token) name := ⟨token, rfl, scanString_token scanned⟩
            rw [opens, tokenize_string scanned]
            simp only [scanned] at parsed
            cases colons : skip named with
            | nil => simp [colons] at parsed
            | cons colon valued =>
              rw [tokenize_skipped colons]
              simp only [colons] at parsed
              split at parsed
              · next isColon =>
                rw [isColon, tokenize_punctuation (by decide)]
                cases first : parseNode fuel valued with
                | none => simp [first] at parsed
                | some found =>
                  obtain ⟨node, after⟩ := found
                  obtain ⟨tidy, same⟩ := nodes _ _ _ first
                  rw [same]
                  simp only [first] at parsed
                  cases ends : skip after with
                  | nil => simp [ends] at parsed
                  | cons next left =>
                    rw [tokenize_skipped ends]
                    simp only [ends] at parsed
                    split at parsed
                    · next closes =>
                      cases parsed
                      rw [closes, tokenize_punctuation (by decide)]
                      exact ⟨by simp, ⟨quotes, tidy, trivial⟩,
                        by simp [memberTokens, moreMemberTokens]⟩
                    · split at parsed
                      · next comma =>
                        obtain ⟨⟨others, left⟩, walked, shape⟩ :=
                          Option.map_eq_some_iff.mp parsed
                        cases shape
                        obtain ⟨some_, tidy', same'⟩ := members _ _ _ walked
                        rw [comma, tokenize_punctuation (by decide), same']
                        refine ⟨by simp, ⟨quotes, tidy, tidy'⟩, ?_⟩
                        rw [memberTokens, moreMemberTokens_eq some_]
                        simp
                      · contradiction
              · contradiction
        · contradiction

theorem tokenize_parseText {node : Node} (parsed : parseText text = some node) :
    node.Tidy ∧ tokenize text = node.tokens := by
  unfold parseText at parsed
  split at parsed
  · contradiction
  · next found rest read =>
    split at parsed
    · next ends =>
      cases parsed
      have nothing : tokenize rest = [] := by
        rw [← tokenize_skip, ends]
        rfl
      obtain ⟨tidy, same⟩ := (tokenize_parse _).1 _ _ _ read
      rw [same, nothing, List.append_nil]
      exact ⟨tidy, rfl⟩
    · contradiction

end Parts

end NostrWot.Data.JsonSyntax
