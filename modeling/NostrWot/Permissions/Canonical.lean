import NostrWot.Permissions.Origin
import Mathlib.Data.List.Induction
import Mathlib.Tactic.IntervalCases

namespace NostrWot.Permissions

/-! # One spelling

A canonical origin is its own canonical origin: what `canonicalOrigin` writes,
it reads back and writes again.
-/

/-! ## Digits -/

theorem digitValue_digitChar {digit : Nat} (below : digit < 16) :
    digitValue digit.digitChar = digit := by
  interval_cases digit <;> decide

/-- A character of a number that `Nat.toDigits` writes. -/
def isWritten (char : Char) : Bool := char.isDigit || ('a' ≤ char && char ≤ 'f')

theorem isWritten_digitChar {digit : Nat} (below : digit < 16) :
    isWritten digit.digitChar = true := by
  interval_cases digit <;> decide

theorem parseInt_append (base : Nat) (text : Text) (char : Char) :
    parseInt base (text ++ [char]) = parseInt base text * base + digitValue char := by
  simp [parseInt, List.foldl_append]

theorem parseInt_toDigits {base : Nat} (large : 1 < base) (small : base ≤ 16) (value : Nat) :
    parseInt base (Nat.toDigits base value) = value := by
  induction value using Nat.strongRecOn with
  | ind value ih =>
    rw [Nat.toDigits_eq_if large]
    split
    · next below =>
      have single : parseInt base [value.digitChar] = digitValue value.digitChar := by
        simp [parseInt]
      rw [single, digitValue_digitChar (by omega)]
    · next above =>
      have shorter : value / base < value := Nat.div_lt_self (by omega) large
      have last : value % base < base := Nat.mod_lt _ (by omega)
      rw [parseInt_append, ih _ shorter, digitValue_digitChar (by omega)]
      exact Nat.div_add_mod' value base

theorem isWritten_toDigits {base : Nat} (large : 1 < base) (small : base ≤ 16) (value : Nat) :
    ∀ char ∈ Nat.toDigits base value, isWritten char = true := by
  induction value using Nat.strongRecOn with
  | ind value ih =>
    rw [Nat.toDigits_eq_if large]
    intro char member
    split at member
    · next below =>
      rw [List.mem_singleton.mp member]
      exact isWritten_digitChar (by omega)
    · next above =>
      have shorter : value / base < value := Nat.div_lt_self (by omega) large
      have last : value % base < base := Nat.mod_lt _ (by omega)
      rcases List.mem_append.mp member with front | final
      · exact ih _ shorter char front
      · rw [List.mem_singleton.mp final]
        exact isWritten_digitChar (by omega)

theorem isDigit_toDigits (value : Nat) : ∀ char ∈ Nat.toDigits 10 value, char.isDigit = true :=
  fun _ => Nat.isDigit_of_mem_toDigits (by decide) (by decide)

variable {char : Char}

theorem digitValue_lt (hex : isHexDigit char = true) : digitValue char < 16 := by
  unfold isHexDigit at hex
  unfold digitValue
  simp only [Bool.or_eq_true, Bool.and_eq_true, decide_eq_true_eq] at hex
  have digit : char.isDigit = true → char.toNat ≤ 57 := by
    intro is
    simp only [Char.isDigit, Bool.and_eq_true, decide_eq_true_eq] at is
    exact is.2
  have order : ∀ left right : Char, left ≤ right ↔ left.toNat ≤ right.toNat := fun _ _ => Iff.rfl
  split
  · next is =>
    have bound := digit is
    have zero : '0'.toNat = 48 := rfl
    omega
  · next other =>
    split
    · next lower =>
      simp only [Bool.and_eq_true, decide_eq_true_eq, order] at lower
      have first : 'a'.toNat = 97 := rfl
      have last : 'f'.toNat = 102 := rfl
      omega
    · next higher =>
      rcases hex with (is | lower) | upper
      · exact absurd is other
      · exact absurd lower (by simpa using higher)
      · simp only [order] at upper
        have first : 'A'.toNat = 65 := rfl
        have last : 'F'.toNat = 70 := rfl
        omega

variable {text : Text}

theorem parseInt_lt (hex : ∀ char ∈ text, isHexDigit char = true) :
    parseInt 16 text < 16 ^ text.length := by
  induction text using List.reverseRecOn with
  | nil => decide
  | append_singleton front char ih =>
    have rest := ih fun other member => hex other (List.mem_append_left _ member)
    have last := digitValue_lt (hex char (by simp))
    rw [parseInt_append, List.length_append, List.length_singleton, Nat.pow_succ]
    omega

/-! ## Runs of zeros -/

theorem zeroRuns_zero (start : Nat) (groups : List Nat) :
    ∀ run ∈ zeroRuns start groups, start ≤ run.1 ∧ run.1 + run.2 ≤ start + groups.length ∧
      ∀ index, run.1 ≤ index → index < run.1 + run.2 → groups[index - start]? = some 0 := by
  induction groups generalizing start with
  | nil =>
    intro run member
    contradiction
  | cons group rest ih =>
    have later : ∀ run ∈ zeroRuns (start + 1) rest, start ≤ run.1 ∧
        run.1 + run.2 ≤ start + (group :: rest).length ∧
        ∀ index, run.1 ≤ index → index < run.1 + run.2 →
          (group :: rest)[index - start]? = some 0 := by
      intro run member
      obtain ⟨first, below, zeros⟩ := ih (start + 1) run member
      refine ⟨by omega, by simp only [List.length_cons]; omega, fun index above under => ?_⟩
      have shift : index - start = index - (start + 1) + 1 := by omega
      rw [shift, List.getElem?_cons_succ]
      exact zeros index above under
    intro run member
    unfold zeroRuns at member
    split at member
    · exact later run member
    · next zero =>
      have none : group = 0 := by simpa using zero
      have here : (group :: rest)[start - start]? = some 0 := by
        rw [Nat.sub_self, List.getElem?_cons_zero, none]
      split at member
      · next other length runs found =>
        have next := later (other, length) (by rw [found]; exact List.mem_cons_self)
        split at member
        · next adjacent =>
          rcases List.mem_cons.mp member with same | among
          · subst same
            refine ⟨Nat.le_refl _, ?_, fun index above under => ?_⟩
            · have below := next.2.1
              simp only at below ⊢
              omega
            · by_cases first : index = start
              · rw [first]
                exact here
              · exact next.2.2 index (by simp only; simp only at above; omega)
                  (by simp only; simp only at under; omega)
          · exact later run (by rw [found]; exact List.mem_cons_of_mem _ among)
        · rcases List.mem_cons.mp member with same | among
          · subst same
            refine ⟨Nat.le_refl _, by simp, fun index above under => ?_⟩
            have first : index = start := by simp only at above under; omega
            rw [first]
            exact here
          · exact later run (by rw [found]; exact among)
      · next found =>
        rw [List.mem_singleton] at member
        subst member
        refine ⟨Nat.le_refl _, by simp, fun index above under => ?_⟩
        have first : index = start := by simp only at above under; omega
        rw [first]
        exact here

variable {groups : List Nat}

theorem longestZeroRun_mem {run : Nat × Nat} (longest : longestZeroRun groups = some run) :
    run ∈ zeroRuns 0 groups ∧ 2 ≤ run.2 := by
  have every : ∀ run, longestZeroRun groups = some run → run ∈ zeroRuns 0 groups ∧ 2 ≤ run.2 := by
    unfold longestZeroRun
    refine List.foldlRecOn (motive := fun best : Option (Nat × Nat) =>
      ∀ run, best = some run → run ∈ zeroRuns 0 groups ∧ 2 ≤ run.2) _ _ (by simp)
      fun best held first member => ?_
    intro run chosen
    split at chosen
    · exact held run chosen
    · next long =>
      split at chosen
      · split at chosen
        · cases chosen
          exact ⟨member, by omega⟩
        · exact held run chosen
      · cases chosen
        exact ⟨member, by omega⟩
  exact every run longest

theorem groups_of_run {start length : Nat}
    (longest : longestZeroRun groups = some (start, length)) :
    start + length ≤ groups.length ∧ 2 ≤ length ∧
      groups.take start ++ List.replicate length 0 ++ groups.drop (start + length) = groups := by
  obtain ⟨member, long⟩ := longestZeroRun_mem longest
  obtain ⟨-, within, zeros⟩ := zeroRuns_zero 0 groups _ member
  simp only [Nat.zero_add, Nat.sub_zero] at within zeros
  refine ⟨within, long, ?_⟩
  apply List.ext_getElem?
  intro index
  rw [List.append_assoc, List.getElem?_append, List.getElem?_append, List.length_take,
    List.length_replicate]
  have front : min start groups.length = start := by omega
  rw [front]
  split
  · next before =>
    rw [List.getElem?_take_of_lt before]
  · next after =>
    split
    · next inside =>
      rw [List.getElem?_replicate_of_lt inside]
      exact (zeros index (by omega) (by omega)).symm
    · next beyond =>
      rw [List.getElem?_drop]
      congr 1
      omega

/-! ## Groups -/

/-- A group as it is written: not empty, and no separator in it. -/
def Grouped (part : Text) : Prop := part ≠ [] ∧ ':' ∉ part

theorem grouped_toDigits (group : Nat) : Grouped (Nat.toDigits 16 group) := by
  refine ⟨Nat.toDigits_ne_nil, fun member => ?_⟩
  exact absurd (isWritten_toDigits (by decide) (by decide) group _ member) (by decide)

theorem splitOnDoubleColon_ne_nil (text : Text) : splitOnDoubleColon text ≠ [] := by
  fun_induction splitOnDoubleColon text <;> simp

theorem splitOnDoubleColon_cons {rest : Text} (single : char ≠ ':' ∨ rest.head? ≠ some ':') :
    splitOnDoubleColon (char :: rest) = (splitOnDoubleColon rest).modifyHead (char :: ·) := by
  have rest_ne := splitOnDoubleColon_ne_nil rest
  cases parts : splitOnDoubleColon rest with
  | nil => exact absurd parts rest_ne
  | cons part parts' =>
    rw [splitOnDoubleColon]
    · rw [parts]
      rfl
    · rintro tail rfl rfl
      simp at single

variable {part : Text}

theorem splitOnDoubleColon_part (grouped : ':' ∉ part) (rest : Text) :
    splitOnDoubleColon (part ++ rest) = (splitOnDoubleColon rest).modifyHead (part ++ ·) := by
  induction part with
  | nil =>
    cases parts : splitOnDoubleColon rest with
    | nil => exact absurd parts (splitOnDoubleColon_ne_nil rest)
    | cons first others => simp [parts]
  | cons char tail ih =>
    have other : char ≠ ':' := fun same => grouped (same ▸ List.mem_cons_self)
    rw [List.cons_append, splitOnDoubleColon_cons (.inl other),
      ih fun member => grouped (List.mem_cons_of_mem _ member)]
    cases splitOnDoubleColon rest <;> rfl

theorem splitOnDoubleColon_join {parts : List Text} (grouped : ∀ part ∈ parts, Grouped part)
    (rest : Text) :
    splitOnDoubleColon (join [':'] parts ++ rest) =
      (splitOnDoubleColon rest).modifyHead (join [':'] parts ++ ·) := by
  induction parts with
  | nil =>
    cases split : splitOnDoubleColon rest with
    | nil => exact absurd split (splitOnDoubleColon_ne_nil rest)
    | cons first others => simp [join, split]
  | cons part parts ih =>
    have own := grouped part List.mem_cons_self
    have others := ih fun other member => grouped other (List.mem_cons_of_mem _ member)
    cases parts with
    | nil =>
      simpa [join] using splitOnDoubleColon_part own.2 rest
    | cons next after =>
      have spelled : join [':'] (part :: next :: after) =
          part ++ ':' :: join [':'] (next :: after) := by
        simp [join]
      obtain ⟨filled, free⟩ := grouped next (by simp)
      have apart : (join [':'] (next :: after) ++ rest).head? ≠ some ':' := by
        cases next with
        | nil => contradiction
        | cons char tail =>
          have other : char ≠ ':' := fun same => free (same ▸ List.mem_cons_self)
          cases after <;> simpa [join] using other
      rw [spelled, List.append_assoc, splitOnDoubleColon_part own.2, List.cons_append,
        splitOnDoubleColon_cons (.inr apart), others]
      cases splitOnDoubleColon rest <;> simp

theorem parseGroups_join (small : ∀ group ∈ groups, group < 65536) :
    parseGroups (join [':'] (groups.map (Nat.toDigits 16))) = some groups := by
  have grouped : ∀ part ∈ groups.map (Nat.toDigits 16), Grouped part := by
    intro part member
    obtain ⟨group, _, rfl⟩ := List.mem_map.mp member
    exact grouped_toDigits group
  cases groups with
  | nil => rfl
  | cons group rest =>
    have filled : (join [':'] ((group :: rest).map (Nat.toDigits 16))).isEmpty = false := by
      obtain ⟨nonempty, -⟩ := grouped_toDigits group
      cases written : Nat.toDigits 16 group with
      | nil => exact absurd written nonempty
      | cons char tail => cases rest <;> simp [join, written]
    unfold parseGroups
    rw [filled, if_neg (by decide), join,
      List.splitOn_intercalate ':' (fun part member => (grouped part member).2) (by simp)]
    have each : ∀ groups : List Nat, (∀ group ∈ groups, group < 65536) →
        (groups.map (Nat.toDigits 16)).mapM (fun group =>
          if group.isEmpty || 4 < group.length then none else some (parseInt 16 group)) =
          some groups := by
      intro groups
      induction groups with
      | nil => exact fun _ => rfl
      | cons first others ih =>
        intro small
        have length := (Nat.length_toDigits_le_iff (b := 16) (n := first) (by decide)
          (k := 4) (by decide)).mpr (small first List.mem_cons_self)
        have nonempty : (Nat.toDigits 16 first).isEmpty = false := by
          simp [Nat.toDigits_ne_nil]
        simp only [List.map_cons, List.mapM_cons, nonempty, Bool.false_or,
          decide_eq_true_eq, Nat.not_lt.mpr length, if_false,
          parseInt_toDigits (by decide : 1 < 16) (by decide : 16 ≤ 16),
          ih fun group member => small group (List.mem_cons_of_mem _ member)]
        rfl
    exact each _ small

theorem mem_splitOnDoubleColon (member : part ∈ splitOnDoubleColon text) :
    ∀ char ∈ part, char ∈ text := by
  fun_induction splitOnDoubleColon text generalizing part with
  | case1 =>
    rw [List.mem_singleton.mp member]
    intro char absurd_
    contradiction
  | case2 rest ih =>
    intro char inside
    rcases List.mem_cons.mp member with rfl | among
    · contradiction
    · exact List.mem_cons_of_mem _ (List.mem_cons_of_mem _ (ih among char inside))
  | case3 first rest _ head tail split ih =>
    intro char inside
    rcases List.mem_cons.mp member with rfl | among
    · rcases List.mem_cons.mp inside with rfl | behind
      · exact List.mem_cons_self
      · exact List.mem_cons_of_mem _ (ih (by rw [split]; exact List.mem_cons_self) char behind)
    · exact List.mem_cons_of_mem _ (ih (by rw [split]; exact List.mem_cons_of_mem _ among) char inside)
  | case4 first rest _ split ih => exact absurd split (splitOnDoubleColon_ne_nil rest)

theorem mem_splitOn {separator : Char} (member : part ∈ text.splitOn separator) :
    ∀ char ∈ part, char ∈ text ∧ char ≠ separator := by
  induction text generalizing part with
  | nil =>
    rw [List.splitOn_nil, List.mem_singleton] at member
    rw [member]
    intro char absurd_
    contradiction
  | cons first rest ih =>
    rw [List.splitOn_cons_eq_if_modifyHead] at member
    intro char inside
    split at member
    · rcases List.mem_cons.mp member with rfl | among
      · contradiction
      · obtain ⟨held, other⟩ := ih among char inside
        exact ⟨List.mem_cons_of_mem _ held, other⟩
    · next different =>
      cases split : rest.splitOn separator with
      | nil => exact absurd split (List.splitOn_ne_nil _ _)
      | cons head tail =>
        rw [split] at member
        rcases List.mem_cons.mp member with rfl | among
        · rcases List.mem_cons.mp inside with rfl | behind
          · exact ⟨List.mem_cons_self, by simpa using different⟩
          · obtain ⟨held, other⟩ :=
              ih (by rw [split]; exact List.mem_cons_self) char behind
            exact ⟨List.mem_cons_of_mem _ held, other⟩
        · obtain ⟨held, other⟩ :=
            ih (by rw [split]; exact List.mem_cons_of_mem _ among) char inside
          exact ⟨List.mem_cons_of_mem _ held, other⟩

theorem parseGroups_lt (parsed : parseGroups part = some groups)
    (hex : ∀ char ∈ part, char = ':' ∨ isHexDigit char = true) :
    ∀ group ∈ groups, group < 65536 := by
  unfold parseGroups at parsed
  split at parsed
  · cases parsed
    intro group absurd_
    contradiction
  · have each : ∀ (texts : List Text) (groups : List Nat),
        (∀ text ∈ texts, ∀ char ∈ text, isHexDigit char = true) →
        texts.mapM (fun group =>
          if group.isEmpty || 4 < group.length then none else some (parseInt 16 group)) =
          some groups → ∀ group ∈ groups, group < 65536 := by
      intro texts
      induction texts with
      | nil =>
        intro groups _ parsed
        cases parsed
        intro group absurd_
        contradiction
      | cons text rest ih =>
        intro groups hex parsed
        rw [List.mapM_cons] at parsed
        obtain ⟨first, read, parsed⟩ := Option.bind_eq_some_iff.mp parsed
        obtain ⟨others, more, parsed⟩ := Option.bind_eq_some_iff.mp parsed
        cases parsed
        intro group member
        rcases List.mem_cons.mp member with rfl | among
        · split at read
          · contradiction
          · next fits =>
            cases read
            have bound := parseInt_lt (hex text List.mem_cons_self)
            have short : text.length ≤ 4 := by
              simp only [Bool.or_eq_true, decide_eq_true_eq, not_or] at fits
              omega
            exact bound.trans_le (Nat.pow_le_pow_right (by decide) short)
        · exact ih others (fun other among => hex other (List.mem_cons_of_mem _ among)) more group among
    refine each _ groups (fun text member char inside => ?_) parsed
    obtain ⟨held, other⟩ := mem_splitOn member char inside
    exact (hex char held).resolve_left other

theorem ipv6Groups_fit (parsed : ipv6Groups text = some groups)
    (hex : ∀ char ∈ text, char = ':' ∨ isHexDigit char = true) :
    groups.length = 8 ∧ ∀ group ∈ groups, group < 65536 := by
  unfold ipv6Groups at parsed
  split at parsed
  · next whole split =>
    split at parsed
    · next read =>
      split at parsed
      · next eight =>
        cases parsed
        refine ⟨eight, parseGroups_lt read fun char member => hex char ?_⟩
        exact mem_splitOnDoubleColon (by rw [split]; exact List.mem_cons_self) char member
      · contradiction
    · contradiction
  · next first second split =>
    split at parsed
    · next head tail front back =>
      split at parsed
      · contradiction
      · cases parsed
        have small : ∀ group ∈ head ++ tail, group < 65536 := by
          intro group member
          rcases List.mem_append.mp member with left | right
          · refine parseGroups_lt front (fun char inside => hex char ?_) group left
            exact mem_splitOnDoubleColon (by rw [split]; simp) char inside
          · refine parseGroups_lt back (fun char inside => hex char ?_) group right
            exact mem_splitOnDoubleColon (by rw [split]; simp) char inside
        refine ⟨by simp; omega, fun group member => ?_⟩
        simp only [List.mem_append, List.mem_replicate] at member
        rcases member with (left | ⟨-, rfl⟩) | right
        · exact small group (List.mem_append_left _ left)
        · decide
        · exact small group (List.mem_append_right _ right)
    · contradiction
  · contradiction

/-! ## IPv6 addresses -/

theorem isUpper_bounds (upper : char.isUpper = true) :
    65 ≤ char.toNat ∧ char.toNat ≤ 90 :=
  of_decide_eq_true upper

theorem isLower_bounds (lower : char.isLower = true) :
    97 ≤ char.toNat ∧ char.toNat ≤ 122 := by
  have both := (Bool.and_eq_true _ _).mp lower
  exact ⟨of_decide_eq_true both.1, of_decide_eq_true both.2⟩

theorem lowerChar_of_not_upper (plain : char ≠ '\u212a') (lower : char.isUpper = false) :
    lowerChar char = char := by
  unfold lowerChar
  rw [if_neg plain]
  unfold Char.toLower
  rw [dif_neg]
  intro upper
  have cased : char.isUpper = true := decide_eq_true upper
  rw [lower] at cased
  contradiction

def isAddressChar (char : Char) : Bool := char = ':' || isWritten char

theorem isAddressChar_bounds (address : isAddressChar char = true) :
    (48 ≤ char.toNat ∧ char.toNat ≤ 58) ∨ (97 ≤ char.toNat ∧ char.toNat ≤ 102) := by
  unfold isAddressChar isWritten at address
  simp only [Bool.or_eq_true, Bool.and_eq_true, decide_eq_true_eq, Char.isDigit] at address
  have order : ∀ left right : Char, left ≤ right ↔ left.toNat ≤ right.toNat := fun _ _ => Iff.rfl
  rcases address with rfl | ⟨above, below⟩ | letter
  · decide
  · have above : 48 ≤ char.toNat := above
    have below : char.toNat ≤ 57 := below
    omega
  · simp only [order] at letter
    have first : 'a'.toNat = 97 := rfl
    have last : 'f'.toNat = 102 := rfl
    omega

theorem lowerChar_address (address : isAddressChar char = true) :
    lowerChar char = char := by
  have bounds := isAddressChar_bounds address
  refine lowerChar_of_not_upper ?_ ?_
  · rintro rfl
    have wide : '\u212a'.toNat = 8490 := rfl
    omega
  · rw [Bool.eq_false_iff]
    intro upper
    obtain ⟨above, below⟩ := isUpper_bounds upper
    omega

/-- `compressIpv6` between its brackets. -/
def ipv6Text (groups : List Nat) : Text :=
  let hex := groups.map (Nat.toDigits 16)
  match longestZeroRun groups with
  | none => join [':'] hex
  | some (start, length) =>
    join [':'] (hex.take start) ++ ':' :: ':' :: join [':'] (hex.drop (start + length))

variable {host : Text}

theorem canonicalIpv6_cases {inner : Text} (found : canonicalIpv6 inner = some host) :
    ∃ groups : List Nat, host = '[' :: (ipv6Text groups ++ [']']) ∧ groups.length = 8 ∧
      ∀ group ∈ groups, group < 65536 := by
  unfold canonicalIpv6 at found
  split at found
  · contradiction
  · next text folded =>
    split at found
    · contradiction
    · next proper =>
      split at found
      · contradiction
      · next groups parsed =>
        have hex : ∀ char ∈ text, char = ':' ∨ isHexDigit char = true := by
          simp only [Bool.or_eq_true, not_or, Bool.not_eq_true', Bool.not_eq_false,
            List.all_eq_true, decide_eq_true_eq] at proper
          exact proper.2
        refine ⟨groups, ?_, ipv6Groups_fit parsed hex⟩
        unfold ipv6Text
        simp only at found ⊢
        split at found <;> cases found
        · next whole => simp [whole]
        · next start length longest => simp [longest]

theorem isAddressChar_join :
    ∀ char ∈ join [':'] (groups.map (Nat.toDigits 16)), isAddressChar char = true := by
  induction groups with
  | nil =>
    intro char member
    simp [join] at member
  | cons group rest ih =>
    have own : ∀ char ∈ Nat.toDigits 16 group, isAddressChar char = true := by
      intro char member
      simp [isAddressChar, isWritten_toDigits (by decide : 1 < 16) (by decide) group char member]
    intro char member
    cases rest with
    | nil =>
      simp only [join, List.map_cons, List.map_nil, List.intercalate_singleton] at member
      exact own char member
    | cons next after =>
      simp only [join, List.map_cons, List.intercalate_cons_cons, List.mem_append,
        List.mem_singleton] at member
      rcases member with (front | rfl) | behind
      · exact own char front
      · decide
      · exact ih char behind

theorem isAddressChar_ipv6Text (groups : List Nat) :
    ∀ char ∈ ipv6Text groups, isAddressChar char = true := by
  intro char member
  unfold ipv6Text at member
  simp only at member
  split at member
  · exact isAddressChar_join char member
  · rw [List.map_take.symm, List.map_drop.symm] at member
    rcases List.mem_append.mp member with front | behind
    · exact isAddressChar_join char front
    · rcases List.mem_cons.mp behind with rfl | behind
      · decide
      · rcases List.mem_cons.mp behind with rfl | behind
        · decide
        · exact isAddressChar_join char behind

theorem ipv6Groups_text (eight : groups.length = 8) (small : ∀ group ∈ groups, group < 65536) :
    ipv6Groups (ipv6Text groups) = some groups := by
  have grouped : ∀ groups : List Nat, ∀ part ∈ groups.map (Nat.toDigits 16), Grouped part := by
    intro groups part member
    obtain ⟨group, _, rfl⟩ := List.mem_map.mp member
    exact grouped_toDigits group
  have whole : ∀ groups : List Nat,
      splitOnDoubleColon (join [':'] (groups.map (Nat.toDigits 16))) =
        [join [':'] (groups.map (Nat.toDigits 16))] := by
    intro groups
    have split := splitOnDoubleColon_join (grouped groups) []
    simpa [splitOnDoubleColon] using split
  unfold ipv6Text
  simp only
  split
  · unfold ipv6Groups
    rw [whole]
    simp only [parseGroups_join small, eight, if_true]
  · next start length longest =>
    obtain ⟨within, long, rebuilt⟩ := groups_of_run longest
    rw [List.map_take.symm, List.map_drop.symm]
    have split := splitOnDoubleColon_join (grouped (groups.take start))
      (':' :: ':' :: join [':'] ((groups.drop (start + length)).map (Nat.toDigits 16)))
    unfold ipv6Groups
    rw [split, splitOnDoubleColon, whole]
    have head : parseGroups (join [':'] ((groups.take start).map (Nat.toDigits 16))) =
        some (groups.take start) :=
      parseGroups_join fun group member => small group (List.mem_of_mem_take member)
    have tail : parseGroups
        (join [':'] ((groups.drop (start + length)).map (Nat.toDigits 16))) =
          some (groups.drop (start + length)) :=
      parseGroups_join fun group member => small group (List.mem_of_mem_drop member)
    have gap : 8 - (groups.take start).length - (groups.drop (start + length)).length = length := by
      rw [List.length_take, List.length_drop]
      omega
    simp only [List.modifyHead_cons, List.append_nil, head, tail, gap]
    rw [if_neg (by omega), rebuilt]

theorem foldDottedTail_of_no_dot (free : '.' ∉ text) :
    foldDottedTail text = some text := by
  have tail : '.' ∉ (splitTail text).2 := by
    intro member
    unfold splitTail at member
    simp only [List.mem_reverse] at member
    exact free (List.mem_reverse.mp ((List.takeWhile_sublist _).subset member))
  have single : isDottedQuad (splitTail text).2 = false := by
    simp [isDottedQuad, List.splitOn_eq_singleton tail]
  unfold foldDottedTail
  simp only [single, Bool.false_eq_true, if_false]

theorem toLowerCase_of_forall (lower : ∀ char ∈ text, lowerChar char = char) :
    toLowerCase text = text := by
  unfold toLowerCase
  exact List.map_congr_left lower |>.trans (List.map_id _)

theorem canonicalIpv6_text (eight : groups.length = 8) (small : ∀ group ∈ groups, group < 65536) :
    canonicalIpv6 (ipv6Text groups) = some ('[' :: (ipv6Text groups ++ [']'])) := by
  have address := isAddressChar_ipv6Text groups
  have lower : toLowerCase (ipv6Text groups) = ipv6Text groups :=
    toLowerCase_of_forall fun char member => lowerChar_address (address char member)
  have free : '.' ∉ ipv6Text groups := by
    intro member
    exact absurd (address '.' member) (by decide)
  have parsed := ipv6Groups_text eight small
  have nonempty : (ipv6Text groups).isEmpty = false := by
    cases text : ipv6Text groups with
    | nil =>
      rw [text] at parsed
      have nothing : ipv6Groups [] = none := by decide
      rw [nothing] at parsed
      contradiction
    | cons char rest => rfl
  have hex : (ipv6Text groups).all (fun char => char = ':' || isHexDigit char) = true := by
    rw [List.all_eq_true]
    intro char member
    have written := address char member
    unfold isAddressChar isWritten at written
    unfold isHexDigit
    simp only [Bool.or_eq_true, Bool.and_eq_true, decide_eq_true_eq] at written ⊢
    tauto
  unfold canonicalIpv6
  rw [lower, foldDottedTail_of_no_dot free]
  simp only [nonempty, hex, Bool.not_true, Bool.or_self, Bool.false_eq_true, if_false, parsed]
  unfold ipv6Text
  simp only
  split
  · next whole => simp [whole]
  · next start length longest => simp [longest]

/-! ## Domains and IPv4 addresses -/

theorem mem_splitOn_of_mem (separator : Char) (member : char ∈ text) :
    char = separator ∨ ∃ part ∈ text.splitOn separator, char ∈ part := by
  have spelled : [separator].intercalate (text.splitOn separator) = text :=
    List.intercalate_splitOn separator
  have inside : ∀ parts : List Text, char ∈ [separator].intercalate parts →
      char = separator ∨ ∃ part ∈ parts, char ∈ part := by
    intro parts
    induction parts with
    | nil => simp
    | cons part rest ih =>
      intro among
      cases rest with
      | nil =>
        rw [List.intercalate_singleton] at among
        exact .inr ⟨part, List.mem_cons_self, among⟩
      | cons next after =>
        rw [List.intercalate_cons_cons] at among
        rcases List.mem_append.mp among with front | behind
        · rcases List.mem_append.mp front with own | sep
          · exact .inr ⟨part, List.mem_cons_self, own⟩
          · exact .inl (List.mem_singleton.mp sep)
        · rcases ih behind with same | ⟨other, member, held⟩
          · exact .inl same
          · exact .inr ⟨other, List.mem_cons_of_mem _ member, held⟩
  exact inside _ (spelled.symm ▸ member)

theorem isDomain_chars (domain : isDomain text = true) :
    ∀ char ∈ text, char = '.' ∨ isDomainChar char = true := by
  intro char member
  rcases mem_splitOn_of_mem '.' member with same | ⟨part, among, held⟩
  · exact .inl same
  · right
    unfold isDomain at domain
    simp only at domain
    rw [List.all_eq_true] at domain
    have label : part ∈ (if 1 < (text.splitOn '.').length && (text.splitOn '.').getLast? = some []
        then (text.splitOn '.').dropLast else text.splitOn '.') := by
      split
      · next trailing =>
        rw [Bool.and_eq_true, decide_eq_true_eq, decide_eq_true_eq] at trailing
        obtain ⟨front, spelled⟩ := List.getLast?_eq_some_iff.mp trailing.2
        rw [spelled, List.dropLast_concat]
        rw [spelled] at among
        rcases List.mem_append.mp among with before | final
        · exact before
        · rw [List.mem_singleton.mp final] at held
          contradiction
      · exact among
    have proper := domain part label
    simp only [Bool.and_eq_true, List.all_eq_true] at proper
    exact proper.2 char held

theorem isDomainChar_bounds (domain : isDomainChar char = true) :
    char = '-' ∨ char = '_' ∨ (48 ≤ char.toNat ∧ char.toNat ≤ 57) ∨
      (97 ≤ char.toNat ∧ char.toNat ≤ 122) := by
  unfold isDomainChar at domain
  simp only [Bool.or_eq_true, decide_eq_true_eq] at domain
  rcases domain with ((letter | digit) | under) | dash
  · exact .inr (.inr (.inr (isLower_bounds letter)))
  · simp only [Char.isDigit, Bool.and_eq_true, decide_eq_true_eq] at digit
    have above : 48 ≤ char.toNat := digit.1
    have below : char.toNat ≤ 57 := digit.2
    exact .inr (.inr (.inl ⟨above, below⟩))
  · exact .inr (.inl under)
  · exact .inl dash

theorem lowerChar_domain (domain : char = '.' ∨ isDomainChar char = true) :
    lowerChar char = char := by
  rcases domain with rfl | domain
  · decide
  · have bounds := isDomainChar_bounds domain
    refine lowerChar_of_not_upper ?_ ?_
    · rintro rfl
      exact absurd domain (by decide)
    · rw [Bool.eq_false_iff]
      intro upper
      obtain ⟨above, below⟩ := isUpper_bounds upper
      rcases bounds with rfl | rfl | digit | letter
      · exact absurd above (by decide)
      · exact absurd below (by decide)
      · omega
      · omega

/-- The four decimal bytes of an address. -/
def ipv4Text (address : Nat) : Text :=
  join ['.'] ([24, 16, 8, 0].map fun shift => Nat.toDigits 10 (address / 2 ^ shift % 256))

theorem canonicalIpv4_cases (found : canonicalIpv4 host = .address text) :
    ∃ address, text = ipv4Text address := by
  unfold canonicalIpv4 at found
  simp only at found
  generalize (if (decide (1 < (host.splitOn '.').length) &&
    decide ((host.splitOn '.').getLast? = some [])) = true then (host.splitOn '.').dropLast
    else host.splitOn '.') = parts at found
  split at found
  · contradiction
  · split at found
    · contradiction
    · split at found
      · contradiction
      · split at found
        · contradiction
        · split at found
          · contradiction
          · cases found
            exact ⟨_, rfl⟩

theorem byte_read : ∀ byte < 256, ipv4Value (Nat.toDigits 10 byte) = some byte ∧
    isIpv4Part (Nat.toDigits 10 byte) = true := by
  decide +kernel

theorem splitOn_ipv4Text (address : Nat) : (ipv4Text address).splitOn '.' =
    [24, 16, 8, 0].map fun shift => Nat.toDigits 10 (address / 2 ^ shift % 256) := by
  refine List.splitOn_intercalate '.' ?_ (by simp)
  intro part member
  obtain ⟨shift, _, rfl⟩ := List.mem_map.mp member
  intro dot
  exact absurd (isDigit_toDigits _ _ dot) (by decide)

theorem ipv4_rebuilt {first second third fourth : Nat} (one : first < 256) (two : second < 256)
    (three : third < 256) (four : fourth < 256) :
    ([24, 16, 8, 0].map fun shift =>
        (fourth + first * 256 ^ 3 + second * 256 ^ 2 + third * 256 ^ 1) / 2 ^ shift % 256) =
      [first, second, third, fourth] := by
  simp only [List.map_cons, List.map_nil, List.cons.injEq, and_true]
  refine ⟨?_, ?_, ?_, ?_⟩ <;> omega

theorem canonicalIpv4_text (address : Nat) :
    canonicalIpv4 (ipv4Text address) = .address (ipv4Text address) := by
  have split := splitOn_ipv4Text address
  have byte : ∀ shift, address / 2 ^ shift % 256 < 256 := fun shift => Nat.mod_lt _ (by decide)
  unfold ipv4Text at split ⊢
  simp only [List.map_cons, List.map_nil] at split ⊢
  have one := byte 24
  have two := byte 16
  have three := byte 8
  have four := byte 0
  generalize address / 2 ^ 24 % 256 = first at *
  generalize address / 2 ^ 16 % 256 = second at *
  generalize address / 2 ^ 8 % 256 = third at *
  generalize address / 2 ^ 0 % 256 = fourth at *
  have rebuilt := ipv4_rebuilt one two three four
  have filled : Nat.toDigits 10 fourth ≠ [] := Nat.toDigits_ne_nil
  have read : [Nat.toDigits 10 first, Nat.toDigits 10 second, Nat.toDigits 10 third,
      Nat.toDigits 10 fourth].mapM ipv4Value = some [first, second, third, fourth] := by
    simp [(byte_read _ one).1, (byte_read _ two).1, (byte_read _ three).1, (byte_read _ four).1]
  unfold canonicalIpv4
  simp only [split, List.getLast?_cons_cons, List.getLast?_singleton, Option.some.injEq, filled,
    decide_false, Bool.and_false, Bool.false_eq_true, if_false, Option.getD_some,
    (byte_read _ four).2, Bool.not_true, List.length_cons, List.length_nil, read]
  have within : ([first, second, third, fourth].dropLast.any fun value => 255 < value) = false := by
    simp
    omega
  have fits : ¬ 256 ^ (4 - [first, second, third, fourth].dropLast.length) ≤ fourth := by
    simp
    omega
  rw [if_neg (by decide), within, if_neg (by decide), if_neg fits]
  have bytes := congrArg (fun numbers => Ipv4.address (join ['.'] (numbers.map (Nat.toDigits 10))))
    rebuilt
  simpa [List.map_map, Function.comp_def] using bytes

theorem isDomain_ipv4Text (address : Nat) : isDomain (ipv4Text address) = true := by
  have split := splitOn_ipv4Text address
  have label : ∀ byte, (!(Nat.toDigits 10 byte).isEmpty &&
      (Nat.toDigits 10 byte).all isDomainChar) = true := by
    intro byte
    have filled : (Nat.toDigits 10 byte).isEmpty = false := by
      simp [Nat.toDigits_ne_nil]
    rw [filled, Bool.not_false, Bool.true_and, List.all_eq_true]
    intro char member
    simp [isDomainChar, isDigit_toDigits byte char member]
  have filled : Nat.toDigits 10 (address / 2 ^ 0 % 256) ≠ [] := Nat.toDigits_ne_nil
  unfold isDomain
  simp only [List.map_cons, List.map_nil] at split
  simp only [split, List.getLast?_cons_cons, List.getLast?_singleton, Option.some.injEq, filled,
    decide_false, Bool.and_false, Bool.false_eq_true, if_false, List.all_cons, List.all_nil, label,
    Bool.and_self]

/-! ## Hosts, ports and origins -/

/-- A host in brackets without a bracket inside, or a domain. -/
inductive Hosted : Text → Prop
  | address (groups : List Nat) (eight : groups.length = 8)
      (small : ∀ group ∈ groups, group < 65536) : Hosted ('[' :: (ipv6Text groups ++ [']']))
  | domain (text : Text) (domain : isDomain text = true)
      (kept : canonicalIpv4 text = .notNumeric ∨ canonicalIpv4 text = .address text) : Hosted text

theorem canonicalHost_hosted {hostText : Text} (found : canonicalHost hostText = some host) :
    Hosted host := by
  unfold canonicalHost at found
  split at found
  · obtain ⟨groups, rfl, eight, small⟩ := canonicalIpv6_cases found
    exact .address groups eight small
  · simp only at found
    split at found
    · contradiction
    · next proper =>
      split at found
      · contradiction
      · next named =>
        cases found
        exact .domain _ (by simpa using proper) (.inl named)
      · next text numbered =>
        cases found
        obtain ⟨address, rfl⟩ := canonicalIpv4_cases numbered
        exact .domain _ (isDomain_ipv4Text address) (.inr (canonicalIpv4_text address))

theorem Hosted.canonical (hosted : Hosted host) : canonicalHost host = some host := by
  cases hosted with
  | address groups eight small =>
    simp only [canonicalHost, List.dropLast_concat]
    exact canonicalIpv6_text eight small
  | domain text domain kept =>
    have chars := isDomain_chars domain
    have lower : toLowerCase host = host :=
      toLowerCase_of_forall fun char member => lowerChar_domain (chars char member)
    unfold canonicalHost
    split
    · next rest =>
      exact absurd (chars '[' List.mem_cons_self) (by decide)
    · simp only [lower, domain, Bool.not_true, Bool.false_eq_true, if_false]
      rcases kept with named | numbered
      · rw [named]
      · rw [numbered]

theorem Hosted.chars (hosted : Hosted host) :
    ∀ char ∈ host, char ≠ '/' ∧ char ≠ '?' ∧ char ≠ '#' ∧ char ≠ '@' := by
  have address : ∀ char, isAddressChar char = true →
      char ≠ '/' ∧ char ≠ '?' ∧ char ≠ '#' ∧ char ≠ '@' := by
    intro char address
    refine ⟨?_, ?_, ?_, ?_⟩ <;> rintro rfl <;> exact absurd address (by decide)
  have domain : ∀ char, (char = '.' ∨ isDomainChar char = true) →
      char ≠ '/' ∧ char ≠ '?' ∧ char ≠ '#' ∧ char ≠ '@' := by
    intro char domain
    refine ⟨?_, ?_, ?_, ?_⟩ <;> rintro rfl <;> exact absurd domain (by decide)
  cases hosted with
  | address groups eight small =>
    intro char member
    rcases List.mem_cons.mp member with rfl | member
    · decide
    · rcases List.mem_append.mp member with inside | last
      · exact address char (isAddressChar_ipv6Text groups char inside)
      · rw [List.mem_singleton.mp last]
        decide
  | domain text proper kept => exact fun char member => domain char (isDomain_chars proper char member)

theorem canonicalPort_cases {standard : Option Nat} {portText : Option Text} {port : Text}
    (found : canonicalPort standard portText = some port) :
    port = [] ∨ ∃ value ≤ 65535, some value ≠ standard ∧ port = ':' :: Nat.toDigits 10 value := by
  unfold canonicalPort at found
  split at found
  · cases found
    exact .inl rfl
  · split at found
    · contradiction
    · split at found
      · contradiction
      · next small =>
        split at found
        · cases found
          exact .inl rfl
        · next other =>
          cases found
          exact .inr ⟨_, Nat.not_lt.mp small, other, rfl⟩

theorem canonicalPort_digits {standard : Option Nat} {value : Nat} (small : value ≤ 65535)
    (other : some value ≠ standard) :
    canonicalPort standard (some (Nat.toDigits 10 value)) = some (':' :: Nat.toDigits 10 value) := by
  have filled : (Nat.toDigits 10 value).isEmpty = false := by
    simp [Nat.toDigits_ne_nil]
  have short := (Nat.length_toDigits_le_iff (b := 10) (n := value) (by decide)
    (k := 5) (by decide)).mpr (by omega)
  have digits : (Nat.toDigits 10 value).all Char.isDigit = true := by
    rw [List.all_eq_true]
    exact isDigit_toDigits value
  unfold canonicalPort
  simp only [filled, digits, Nat.not_lt.mpr short, decide_false, Bool.or_self, Bool.not_true,
    Bool.false_eq_true, if_false, parseInt_toDigits (by decide : 1 < 10) (by decide : 10 ≤ 16),
    Nat.not_lt.mpr small, other]

theorem span_append {text rest : Text} {stop : Char} (free : stop ∉ text)
    (next : rest = [] ∨ rest.head? = some stop) :
    (text ++ rest).span (· ≠ stop) = (text, rest) := by
  have each : ∀ char ∈ text, decide (char ≠ stop) = true := by
    intro char member
    exact decide_eq_true fun same => free (same ▸ member)
  rw [List.span_eq_takeWhile_dropWhile, List.takeWhile_append_of_pos each,
    List.dropWhile_append_of_pos each]
  rcases next with rfl | starts
  · simp
  · cases rest with
    | nil => contradiction
    | cons first tail =>
      have same : first = stop := by simpa using starts
      simp [same]

theorem Hosted.split (hosted : Hosted host) (port : Text) :
    splitAuthority host = some (host, none) ∧
      splitAuthority (host ++ ':' :: port) = some (host, some port) := by
  cases hosted with
  | address groups eight small =>
    have free : ']' ∉ '[' :: ipv6Text groups := by
      intro member
      rcases List.mem_cons.mp member with same | inside
      · contradiction
      · exact absurd (isAddressChar_ipv6Text groups _ inside) (by decide)
    have spelled : ∀ rest : Text, '[' :: (ipv6Text groups ++ [']']) ++ rest =
        ('[' :: ipv6Text groups) ++ ']' :: rest := by
      intro rest
      simp
    have alone := spelled []
    rw [List.append_nil] at alone
    constructor
    · rw [alone]
      simp only [splitAuthority, List.cons_append]
      rw [← List.cons_append, span_append free (.inr rfl)]
    · rw [spelled]
      simp only [splitAuthority, List.cons_append]
      rw [← List.cons_append, span_append free (.inr rfl)]
      simp
  | domain text domain kept =>
    have chars := isDomain_chars domain
    have free : ':' ∉ host := by
      intro member
      exact absurd (chars ':' member) (by decide)
    have plain : ∀ rest tail : Text, host ++ ':' :: rest ≠ '[' :: tail ∧ host ≠ '[' :: tail := by
      intro rest tail
      constructor
      · intro same
        cases host with
        | nil => simp at same
        | cons first others =>
          rw [List.cons_append, List.cons.injEq] at same
          exact absurd (chars first List.mem_cons_self) (by rw [same.1]; decide)
      · rintro rfl
        exact absurd (chars '[' List.mem_cons_self) (by decide)
    constructor
    · unfold splitAuthority
      split
      · next tail => exact absurd rfl (plain [] tail).2
      · have whole := span_append free (.inl rfl : ([] : Text) = [] ∨ _)
        rw [List.append_nil] at whole
        rw [whole]
    · unfold splitAuthority
      split
      · next tail same => exact absurd same (plain port tail).1
      · rw [span_append free (.inr rfl)]

/-- A scheme that `originShape` reads and `toLowerCase` leaves as it is. -/
def isPlainScheme (scheme : Text) : Bool :=
  match scheme with
  | first :: rest => first.isAlpha && rest.all isSchemeChar && toLowerCase scheme = scheme
  | [] => false

theorem originShape_spelled {scheme authority : Text} (plain : isPlainScheme scheme = true)
    (free : ∀ char ∈ authority, char ≠ '/' ∧ char ≠ '?' ∧ char ≠ '#') :
    originShape (scheme ++ ':' :: '/' :: '/' :: authority) = some (scheme, authority) := by
  cases scheme with
  | nil => contradiction
  | cons first rest =>
    simp only [isPlainScheme, Bool.and_eq_true, List.all_eq_true] at plain
    have colon : ':' ∉ first :: rest := by
      intro member
      rcases List.mem_cons.mp member with same | inside
      · exact absurd plain.1.1 (by rw [← same]; decide)
      · exact absurd (plain.1.2 _ inside) (by decide)
    have proper : authority.all (fun char => char ≠ '/' && char ≠ '?' && char ≠ '#') = true := by
      rw [List.all_eq_true]
      intro char member
      obtain ⟨slash, query, hash⟩ := free char member
      simp [slash, query, hash]
    unfold originShape
    rw [span_append colon (.inr rfl)]
    simp only [plain.1.1, List.all_eq_true.mpr plain.1.2, proper, Bool.and_self, if_true]

theorem isSchemeChar_lower (scheme : isSchemeChar char = true) :
    isSchemeChar (lowerChar char) = true ∧ lowerChar (lowerChar char) = lowerChar char ∧
      (char.isAlpha = true → (lowerChar char).isAlpha = true) := by
  have ascii : ∀ code < 128, isSchemeChar (Char.ofNat code) = true →
      isSchemeChar (lowerChar (Char.ofNat code)) = true ∧
        lowerChar (lowerChar (Char.ofNat code)) = lowerChar (Char.ofNat code) ∧
        ((Char.ofNat code).isAlpha = true → (lowerChar (Char.ofNat code)).isAlpha = true) := by
    decide
  have small : char.toNat < 128 := by
    simp only [isSchemeChar, Char.isAlphanum, Bool.or_eq_true, decide_eq_true_eq] at scheme
    rcases scheme with (((letter | digit) | rfl) | rfl) | rfl
    · rcases (Bool.or_eq_true char.isUpper char.isLower).mp letter with upper | lower
      · have bounds := isUpper_bounds upper
        omega
      · have bounds := isLower_bounds lower
        omega
    · have below : char.toNat ≤ 57 := of_decide_eq_true ((Bool.and_eq_true _ _).mp digit).2
      omega
    all_goals decide
  have same : Char.ofNat char.toNat = char := Char.ofNat_toNat char
  have whole := ascii char.toNat small
  rw [same] at whole
  exact whole scheme

theorem isPlainScheme_lower {first : Char} {rest : Text} (letter : first.isAlpha = true)
    (chars : rest.all isSchemeChar = true) : isPlainScheme (toLowerCase (first :: rest)) = true := by
  rw [List.all_eq_true] at chars
  have head : isSchemeChar first = true := by
    simp [isSchemeChar, Char.isAlphanum, letter]
  have each : ∀ char ∈ first :: rest, lowerChar (lowerChar char) = lowerChar char := by
    intro char member
    rcases List.mem_cons.mp member with rfl | inside
    · exact (isSchemeChar_lower head).2.1
    · exact (isSchemeChar_lower (chars char inside)).2.1
  have fixed : toLowerCase (toLowerCase (first :: rest)) = toLowerCase (first :: rest) := by
    simpa [toLowerCase] using each
  have lowered : (toLowerCase rest).all isSchemeChar = true := by
    rw [List.all_eq_true]
    intro char member
    obtain ⟨before, inside, rfl⟩ := List.mem_map.mp member
    exact (isSchemeChar_lower (chars before inside)).1
  simp only [isPlainScheme, toLowerCase, List.map_cons] at fixed lowered ⊢
  rw [(isSchemeChar_lower head).2.2 letter, lowered, Bool.true_and, Bool.true_and,
    decide_eq_true fixed]

theorem originShape_plain {value shape authority : Text}
    (shaped : originShape value = some (shape, authority)) :
    isPlainScheme (toLowerCase shape) = true := by
  unfold originShape at shaped
  split at shaped
  · next scheme tail _ =>
    cases scheme with
    | nil => contradiction
    | cons first rest =>
      simp only [Option.ite_none_right_eq_some, Bool.and_eq_true, Option.some.injEq,
        Prod.mk.injEq] at shaped
      obtain ⟨⟨⟨letter, chars⟩, -⟩, rfl, -⟩ := shaped
      exact isPlainScheme_lower letter chars
  · contradiction

theorem canonicalOriginText_fixed {ports : List SchemePort} {value canonical : Text}
    (found : canonicalOriginText value ports = some canonical) :
    canonicalOriginText canonical ports = some canonical := by
  unfold canonicalOriginText at found
  split at found
  · contradiction
  · next shape authority shaped =>
    simp only at found
    split at found
    · contradiction
    · next standard known =>
      split at found
      · contradiction
      · split at found
        · contradiction
        · next hostText portText parts =>
          split at found
          · next host port hosts ports' =>
            cases found
            have hosted := canonicalHost_hosted hosts
            have listed := originShape_plain shaped
            have lower : toLowerCase (toLowerCase shape) = toLowerCase shape := by
              generalize toLowerCase shape = scheme at listed
              cases scheme with
              | nil => contradiction
              | cons first rest =>
                simp only [isPlainScheme, Bool.and_eq_true, decide_eq_true_eq] at listed
                exact listed.2
            have separators : ∀ char ∈ host ++ port,
                char ≠ '/' ∧ char ≠ '?' ∧ char ≠ '#' ∧ char ≠ '@' := by
              intro char member
              rcases List.mem_append.mp member with inside | behind
              · exact hosted.chars char inside
              · rcases canonicalPort_cases ports' with rfl | ⟨number, _, _, rfl⟩
                · contradiction
                · rcases List.mem_cons.mp behind with rfl | digit
                  · decide
                  · have digit := isDigit_toDigits number char digit
                    refine ⟨?_, ?_, ?_, ?_⟩ <;> rintro rfl <;> exact absurd digit (by decide)
            have read : originShape (toLowerCase shape ++ "://".toList ++ host ++ port) =
                some (toLowerCase shape, host ++ port) := by
              have spelled : toLowerCase shape ++ "://".toList ++ host ++ port =
                  toLowerCase shape ++ ':' :: '/' :: '/' :: (host ++ port) := by
                simp
              rw [spelled]
              exact originShape_spelled listed fun char member =>
                ⟨(separators char member).1, (separators char member).2.1,
                  (separators char member).2.2.1⟩
            have anonymous : (host ++ port).contains '@' = false := by
              rw [List.contains_eq_mem, decide_eq_false_iff_not]
              exact fun member => (separators '@' member).2.2.2 rfl
            unfold canonicalOriginText
            simp only [read, lower, known, anonymous, Bool.false_eq_true, if_false]
            rcases canonicalPort_cases ports' with rfl | ⟨number, small, other, rfl⟩
            · rw [List.append_nil, (hosted.split []).1]
              simp only [hosted.canonical, canonicalPort]
            · rw [(hosted.split _).2]
              simp only [hosted.canonical, canonicalPort_digits small other]
          · contradiction

theorem canonicalOrigin_fixed {ports : List SchemePort} {value canonical : String}
    (found : canonicalOrigin value ports = some canonical) :
    canonicalOrigin canonical ports = some canonical := by
  obtain ⟨text, written, rfl⟩ := Option.map_eq_some_iff.mp found
  unfold canonicalOrigin
  rw [String.toList_ofList, canonicalOriginText_fixed written]
  rfl

theorem storageLabel_fixed (origin : String) :
    storageLabel (storageLabel origin) = storageLabel origin := by
  unfold storageLabel
  cases found : canonicalHttpOrigin origin with
  | none => rw [Option.getD_none, found, Option.getD_none]
  | some label =>
    have fixed : canonicalHttpOrigin label = some label :=
      canonicalOrigin_fixed found
    rw [Option.getD_some, fixed, Option.getD_some]

theorem siteScopes_storageLabel (origin : String) :
    siteScopes (storageLabel origin) = siteScopes origin := by
  unfold storageLabel
  cases found : canonicalHttpOrigin origin with
  | none => rfl
  | some label =>
    have fixed : canonicalHttpOrigin label = some label :=
      canonicalOrigin_fixed found
    rw [Option.getD_some, siteScopes, siteScopes, fixed, found]

end NostrWot.Permissions
