import NostrWot.Identity.Ncryptsec
import NostrWot.Pq.Attestation

namespace NostrWot.Identity

/-! # Derivation paths

A BIP-32 path as the accounts package writes it, and the place that it has in
the `info` strings of the post-quantum keys.
-/

open NostrWot.Data
open NostrWot.Data.JsonSyntax (isDigit)
open NostrWot.Vault (NIP06_PATH MAX_BIP32_INDEX MAX_BIP32_DEPTH MAX_BIP32_PATH_LENGTH isTrimmedUnit
  trimUnits canonicalLevel normalizeDerivationPath)
open NostrWot.Identity.Ncryptsec (trimUnits_plain)
open NostrWot.Pq (PQ_PROFILE ALG_KEM ALG_DSA)

def NIP06_ACCOUNT_PREFIX : Units := (NIP06_PATH.reverse.dropWhile (· ≠ 47)).reverse

/-- `/^\d+$/.test(text)`. -/
def isNumeric (text : Units) : Bool := !text.isEmpty && text.all isDigit

def standardDerivationIndex (path : Units) : Option Nat :=
  match normalizeDerivationPath path with
  | none => none
  | some canonical =>
    if NIP06_ACCOUNT_PREFIX.isPrefixOf canonical then
      let suffix := canonical.drop NIP06_ACCOUNT_PREFIX.length
      if isNumeric suffix then some (Units.decimal suffix) else none
    else none

/-- `none` is a throw. -/
def derivationPath (index : Int) : Option Units :=
  if index < 0 ∨ (MAX_BIP32_INDEX : Int) < index then none
  else some (NIP06_ACCOUNT_PREFIX ++ Units.digits index.toNat)

/-! ## The post-quantum selector -/

inductive PqAccount where
  | index (number : Int)
  | path (text : Units)

/-- A level by `(?:0|[1-9]\d*)'?`. -/
def isCanonicalPart (part : Units) : Bool :=
  let digits := part.takeWhile isDigit
  let mark := part.dropWhile isDigit
  (digits = [48] || (!digits.isEmpty && digits.head? ≠ some 48)) && (mark = [] || mark = [39])

def isCanonicalPath (text : Units) : Bool :=
  (text.splitOn 47).head? = some [109] && ((text.splitOn 47).drop 1).all isCanonicalPart

def PQ_ACCOUNT_PREFIX : Units := Units.ofString "m/44'/1237'/0'/0/"

/-- `none` is a throw. -/
def derivationSelector : PqAccount → Option Units
  | .index number => if number < 0 then none else some (Units.digits number.toNat)
  | .path text =>
    if !isCanonicalPath text then none
    else if ((text.splitOn 47).drop 1).any fun part => MAX_BIP32_INDEX < Units.decimal (part.erase 39)
    then none
    else
      let suffix := text.drop PQ_ACCOUNT_PREFIX.length
      if PQ_ACCOUNT_PREFIX.isPrefixOf text && isNumeric suffix then some suffix
      else some (Units.ofString "path/" ++ text)

/-- The `info` string of the seed of an algorithm. -/
def infoOf (algorithm : Units) (account : PqAccount) : Option Units :=
  (derivationSelector account).map fun selector => PQ_PROFILE ++ 47 :: algorithm ++ 47 :: selector

def kemInfo : PqAccount → Option Units := infoOf ALG_KEM

def dsaInfo : PqAccount → Option Units := infoOf ALG_DSA

/-! ## What a path denotes -/

structure Level where
  index : Nat
  hardened : Bool

def levelOf (part : Units) : Option Level :=
  let digits := part.takeWhile isDigit
  let mark := part.dropWhile isDigit
  if digits.isEmpty then none
  else if mark = [] then some ⟨Units.decimal digits, false⟩
  else if mark = [39] || mark = [104] || mark = [72] then some ⟨Units.decimal digits, true⟩
  else none

/-- The indexes and marks that a text spells. -/
def levelsOf (text : Units) : Option (List Level) :=
  match (trimUnits text).splitOn 47 with
  | [] => none
  | root :: parts => if root = [109] then parts.mapM levelOf else none

def Level.spell (level : Level) : Units :=
  Units.digits level.index ++ if level.hardened then [39] else []

def spelling (levels : List Level) : Units := [47].intercalate ([109] :: levels.map Level.spell)

/-- `44'/1237'/0'/0/index`. -/
def nip06Levels (index : Nat) : List Level :=
  [⟨44, true⟩, ⟨1237, true⟩, ⟨0, true⟩, ⟨0, false⟩, ⟨index, false⟩]

def denotes : PqAccount → Option (List Level)
  | .index number => some (nip06Levels number.toNat)
  | .path text => levelsOf text

/-! ## Spelling and reading -/

theorem digits_take (value : Nat) {mark : Units} (sign : mark = [] ∨ mark = [39]) :
    (Units.digits value ++ mark).takeWhile isDigit = Units.digits value ∧
      (Units.digits value ++ mark).dropWhile isDigit = mark := by
  obtain ⟨-, all, -⟩ := Units.digits_spec value
  rw [List.takeWhile_append_of_pos all, List.dropWhile_append_of_pos all]
  rcases sign with rfl | rfl
  · exact ⟨List.append_nil _, rfl⟩
  · exact ⟨List.append_nil _, rfl⟩

theorem digits_nonempty (value : Nat) : (Units.digits value).isEmpty = false := by
  obtain ⟨-, -, first, rest, begins, -⟩ := Units.digits_spec value
  rw [begins]
  rfl

theorem levelOf_spell (level : Level) : levelOf level.spell = some level := by
  obtain ⟨index, hardened⟩ := level
  obtain ⟨value, -⟩ := Units.digits_spec index
  obtain ⟨taken, dropped⟩ := @digits_take index (if hardened then [39] else []) (by
    cases hardened
    · exact .inl rfl
    · exact .inr rfl)
  unfold levelOf Level.spell
  dsimp only at taken dropped ⊢
  rw [taken, dropped, digits_nonempty, value]
  cases hardened with
  | false => rfl
  | true => rfl

/-- What a level holds besides its digits. -/
theorem mem_spell {level : Level} {unit : UInt16} (member : unit ∈ level.spell) :
    isDigit unit = true ∨ unit = 39 := by
  rcases List.mem_append.mp member with digit | mark
  · exact .inl ((Units.digits_spec level.index).2.1 unit digit)
  · split at mark
    · exact .inr (List.mem_singleton.mp mark)
    · exact (List.not_mem_nil mark).elim

theorem slash_not_mem (level : Level) : 47 ∉ level.spell := by
  intro member
  rcases mem_spell member with digit | mark
  · exact absurd digit (by decide)
  · exact absurd mark (by decide)

variable (levels : List Level)

theorem splitOn_spelling :
    (spelling levels).splitOn 47 = [109] :: levels.map Level.spell := by
  refine List.splitOn_intercalate 47 ?_ (List.cons_ne_nil _ _)
  intro part member
  rcases List.mem_cons.mp member with rfl | member
  · decide
  · obtain ⟨level, -, rfl⟩ := List.mem_map.mp member
    exact slash_not_mem level

theorem spelling_eq :
    spelling levels = 109 :: levels.flatMap fun level => 47 :: level.spell := by
  have joined : ∀ (first : Units) (rest : List Units),
      [47].intercalate (first :: rest) = first ++ rest.flatMap fun part => 47 :: part := by
    intro first rest
    induction rest generalizing first with
    | nil => simp
    | cons next rest ih =>
      rw [List.intercalate_cons_cons, ih next, List.flatMap_cons]
      simp
  rw [spelling, joined, List.flatMap_map]
  rfl

theorem trimUnits_spelling : trimUnits (spelling levels) = spelling levels := by
  have every : ∀ code : Fin 128, isDigit (UInt16.ofNat code) = true →
      isTrimmedUnit (UInt16.ofNat code) = false := by decide
  have digit_kept : ∀ unit, isDigit unit = true → isTrimmedUnit unit = false := by
    intro unit digit
    have small : unit.toNat < 128 := by
      have bounds : 48 ≤ unit.toNat ∧ unit.toNat ≤ 57 := by
        simpa [isDigit, UInt16.le_iff_toNat_le] using digit
      omega
    have same : UInt16.ofNat (⟨unit.toNat, small⟩ : Fin 128) = unit := UInt16.ofNat_toNat
    rw [← same] at digit ⊢
    exact every _ digit
  apply trimUnits_plain
  intro unit member
  rw [spelling_eq] at member
  rcases List.mem_cons.mp member with rfl | member
  · decide
  obtain ⟨level, -, member⟩ := List.mem_flatMap.mp member
  rcases List.mem_cons.mp member with rfl | member
  · decide
  rcases mem_spell member with digit | rfl
  · exact digit_kept unit digit
  · decide

theorem levelsOf_spelling : levelsOf (spelling levels) = some levels := by
  unfold levelsOf
  rw [trimUnits_spelling, splitOn_spelling]
  dsimp only
  rw [if_pos rfl]
  induction levels with
  | nil => rfl
  | cons level rest ih =>
    rw [List.map_cons, List.mapM_cons, levelOf_spell, ih]
    rfl

theorem spelling_injective {levels others : List Level} (same : spelling levels = spelling others) :
    levels = others := by
  have read := levelsOf_spelling levels
  rw [same, levelsOf_spelling] at read
  exact (Option.some.inj read).symm

/-! ## Normalising -/

theorem canonicalLevel_eq (part : Units) : canonicalLevel part =
    ((levelOf part).filter fun level => level.index ≤ MAX_BIP32_INDEX).map Level.spell := by
  unfold canonicalLevel levelOf
  dsimp only
  generalize part.takeWhile isDigit = digits
  generalize part.dropWhile isDigit = mark
  by_cases empty : digits.isEmpty = true
  · simp [empty]
  by_cases large : MAX_BIP32_INDEX < Units.decimal digits
  · by_cases plain : mark = []
    · simp [empty, large, plain]
    · by_cases sign : (mark = [39] || mark = [104] || mark = [72]) = true
      · simp [empty, large, plain, sign]
      · simp [empty, large, plain, sign]
  · have within : Units.decimal digits ≤ MAX_BIP32_INDEX := Nat.not_lt.mp large
    by_cases plain : mark = []
    · simp [empty, large, within, plain, Level.spell]
    · by_cases sign : (mark = [39] || mark = [104] || mark = [72]) = true
      · simp only [empty, large, plain, sign, if_true, if_false]
        simp [within, Level.spell]
      · simp only [empty, large, plain, sign, if_false]
        simp

theorem mapM_canonicalLevel {parts spelled : List Units} :
    parts.mapM canonicalLevel = some spelled ↔ ∃ levels, parts.mapM levelOf = some levels ∧
      (∀ level ∈ levels, level.index ≤ MAX_BIP32_INDEX) ∧ spelled = levels.map Level.spell := by
  induction parts generalizing spelled with
  | nil =>
    constructor
    · rintro ⟨⟩
      exact ⟨[], rfl, fun _ absurd => (List.not_mem_nil absurd).elim, rfl⟩
    · rintro ⟨levels, read, -, rfl⟩
      rw [← Option.some.inj read]
      rfl
  | cons part rest ih =>
    rw [List.mapM_cons, List.mapM_cons, canonicalLevel_eq]
    simp only [Option.bind_eq_bind, Option.pure_def, Option.bind_eq_some_iff, Option.map_eq_some_iff,
      Option.filter_eq_some_iff, Option.some.injEq, ih]
    constructor
    · rintro ⟨_, ⟨level, ⟨read, within⟩, rfl⟩, _, ⟨levels, reads, all, rfl⟩, rfl⟩
      exact ⟨level :: levels, ⟨level, read, levels, reads, rfl⟩,
        List.forall_mem_cons.mpr ⟨of_decide_eq_true within, all⟩, rfl⟩
    · rintro ⟨_, ⟨level, read, levels, reads, rfl⟩, all, rfl⟩
      obtain ⟨within, all⟩ := List.forall_mem_cons.mp all
      exact ⟨_, ⟨level, ⟨read, decide_eq_true within⟩, rfl⟩, _, ⟨levels, reads, all, rfl⟩, rfl⟩

/-- What the levels of an accepted path keep to. -/
structure Bounded (levels : List Level) : Prop where
  depth : levels.length ≤ MAX_BIP32_DEPTH
  index : ∀ level ∈ levels, level.index ≤ MAX_BIP32_INDEX

theorem length_of_mapM {α β : Type} {read : α → Option β} {items : List α} {results : List β}
    (all : items.mapM read = some results) : results.length = items.length := by
  induction items generalizing results with
  | nil =>
    rw [← Option.some.inj all]
    rfl
  | cons item rest ih =>
    rw [List.mapM_cons] at all
    simp only [Option.bind_eq_bind, Option.pure_def, Option.bind_eq_some_iff,
      Option.some.injEq] at all
    obtain ⟨_, -, others, reads, rfl⟩ := all
    rw [List.length_cons, List.length_cons, ih reads]

/-- An accepted text is rewritten as the one spelling of what it denotes. -/
theorem normalizeDerivationPath_iff {value path : Units} :
    normalizeDerivationPath value = some path ↔ value.length ≤ MAX_BIP32_PATH_LENGTH ∧
      ∃ levels, levelsOf value = some levels ∧ Bounded levels ∧ path = spelling levels := by
  unfold normalizeDerivationPath levelsOf
  by_cases long : MAX_BIP32_PATH_LENGTH < value.length
  · rw [if_pos long]
    exact ⟨fun none_ => absurd none_ (by simp), fun both => absurd both.1 (Nat.not_le.mpr long)⟩
  rw [if_neg long]
  have short : value.length ≤ MAX_BIP32_PATH_LENGTH := Nat.not_lt.mp long
  cases (trimUnits value).splitOn 47 with
  | nil => simp
  | cons root parts =>
    dsimp only
    by_cases master : root = [109]
    · rw [if_pos master]
      by_cases deep : MAX_BIP32_DEPTH < parts.length
      · simp only [deep, decide_true, Bool.or_true, if_true]
        constructor
        · rintro ⟨⟩
        · rintro ⟨-, levels, reads, bounded, -⟩
          have depth := bounded.depth
          rw [length_of_mapM reads] at depth
          omega
      · simp only [master, deep, ne_eq, not_true, decide_false, Bool.or_false, Bool.false_eq_true,
          if_false, Option.map_eq_some_iff, mapM_canonicalLevel]
        constructor
        · rintro ⟨_, ⟨levels, reads, within, rfl⟩, rfl⟩
          refine ⟨short, levels, reads, ⟨?_, within⟩, rfl⟩
          rw [length_of_mapM reads]
          exact Nat.not_lt.mp deep
        · rintro ⟨-, levels, reads, bounded, rfl⟩
          exact ⟨_, ⟨levels, reads, bounded.index, rfl⟩, rfl⟩
    · simp [master]

theorem length_digits {value : Nat} (count : Nat) (small : value < 10 ^ (count + 1)) :
    (Units.digits value).length ≤ count + 1 := by
  induction count generalizing value with
  | zero =>
    rw [Units.digits_small (by omega)]
    exact Nat.le_refl _
  | succ count ih =>
    rcases Nat.lt_or_ge value 10 with less | more
    · rw [Units.digits_small less]
      exact Nat.le_add_left _ _
    · have shorter := @ih (value / 10) (by rw [Nat.pow_succ] at small; omega)
      rw [Units.digits_large more, List.length_append, List.length_singleton]
      omega

/-- The limit on the length admits every canonical path. -/
theorem length_spelling {levels : List Level} (bounded : Bounded levels) :
    (spelling levels).length ≤ MAX_BIP32_PATH_LENGTH := by
  have each : ∀ level ∈ levels, (47 :: level.spell).length ≤ 12 := by
    intro level member
    have index := bounded.index level member
    have digits := @length_digits level.index 9 (by unfold MAX_BIP32_INDEX at index; omega)
    unfold Level.spell
    rw [List.length_cons, List.length_append]
    split
    · rw [List.length_singleton]
      omega
    · rw [List.length_nil]
      omega
  have sum := List.sum_le_card_nsmul (levels.map fun level => (47 :: level.spell).length) 12 (by
    intro length member
    obtain ⟨level, held, rfl⟩ := List.mem_map.mp member
    exact each level held)
  rw [List.length_map, smul_eq_mul] at sum
  have depth := bounded.depth
  rw [spelling_eq, List.length_cons, List.length_flatMap]
  unfold MAX_BIP32_PATH_LENGTH MAX_BIP32_DEPTH at *
  omega

theorem normalizeDerivationPath_spelling {levels : List Level} (bounded : Bounded levels) :
    normalizeDerivationPath (spelling levels) = some (spelling levels) :=
  normalizeDerivationPath_iff.mpr
    ⟨length_spelling bounded, levels, levelsOf_spelling levels, bounded, rfl⟩

/-! ## The standard sequence -/

theorem prefixes : NIP06_ACCOUNT_PREFIX = PQ_ACCOUNT_PREFIX := by decide

theorem spelling_nip06 (index : Nat) :
    spelling (nip06Levels index) = PQ_ACCOUNT_PREFIX ++ Units.digits index := by
  have closed : 109 :: ([⟨44, true⟩, ⟨1237, true⟩, ⟨0, true⟩, ⟨0, false⟩] : List Level).flatMap
      (fun level => 47 :: level.spell) ++ [47] = PQ_ACCOUNT_PREFIX := by decide
  have last : Level.spell ⟨index, false⟩ = Units.digits index := List.append_nil _
  rw [spelling_eq, ← closed]
  simp [nip06Levels, last]

theorem isNumeric_digits (value : Nat) : isNumeric (Units.digits value) = true := by
  obtain ⟨-, all, -⟩ := Units.digits_spec value
  rw [isNumeric, digits_nonempty, Bool.not_false, Bool.true_and, List.all_eq_true]
  exact all

theorem spell_of_numeric {level : Level} (numeric : isNumeric level.spell = true) :
    level.spell = Units.digits level.index := by
  obtain ⟨index, hardened⟩ := level
  cases hardened with
  | false => exact List.append_nil _
  | true =>
    have all := List.all_eq_true.mp (Bool.and_eq_true_iff.mp numeric).2 39
      (List.mem_append_right _ List.mem_cons_self)
    exact absurd all (by decide)

/-- Digits after the prefix are the last index of a standard path. -/
theorem nip06_of_prefix {levels : List Level} {suffix : Units}
    (same : spelling levels = PQ_ACCOUNT_PREFIX ++ suffix) (numeric : isNumeric suffix = true) :
    ∃ index, suffix = Units.digits index ∧ levels = nip06Levels index := by
  have apart : 47 ∉ suffix := fun member =>
    absurd (List.all_eq_true.mp (Bool.and_eq_true_iff.mp numeric).2 47 member) (by decide)
  have ends : PQ_ACCOUNT_PREFIX = Units.ofString "m/44'/1237'/0'/0" ++ [47] := by decide
  have split := splitOn_spelling levels
  rw [same, ends, List.append_assoc, List.singleton_append, List.splitOn_append_cons_self,
    List.splitOn_eq_singleton apart] at split
  have last : suffix ∈ [109] :: levels.map Level.spell := by
    rw [← split]
    exact List.mem_append_right _ List.mem_cons_self
  rcases List.mem_cons.mp last with rfl | member
  · exact absurd numeric (by decide)
  obtain ⟨level, -, rfl⟩ := List.mem_map.mp member
  have digits := spell_of_numeric numeric
  refine ⟨level.index, digits, spelling_injective ?_⟩
  rw [same, spelling_nip06, digits]

theorem isPrefixOf_append (before after : Units) : before.isPrefixOf (before ++ after) = true := by
  rw [List.isPrefixOf_iff_prefix]
  exact List.prefix_append before after

/-- A text has a standard index if it denotes that member of the sequence. -/
theorem standardDerivationIndex_iff {value : Units} {index : Nat} :
    standardDerivationIndex value = some index ↔
      ∃ path, derivationPath index = some path ∧ normalizeDerivationPath value = some path := by
  unfold standardDerivationIndex derivationPath
  rw [prefixes]
  constructor
  · intro found
    cases normal : normalizeDerivationPath value with
    | none => simp [normal] at found
    | some canonical =>
      simp only [normal] at found
      split at found
      · next begins =>
        obtain ⟨suffix, rfl⟩ := List.isPrefixOf_iff_prefix.mp begins
        rw [List.drop_left] at found
        split at found
        · next numeric =>
          obtain ⟨-, levels, -, bounded, same⟩ := normalizeDerivationPath_iff.mp normal
          obtain ⟨number, rfl, rfl⟩ := nip06_of_prefix same.symm numeric
          rw [(Units.digits_spec number).1] at found
          obtain rfl := Option.some.inj found
          have small : number ≤ MAX_BIP32_INDEX := bounded.index ⟨number, false⟩ (by
            simp [nip06Levels])
          refine ⟨_, if_neg ?_, rfl⟩
          omega
        · contradiction
      · contradiction
  · rintro ⟨path, made, normal⟩
    split at made
    · contradiction
    · rw [Int.toNat_natCast] at made
      obtain rfl := Option.some.inj made
      simp only [normal]
      rw [if_pos (isPrefixOf_append _ _), List.drop_left, if_pos (isNumeric_digits index),
        (Units.digits_spec index).1]

theorem normalizeDerivationPath_derivationPath {index : Nat} (valid : index ≤ MAX_BIP32_INDEX) :
    ∃ path, derivationPath index = some path ∧ normalizeDerivationPath path = some path := by
  have bounded : Bounded (nip06Levels index) := by
    refine ⟨show 5 ≤ 255 by decide, fun level member => ?_⟩
    simp only [nip06Levels, List.mem_cons, List.not_mem_nil, or_false] at member
    rcases member with rfl | rfl | rfl | rfl | rfl
    · decide
    · decide
    · decide
    · decide
    · exact valid
  have normal := normalizeDerivationPath_spelling bounded
  rw [spelling_nip06] at normal
  refine ⟨_, ?_, normal⟩
  unfold derivationPath
  rw [if_neg (by omega), prefixes, Int.toNat_natCast]

/-! ## What the selector tells apart -/

theorem digits_decimal {digits : Units} (all : ∀ unit ∈ digits, isDigit unit = true)
    (canonical : digits = [48] ∨ digits ≠ [] ∧ digits.head? ≠ some 48) :
    Units.digits (Units.decimal digits) = digits := by
  induction digits using List.reverseRecOn with
  | nil => exact absurd rfl (canonical.resolve_left (by decide)).1
  | append_singleton first last ih =>
    have digit := all last (List.mem_append_right _ List.mem_cons_self)
    have bounds : 48 ≤ last.toNat ∧ last.toNat ≤ 57 := by
      simpa [isDigit, UInt16.le_iff_toNat_le] using digit
    have back : UInt16.ofNat (48 + (last.toNat - 48)) = last := by
      rw [Nat.add_sub_cancel' bounds.1]
      exact UInt16.ofNat_toNat
    rw [Units.decimal_append]
    cases first with
    | nil =>
      have zero : Units.decimal [] = 0 := rfl
      rw [zero, Nat.zero_mul, Nat.zero_add, Units.digits_small (by omega), back]
      rfl
    | cons head rest =>
      have leading : head ≠ 48 := by
        rcases canonical with zero | ⟨-, nonzero⟩
        · simp at zero
        · exact fun zero => nonzero (congrArg some zero)
      have before := ih (fun unit member => all unit (List.mem_append_left _ member))
        (.inr ⟨List.cons_ne_nil _ _, fun zero => leading (Option.some.inj zero)⟩)
      have positive : Units.decimal (head :: rest) ≠ 0 := by
        intro zero
        rw [zero, Units.digits_small (by decide)] at before
        exact leading (List.cons.inj before).1.symm
      rw [Units.digits_large (by omega)]
      have quotient : (Units.decimal (head :: rest) * 10 + (last.toNat - 48)) / 10 =
        Units.decimal (head :: rest) := by omega
      have remainder : (Units.decimal (head :: rest) * 10 + (last.toNat - 48)) % 10 =
        last.toNat - 48 := by omega
      rw [quotient, remainder, before, back]

theorem isCanonicalPart_iff {part : Units} :
    isCanonicalPart part = true ↔ ∃ level : Level, level.spell = part := by
  unfold isCanonicalPart
  constructor
  · intro accepted
    simp only [Bool.and_eq_true, Bool.or_eq_true, decide_eq_true_eq, Bool.not_eq_true',
      List.isEmpty_eq_false_iff, ne_eq] at accepted
    obtain ⟨canonical, sign⟩ := accepted
    have digits := digits_decimal (fun unit member => List.mem_takeWhile_imp member) canonical
    have whole := @List.takeWhile_append_dropWhile _ isDigit part
    rcases sign with none_ | some_
    · refine ⟨⟨Units.decimal (part.takeWhile isDigit), false⟩, ?_⟩
      rw [none_] at whole
      exact (congrArg (· ++ []) digits).trans whole
    · refine ⟨⟨Units.decimal (part.takeWhile isDigit), true⟩, ?_⟩
      rw [some_] at whole
      exact (congrArg (· ++ [39]) digits).trans whole
  · rintro ⟨⟨index, hardened⟩, rfl⟩
    have sign : (if hardened then [39] else [] : Units) = [] ∨
        (if hardened then [39] else [] : Units) = [39] := by
      cases hardened
      · exact .inl rfl
      · exact .inr rfl
    obtain ⟨taken, dropped⟩ := digits_take index sign
    obtain ⟨-, -, first, rest, begins, leading⟩ := Units.digits_spec index
    unfold Level.spell
    dsimp only
    rw [taken, dropped, begins]
    by_cases zero : first = 48
    · obtain ⟨rfl, -⟩ := leading zero
      simp [zero]
    · simp [zero]

theorem isCanonicalPath_iff {text : Units} :
    isCanonicalPath text = true ↔ ∃ levels, spelling levels = text := by
  unfold isCanonicalPath
  constructor
  · intro accepted
    obtain ⟨root, parts⟩ := Bool.and_eq_true_iff.mp accepted
    have whole : [47].intercalate (text.splitOn 47) = text := List.intercalate_splitOn 47
    cases split : text.splitOn 47 with
    | nil =>
      rw [split] at root
      exact absurd root (by decide)
    | cons first rest =>
      rw [split] at root parts whole
      obtain rfl : first = [109] := Option.some.inj (of_decide_eq_true root)
      have spelled : rest ∈ Set.range (List.map Level.spell) := by
        rw [Set.range_list_map]
        exact fun part member => isCanonicalPart_iff.mp (List.all_eq_true.mp parts part member)
      obtain ⟨levels, rfl⟩ := spelled
      exact ⟨levels, whole⟩
  · rintro ⟨levels, rfl⟩
    rw [splitOn_spelling]
    refine Bool.and_eq_true_iff.mpr ⟨rfl, List.all_eq_true.mpr fun part member => ?_⟩
    obtain ⟨level, -, rfl⟩ := List.mem_map.mp member
    exact isCanonicalPart_iff.mpr ⟨level, rfl⟩

def Places (levels : List Level) (selector : Units) : Prop :=
  (∃ index, levels = nip06Levels index ∧ selector = Units.digits index) ∨
    (∀ index, levels ≠ nip06Levels index) ∧ selector = Units.ofString "path/" ++ spelling levels

theorem Places.same_iff {levels others : List Level} {selector other : Units}
    (place : Places levels selector) (place' : Places others other) :
    selector = other ↔ levels = others := by
  have apart : ∀ index rest, Units.digits index ≠ Units.ofString "path/" ++ rest := by
    intro index rest same
    obtain ⟨-, all, -⟩ := Units.digits_spec index
    have digit := all 112 (by rw [same]; exact List.mem_append_left _ (by decide))
    exact absurd digit (by decide)
  rcases place with ⟨index, rfl, rfl⟩ | ⟨custom, rfl⟩ <;>
    rcases place' with ⟨index', rfl, rfl⟩ | ⟨custom', rfl⟩
  · constructor
    · intro same
      have value := congrArg Units.decimal same
      rw [(Units.digits_spec index).1, (Units.digits_spec index').1] at value
      rw [value]
    · intro same
      have spelled := congrArg spelling same
      rw [spelling_nip06, spelling_nip06] at spelled
      exact List.append_cancel_left spelled
  · exact ⟨fun same => absurd same (apart _ _), fun same => absurd same.symm (custom' index)⟩
  · exact ⟨fun same => absurd same.symm (apart _ _), fun same => absurd same (custom index')⟩
  · constructor
    · exact fun same => spelling_injective (List.append_cancel_left same)
    · rintro rfl
      rfl

theorem derivationSelector_path :
    derivationSelector (.path (spelling levels)) =
      if levels.any fun level => MAX_BIP32_INDEX < level.index then none
      else
        let suffix := (spelling levels).drop PQ_ACCOUNT_PREFIX.length
        if PQ_ACCOUNT_PREFIX.isPrefixOf (spelling levels) && isNumeric suffix then some suffix
        else some (Units.ofString "path/" ++ spelling levels) := by
  have index : ∀ level : Level, Units.decimal (level.spell.erase 39) = level.index := by
    rintro ⟨index, hardened⟩
    obtain ⟨value, all, -⟩ := Units.digits_spec index
    have unmarked : 39 ∉ Units.digits index := fun member => absurd (all 39 member) (by decide)
    unfold Level.spell
    cases hardened with
    | false =>
      rw [if_neg Bool.false_ne_true, List.append_nil, List.erase_of_not_mem unmarked]
      exact value
    | true =>
      rw [if_pos rfl, List.erase_append_right _ unmarked, List.erase_cons_head, List.append_nil]
      exact value
  unfold derivationSelector
  dsimp only
  rw [isCanonicalPath_iff.mpr ⟨levels, rfl⟩, splitOn_spelling]
  simp only [Bool.not_true, Bool.false_eq_true, if_false, List.drop_one, List.tail_cons, List.any_map]
  simp only [Function.comp_def, index]

theorem places_of_selector {account : PqAccount} {selector : Units}
    (given : derivationSelector account = some selector) :
    ∃ levels, denotes account = some levels ∧ Places levels selector := by
  cases account with
  | index number =>
    unfold derivationSelector at given
    dsimp only at given
    split at given
    · contradiction
    · obtain rfl := Option.some.inj given
      exact ⟨_, rfl, .inl ⟨_, rfl, rfl⟩⟩
  | path text =>
    by_cases accepted : isCanonicalPath text = true
    · obtain ⟨levels, rfl⟩ := isCanonicalPath_iff.mp accepted
      refine ⟨levels, levelsOf_spelling levels, ?_⟩
      rw [derivationSelector_path] at given
      split at given
      · contradiction
      dsimp only at given
      split at given
      · next standard =>
        obtain ⟨begins, numeric⟩ := Bool.and_eq_true_iff.mp standard
        obtain ⟨suffix, same⟩ := List.isPrefixOf_iff_prefix.mp begins
        rw [← same, List.drop_left] at numeric given
        obtain rfl := Option.some.inj given
        obtain ⟨index, digits, standard⟩ := nip06_of_prefix same.symm numeric
        exact .inl ⟨index, standard, digits⟩
      · next custom =>
        refine .inr ⟨?_, (Option.some.inj given).symm⟩
        rintro index rfl
        refine custom ?_
        rw [spelling_nip06, isPrefixOf_append, List.drop_left, isNumeric_digits]
        rfl
    · unfold derivationSelector at given
      simp [accepted] at given

theorem derivationSelector_accepts {levels : List Level} (bounded : Bounded levels) :
    (derivationSelector (.path (spelling levels))).isSome = true := by
  have within : (levels.any fun level => MAX_BIP32_INDEX < level.index) = false := by
    refine List.any_eq_false.mpr fun level member => ?_
    have index := bounded.index level member
    simp only [decide_eq_true_eq]
    omega
  rw [derivationSelector_path, within, if_neg Bool.false_ne_true]
  dsimp only
  split
  · rfl
  · rfl

theorem infoOf_same_iff {algorithm : Units} {account other : PqAccount} {info info' : Units}
    (given : infoOf algorithm account = some info) (given' : infoOf algorithm other = some info') :
    info = info' ↔ denotes account = denotes other := by
  obtain ⟨selector, selected, rfl⟩ := Option.map_eq_some_iff.mp given
  obtain ⟨selector', selected', rfl⟩ := Option.map_eq_some_iff.mp given'
  obtain ⟨levels, path, place⟩ := places_of_selector selected
  obtain ⟨levels', path', place'⟩ := places_of_selector selected'
  rw [path, path', Option.some.injEq, ← place.same_iff place']
  simp

end NostrWot.Identity
