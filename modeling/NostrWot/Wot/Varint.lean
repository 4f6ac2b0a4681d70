import Mathlib.Data.Finset.Sort
import Mathlib.Data.List.Sort
import Mathlib.Tactic.Ring

namespace NostrWot.Wot.Varint

/-! # Follow rows

Follow ids on disk: sorted, and each told by its distance from the one before, in a fixed width or
as a varint.
-/

def encodeDeltas (prior : Nat) : List Nat → List UInt32
  | [] => []
  | id :: rest => UInt32.ofNat (id - prior) :: encodeDeltas id rest

def encodeFollows (followIds : List Nat) : List UInt32 :=
  encodeDeltas 0 (followIds.insertionSort (· ≤ ·))

def decodeDeltas (prior : UInt32) : List UInt32 → List UInt32
  | [] => []
  | delta :: rest => (prior + delta) :: decodeDeltas (prior + delta) rest

def decodeFollows (buffer : List UInt32) : List UInt32 := decodeDeltas 0 buffer

/-- Seven bits a byte, the lowest first. -/
def varint (delta : Nat) : List UInt8 :=
  if 128 ≤ delta then UInt8.ofNat ((delta % 128) ||| 128) :: varint (delta / 128)
  else [UInt8.ofNat delta]
termination_by delta

def encodeVarints (prior : Nat) : List Nat → Option (List UInt8)
  | [] => some []
  | id :: rest =>
    if 0xffffffff < id then none
    else (encodeVarints id rest).map fun bytes => varint (id - prior) ++ bytes

def encodeCompactFollows (ids : List Nat) : Option (List UInt8) :=
  encodeVarints 0 (ids.dedup.insertionSort (· ≤ ·))

/-- The loop of `decodeCompactFollows`. -/
def decodeVarints (prior delta factor : Nat) : List UInt8 → Option (List Nat)
  | [] => if factor = 1 then some [] else none
  | byte :: rest =>
    let grown := delta + (byte.toNat &&& 127) * factor
    if 0xffffffff < grown ∨ 0x10000000 < factor then none
    else if byte.toNat &&& 128 ≠ 0 then decodeVarints prior grown (factor * 128) rest
    else if 0xffffffff < prior + grown then none
    else (decodeVarints (prior + grown) 0 1 rest).map fun values => (prior + grown) :: values

def decodeCompactFollows (buffer : List UInt8) : Option (List Nat) := decodeVarints 0 0 1 buffer

/-! ## One byte -/

theorem low_bits (byte : UInt8) : byte.toNat &&& 127 = byte.toNat % 128 :=
  Nat.and_two_pow_sub_one_eq_mod _ 7

set_option maxRecDepth 2000 in
theorem high_bit (byte : UInt8) : byte.toNat &&& 128 ≠ 0 ↔ 128 ≤ byte.toNat := by
  have every : ∀ value < 256, value &&& 128 ≠ 0 ↔ 128 ≤ value := by decide
  exact every _ byte.toNat_lt

theorem toNat_continued (delta : Nat) :
    (UInt8.ofNat ((delta % 128) ||| 128)).toNat = delta % 128 + 128 := by
  have every : ∀ low < 128, low ||| 128 = low + 128 := by decide
  rw [every _ (Nat.mod_lt _ (by decide)), UInt8.toNat_ofNat']
  omega

variable {prior delta factor : Nat} {byte : UInt8} {rest : List UInt8}

theorem decodeVarints_guarded
    (refused : 0xffffffff < delta + byte.toNat % 128 * factor ∨ 0x10000000 < factor) :
    decodeVarints prior delta factor (byte :: rest) = none := by
  rw [decodeVarints, low_bits, if_pos refused]

theorem decodeVarints_more (continued : 128 ≤ byte.toNat)
    (fits : ¬(0xffffffff < delta + byte.toNat % 128 * factor ∨ 0x10000000 < factor)) :
    decodeVarints prior delta factor (byte :: rest) =
      decodeVarints prior (delta + byte.toNat % 128 * factor) (factor * 128) rest := by
  rw [decodeVarints, low_bits, if_neg fits, if_pos ((high_bit byte).mpr continued)]

theorem decodeVarints_last (last : byte.toNat < 128)
    (fits : ¬(0xffffffff < delta + byte.toNat * factor ∨ 0x10000000 < factor)) :
    decodeVarints prior delta factor (byte :: rest) =
      if 0xffffffff < prior + (delta + byte.toNat * factor) then none
      else (decodeVarints (prior + (delta + byte.toNat * factor)) 0 1 rest).map fun values =>
        (prior + (delta + byte.toNat * factor)) :: values := by
  rw [decodeVarints, low_bits, Nat.mod_eq_of_lt last, if_neg fits,
    if_neg (mt (high_bit byte).mp (Nat.not_le.mpr last))]

/-! ## What is written is read -/

/-- The rest of a varint is read on top of the groups that came before. -/
theorem decodeVarints_varint {value : Nat}
    (place : factor = 1 ∨ factor = 2 ^ 7 ∨ factor = 2 ^ 14 ∨ factor = 2 ^ 21 ∨ factor = 2 ^ 28)
    (bounded : prior + (delta + value * factor) < 2 ^ 32) :
    decodeVarints prior delta factor (varint value ++ rest) =
      (decodeVarints (prior + (delta + value * factor)) 0 1 rest).map fun values =>
        (prior + (delta + value * factor)) :: values := by
  induction value using Nat.strongRecOn generalizing delta factor with
  | ind value ih =>
    rw [varint]
    by_cases large : 128 ≤ value
    · have parts : value % 128 + value / 128 * 128 = value := Nat.mod_add_div' value 128
      have split : delta + value % 128 * factor + value / 128 * (factor * 128) =
          delta + value * factor := by
        rw [Nat.add_assoc, Nat.mul_comm factor, ← Nat.mul_assoc, ← Nat.add_mul, parts]
      have next : factor * 128 = 2 ^ 7 ∨ factor * 128 = 2 ^ 14 ∨ factor * 128 = 2 ^ 21 ∨
          factor * 128 = 2 ^ 28 := by
        rcases place with rfl | rfl | rfl | rfl | rfl <;> omega
      rw [if_pos large, List.cons_append, decodeVarints_more, toNat_continued,
        Nat.add_mod_right, Nat.mod_mod, ih (value / 128) (by omega) (.inr next), split]
      · rw [split]
        exact bounded
      · rw [toNat_continued]
        omega
      · rw [toNat_continued, Nat.add_mod_right, Nat.mod_mod]
        rcases place with rfl | rfl | rfl | rfl | rfl <;> omega
    · have byte : (UInt8.ofNat value).toNat = value := by
        rw [UInt8.toNat_ofNat']
        omega
      rw [if_neg large, List.singleton_append, decodeVarints_last, byte, if_neg (by omega)]
      · omega
      · rw [byte]
        rcases place with rfl | rfl | rfl | rfl | rfl <;> omega

theorem decode_encodeVarints {ids : List Nat} (ordered : (prior :: ids).Pairwise (· ≤ ·))
    (bounded : ∀ id ∈ ids, id < 2 ^ 32) :
    (encodeVarints prior ids).bind (decodeVarints prior 0 1) = some ids := by
  induction ids generalizing prior with
  | nil => rfl
  | cons id rest ih =>
    obtain ⟨least, later⟩ := List.pairwise_cons.mp ordered
    have below : prior ≤ id := least id List.mem_cons_self
    have small : id < 2 ^ 32 := bounded id List.mem_cons_self
    have back := ih later fun other member => bounded other (List.mem_cons_of_mem _ member)
    obtain ⟨bytes, encoded, decoded⟩ := Option.bind_eq_some_iff.mp back
    have whole : prior + (0 + (id - prior) * 1) = id := by omega
    rw [encodeVarints, if_neg (by omega), encoded, Option.map_some, Option.bind_some,
      decodeVarints_varint (.inl rfl) (by omega), whole, decoded]
    rfl

theorem decode_encodeDeltas {ids : List Nat} (ordered : (prior :: ids).Pairwise (· ≤ ·)) :
    decodeDeltas (UInt32.ofNat prior) (encodeDeltas prior ids) = ids.map UInt32.ofNat := by
  induction ids generalizing prior with
  | nil => rfl
  | cons id rest ih =>
    obtain ⟨least, later⟩ := List.pairwise_cons.mp ordered
    have sum : UInt32.ofNat prior + UInt32.ofNat (id - prior) = UInt32.ofNat id := by
      rw [← UInt32.ofNat_add, Nat.add_sub_cancel' (least id List.mem_cons_self)]
    rw [encodeDeltas, decodeDeltas, sum, ih later, List.map_cons]

/-! ## What is read -/

theorem decodeVarints_ordered {values : List Nat}
    (read : decodeVarints prior delta factor rest = some values) :
    values.Pairwise (· ≤ ·) ∧ ∀ value ∈ values, prior ≤ value ∧ value < 2 ^ 32 := by
  induction rest generalizing prior delta factor values with
  | nil =>
    rw [decodeVarints] at read
    split at read
    · cases read
      exact ⟨.nil, fun _ absurd => absurd |> List.not_mem_nil |>.elim⟩
    · contradiction
  | cons byte rest ih =>
    simp only [decodeVarints] at read
    split at read
    · contradiction
    split at read
    · exact ih read
    split at read
    · contradiction
    · obtain ⟨others, rest_, rfl⟩ := Option.map_eq_some_iff.mp read
      obtain ⟨ordered, bounds⟩ := ih rest_
      refine ⟨List.pairwise_cons.mpr ⟨fun other member => (bounds other member).1, ordered⟩, ?_⟩
      intro value member
      rcases List.mem_cons.mp member with rfl | later
      · omega
      · have := bounds value later
        omega

theorem decodeVarints_cutOff {before : List UInt8} (continued : 128 ≤ byte.toNat) :
    decodeVarints prior delta factor (before ++ [byte]) = none := by
  induction before generalizing prior delta factor with
  | nil =>
    by_cases fits : 0xffffffff < delta + byte.toNat % 128 * factor ∨ 0x10000000 < factor
    · exact decodeVarints_guarded fits
    · rw [List.nil_append, decodeVarints_more continued fits, decodeVarints, if_neg (by omega)]
  | cons first before ih =>
    simp only [List.cons_append, decodeVarints, ih, Option.map_none, ite_self]

/-- The number that seven bits a byte say. -/
def weigh : List UInt8 → Nat
  | [] => 0
  | byte :: rest => byte.toNat % 128 + 128 * weigh rest

def IsVarint (group : List UInt8) : Prop :=
  ∃ more last, group = more ++ [last] ∧ (∀ byte ∈ more, 128 ≤ byte.toNat) ∧ last.toNat < 128

theorem decodeVarints_group {more : List UInt8} {last : UInt8}
    (continued : ∀ byte ∈ more, 128 ≤ byte.toNat) (ends : last.toNat < 128) :
    decodeVarints prior delta factor (more ++ last :: rest) = none ∨
      prior + (delta + weigh (more ++ [last]) * factor) < 2 ^ 32 ∧
        decodeVarints prior delta factor (more ++ last :: rest) =
          (decodeVarints (prior + (delta + weigh (more ++ [last]) * factor)) 0 1 rest).map
            fun values => (prior + (delta + weigh (more ++ [last]) * factor)) :: values := by
  induction more generalizing delta factor with
  | nil =>
    have weight : weigh ([] ++ [last]) = last.toNat := by
      rw [List.nil_append, weigh, weigh, Nat.mod_eq_of_lt ends]
      rfl
    by_cases fits : 0xffffffff < delta + last.toNat * factor ∨ 0x10000000 < factor
    · rw [← Nat.mod_eq_of_lt ends] at fits
      exact .inl (decodeVarints_guarded fits)
    · rw [List.nil_append, decodeVarints_last ends fits, weight]
      split
      · exact .inl rfl
      · exact .inr ⟨by omega, rfl⟩
  | cons byte more ih =>
    by_cases fits : 0xffffffff < delta + byte.toNat % 128 * factor ∨ 0x10000000 < factor
    · exact .inl (decodeVarints_guarded fits)
    · have weight : delta + byte.toNat % 128 * factor + weigh (more ++ [last]) * (factor * 128) =
          delta + weigh (byte :: more ++ [last]) * factor := by
        rw [List.cons_append, weigh]
        ring
      rw [List.cons_append, decodeVarints_more (continued byte List.mem_cons_self) fits, ← weight]
      exact ih fun other member => continued other (List.mem_cons_of_mem _ member)

theorem decodeVarints_overflow {groups : List (List UInt8)} (varints : ∀ group ∈ groups, IsVarint group)
    (beyond : 2 ^ 32 ≤ prior + (groups.map weigh).sum) (below : prior < 2 ^ 32) :
    decodeVarints prior 0 1 (groups.flatten ++ rest) = none := by
  induction groups generalizing prior with
  | nil =>
    rw [List.map_nil, List.sum_nil] at beyond
    omega
  | cons group groups ih =>
    obtain ⟨more, last, rfl, continued, ends⟩ := varints group List.mem_cons_self
    have parts : ((more ++ [last]) :: groups).flatten ++ rest =
        more ++ last :: (groups.flatten ++ rest) := by simp
    rw [List.map_cons, List.sum_cons] at beyond
    rw [parts]
    rcases @decodeVarints_group prior 0 1 _ _ _ continued ends with refused | ⟨fits, read⟩
    · exact refused
    · rw [read, ih (fun other member => varints other (List.mem_cons_of_mem _ member)) (by omega) fits]
      rfl

/-- Rows come back as their sorted ids, and a row that is not one is refused or read as sorted
ids. -/
theorem follows_codec :
    (∀ ids : List Nat, (∀ id ∈ ids, id < 2 ^ 32) →
      (encodeCompactFollows ids).bind decodeCompactFollows = some (ids.toFinset.sort (· ≤ ·)) ∧
        (decodeFollows (encodeFollows ids)).map UInt32.toNat = ids.insertionSort (· ≤ ·)) ∧
    ∀ buffer : List UInt8,
      (∀ follows, decodeCompactFollows buffer = some follows →
        follows.Pairwise (· ≤ ·) ∧ ∀ id ∈ follows, id < 2 ^ 32) ∧
      (∀ before last, buffer = before ++ [last] → 128 ≤ last.toNat →
        decodeCompactFollows buffer = none) ∧
      ∀ (groups : List (List UInt8)) (rest : List UInt8), (∀ group ∈ groups, IsVarint group) → buffer = groups.flatten ++ rest →
        2 ^ 32 ≤ (groups.map weigh).sum → decodeCompactFollows buffer = none := by
  refine ⟨fun ids bounded => ?_, fun buffer => ⟨fun follows read => ?_, ?_, ?_⟩⟩
  · have least : ∀ list : List Nat, (0 :: list.insertionSort (· ≤ ·)).Pairwise (· ≤ ·) :=
      fun list => List.pairwise_cons.mpr ⟨fun _ _ => Nat.zero_le _, List.pairwise_insertionSort _ _⟩
    constructor
    · have sorted : ids.dedup.insertionSort (· ≤ ·) = ids.toFinset.sort (· ≤ ·) := by
        refine ((List.toFinset_sort (· ≤ ·) ?_).mpr (List.pairwise_insertionSort _ _)).symm.trans ?_
        · exact (List.perm_insertionSort _ _).nodup_iff.mpr (List.nodup_dedup ids)
        · congr 1
          ext id
          simp
      unfold encodeCompactFollows decodeCompactFollows
      rw [← sorted]
      refine decode_encodeVarints (least _) fun id member => bounded id ?_
      exact List.mem_dedup.mp ((List.mem_insertionSort _).mp member)
    · unfold decodeFollows encodeFollows
      have back := @decode_encodeDeltas 0 _ (least ids)
      refine (congrArg (List.map UInt32.toNat) back).trans ?_
      rw [List.map_map]
      refine (List.map_congr_left fun id member => ?_).trans (List.map_id _)
      exact UInt32.toNat_ofNat_of_lt (bounded id ((List.mem_insertionSort _).mp member))
  · obtain ⟨ordered, bounds⟩ := decodeVarints_ordered read
    exact ⟨ordered, fun id member => (bounds id member).2⟩
  · rintro before last rfl continued
    exact decodeVarints_cutOff continued
  · rintro groups rest varints rfl beyond
    exact decodeVarints_overflow varints (by omega) (by decide)

theorem follows_codec_two :
    (encodeCompactFollows [300, 7, 300]).bind decodeCompactFollows =
        some ([300, 7, 300].toFinset.sort (· ≤ ·)) ∧
      (decodeFollows (encodeFollows [300, 7, 300])).map UInt32.toNat =
        [300, 7, 300].insertionSort (· ≤ ·) :=
  follows_codec.1 [300, 7, 300] (by decide)

end NostrWot.Wot.Varint
