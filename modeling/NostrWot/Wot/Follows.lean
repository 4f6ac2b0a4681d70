import NostrWot.Data.Utf16
import Mathlib.Data.List.Sort
import Mathlib.Data.List.Nodup
import Mathlib.Tactic.IntervalCases
import Mathlib.Tactic.Ring

namespace NostrWot.Wot

open NostrWot.Data

/-! # Follow rows

A row of follow ids is held in memory as sorted numbers, and on disk as varints of their deltas.
-/

structure FollowVersion where
  createdAt : Int
  id : String
  deriving DecidableEq

def newerVersion (candidate prior : FollowVersion) : Bool :=
  prior.createdAt < candidate.createdAt ||
    candidate.createdAt = prior.createdAt && !unitsLe prior.id candidate.id

/-- The follow ids of a row on disk, by its `encoding`. -/
inductive FollowData where
  | fixed (deltas : List Nat)
  | compact (bytes : List Nat)
  | unknown
  deriving DecidableEq

def sortIds (ids : List Nat) : List Nat := ids.insertionSort (· ≤ ·)

def decodeFollows (prior : Nat) : List Nat → List Nat
  | [] => []
  | delta :: rest => (prior + delta) % 2 ^ 32 :: decodeFollows ((prior + delta) % 2 ^ 32) rest

/-- The bytes of one delta, which `fuel` bounds. -/
def varint : Nat → Nat → List Nat
  | 0, delta => [delta]
  | fuel + 1, delta =>
    if 128 ≤ delta then (delta % 128 ||| 128) :: varint fuel (delta / 128) else [delta]

def encodeDeltas (prior : Nat) : List Nat → Option (List Nat)
  | [] => some []
  | id :: rest =>
    if 0xffffffff < id then none
    else (encodeDeltas id rest).map (varint (id - prior) (id - prior) ++ ·)

/-- `encodeCompactFollows`, which throws a `RangeError`. -/
def encodeCompactFollows (ids : List Nat) : Option (List Nat) :=
  encodeDeltas 0 (sortIds ids.eraseDups)

def decodeBytes (prior delta factor : Nat) : List Nat → Option (List Nat)
  | [] => if factor = 1 then some [] else none
  | byte :: rest =>
    let sum := delta + (byte &&& 127) * factor
    if 0xffffffff < sum ∨ 0x10000000 < factor then none
    else if byte &&& 128 ≠ 0 then decodeBytes prior sum (factor * 128) rest
    else if 0xffffffff < prior + sum then none
    else (decodeBytes (prior + sum) 0 1 rest).map ((prior + sum) :: ·)

def decodeCompactFollows (bytes : List Nat) : Option (List Nat) := decodeBytes 0 0 1 bytes

/-- The ids of a row that `loadAll` reads. -/
def FollowData.decode : FollowData → Option (List Nat)
  | .fixed deltas => some (decodeFollows 0 deltas).eraseDups
  | .compact bytes => decodeCompactFollows bytes
  | .unknown => none

/-! ## Varints -/

theorem continued {low : Nat} (small : low < 128) :
    (low ||| 128) &&& 127 = low ∧ (low ||| 128) &&& 128 ≠ 0 := by
  have all : ∀ byte : Fin 128, (byte.val ||| 128) &&& 127 = byte.val ∧
      (byte.val ||| 128) &&& 128 ≠ 0 := by decide
  exact all ⟨low, small⟩

theorem ended {low : Nat} (small : low < 128) : low &&& 127 = low ∧ low &&& 128 = 0 := by
  have all : ∀ byte : Fin 128, byte.val &&& 127 = byte.val ∧ byte.val &&& 128 = 0 := by decide
  exact all ⟨low, small⟩

theorem decodeBytes_last {prior delta factor low : Nat} {rest : List Nat} (small : low < 128)
    (fits : prior + (delta + low * factor) ≤ 0xffffffff) (few : factor ≤ 0x10000000) :
    decodeBytes prior delta factor (low :: rest) =
      (decodeBytes (prior + (delta + low * factor)) 0 1 rest).map
        ((prior + (delta + low * factor)) :: ·) := by
  obtain ⟨low7, high⟩ := ended small
  have fine : ¬(0xffffffff < delta + low * factor ∨ 0x10000000 < factor) := by omega
  conv_lhs => unfold decodeBytes
  dsimp only
  rw [low7, high, if_neg fine, if_neg (by decide), if_neg (Nat.not_lt.mpr fits)]

theorem decodeBytes_varint {fuel : Nat} : ∀ {prior acc delta place : Nat} {rest : List Nat},
    delta ≤ fuel → place ≤ 4 → prior + (acc + delta * 128 ^ place) ≤ 0xffffffff →
      decodeBytes prior acc (128 ^ place) (varint fuel delta ++ rest) =
        (decodeBytes (prior + (acc + delta * 128 ^ place)) 0 1 rest).map
          ((prior + (acc + delta * 128 ^ place)) :: ·) := by
  induction fuel with
  | zero =>
    intro prior acc delta place rest enough places fits
    have few : 128 ^ place ≤ 0x10000000 := by interval_cases place <;> decide
    exact decodeBytes_last (by omega) fits few
  | succ fuel ih =>
    intro prior acc delta place rest enough places fits
    have few : 128 ^ place ≤ 0x10000000 := by interval_cases place <;> decide
    unfold varint
    split
    · rename_i big
      have small : delta % 128 < 128 := Nat.mod_lt _ (by decide)
      obtain ⟨low7, high⟩ := continued small
      have next : place + 1 ≤ 4 := by interval_cases place <;> omega
      have parts : acc + delta % 128 * 128 ^ place + delta / 128 * 128 ^ (place + 1) =
          acc + delta * 128 ^ place := by
        have whole : delta * 128 ^ place =
            (128 * (delta / 128) + delta % 128) * 128 ^ place := by rw [Nat.div_add_mod]
        rw [whole, Nat.pow_succ]
        ring
      have fine : ¬(0xffffffff < acc + delta % 128 * 128 ^ place ∨ 0x10000000 < 128 ^ place) := by
        omega
      have read := @ih prior (acc + delta % 128 * 128 ^ place) (delta / 128) (place + 1) rest
        (by omega) next (by rw [parts]; exact fits)
      rw [parts] at read
      rw [List.cons_append]
      conv_lhs => unfold decodeBytes
      dsimp only
      rw [low7, if_neg fine, if_pos high, ← Nat.pow_succ]
      exact read
    · exact decodeBytes_last (by omega) fits few

/-- A row that is read back as it was written. -/
def Stored (ids : List Nat) : Prop := ids.Pairwise (· < ·) ∧ ∀ id ∈ ids, id ≤ 0xffffffff

theorem decodeBytes_encodeDeltas {ids : List Nat} : ∀ {prior : Nat}, (∀ id ∈ ids, prior ≤ id) →
    Stored ids → ∃ bytes, encodeDeltas prior ids = some bytes ∧ decodeBytes prior 0 1 bytes = some ids := by
  induction ids with
  | nil => exact fun _ _ => ⟨[], rfl, rfl⟩
  | cons id rest ih =>
    intro prior least stored
    obtain ⟨sorted, bound⟩ := stored
    obtain ⟨first, sorted⟩ := List.pairwise_cons.mp sorted
    obtain ⟨bytes, encoded, decoded⟩ := @ih id (fun other member => Nat.le_of_lt (first other member))
      ⟨sorted, fun other member => bound other (List.mem_cons_of_mem _ member)⟩
    have from_ := least id List.mem_cons_self
    have up := bound id List.mem_cons_self
    have delta : prior + (0 + (id - prior) * 128 ^ 0) = id := by omega
    refine ⟨varint (id - prior) (id - prior) ++ bytes, ?_, ?_⟩
    · unfold encodeDeltas
      rw [if_neg (Nat.not_lt.mpr up), encoded]
      rfl
    · have read := @decodeBytes_varint (id - prior) prior 0 (id - prior) 0 bytes (Nat.le_refl _)
        (by decide) (by rw [delta]; exact up)
      rw [delta] at read
      rw [Nat.pow_zero] at read
      rw [read, decoded]
      rfl

theorem eraseDups_of_nodup {ids : List Nat} (nodup : ids.Nodup) : ids.eraseDups = ids := by
  induction ids with
  | nil => rfl
  | cons id rest ih =>
    obtain ⟨absent, nodup⟩ := List.nodup_cons.mp nodup
    have kept : rest.filter (fun other => !other == id) = rest := by
      refine List.filter_eq_self.mpr fun other member => ?_
      have differs : other ≠ id := fun same => absent (same ▸ member)
      simp [differs]
    rw [List.eraseDups_cons, kept, ih nodup]

theorem nodup_eraseDups {α : Type} [BEq α] [LawfulBEq α] :
    ∀ (count : Nat) (items : List α), items.length ≤ count → items.eraseDups.Nodup := by
  intro count
  induction count with
  | zero =>
    intro items short
    rw [List.eq_nil_of_length_eq_zero (Nat.le_zero.mp short)]
    exact List.nodup_nil
  | succ count ih =>
    intro items short
    cases items with
    | nil => exact List.nodup_nil
    | cons item rest =>
      have shorter := (List.length_filter_le (fun other => !other == item) rest)
      rw [List.length_cons] at short
      rw [List.eraseDups_cons, List.nodup_cons, List.mem_eraseDups]
      refine ⟨fun member => ?_, ih _ (by omega)⟩
      simp at member

theorem decode_encodeCompactFollows {ids : List Nat} (stored : Stored ids) :
    ∃ bytes, encodeCompactFollows ids = some bytes ∧
      (FollowData.compact bytes).decode = some ids := by
  have same : sortIds ids.eraseDups = ids := by
    rw [eraseDups_of_nodup (stored.1.imp Nat.ne_of_lt)]
    exact List.Pairwise.insertionSort_eq (stored.1.imp Nat.le_of_lt)
  unfold encodeCompactFollows
  rw [same]
  exact decodeBytes_encodeDeltas (fun _ _ => Nat.zero_le _) stored

end NostrWot.Wot
