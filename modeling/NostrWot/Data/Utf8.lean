import Mathlib.Data.List.Basic

namespace NostrWot.Data.Utf8

/-! # UTF-8

The encoder and the decoder of the Encoding standard; the decoder replaces what it cannot read.
-/

def encodeChar (char : Char) : List UInt8 :=
  let point := char.toNat
  let tail (shift : Nat) : UInt8 := UInt8.ofNat (0x80 + point / shift % 64)
  if point ≤ 0x7F then [UInt8.ofNat point]
  else if point ≤ 0x7FF then [UInt8.ofNat (0xC0 + point / 64), tail 1]
  else if point ≤ 0xFFFF then [UInt8.ofNat (0xE0 + point / 4096), tail 64, tail 1]
  else [UInt8.ofNat (0xF0 + point / 262144), tail 4096, tail 64, tail 1]

def encode (text : List Char) : List UInt8 := text.flatMap encodeChar

inductive State where
  | start
  /-- So many bytes are needed, the next of them between two bounds. -/
  | within (needed lower upper point : Nat)

def replacement : Char := '\uFFFD'

/-- A byte that begins a code point. -/
def lead (byte : Nat) : List Char × State :=
  if byte ≤ 0x7F then ([Char.ofNat byte], .start)
  else if 0xC2 ≤ byte ∧ byte ≤ 0xDF then ([], .within 1 0x80 0xBF (byte % 32))
  else if 0xE0 ≤ byte ∧ byte ≤ 0xEF then
    ([], .within 2 (if byte = 0xE0 then 0xA0 else 0x80) (if byte = 0xED then 0x9F else 0xBF)
      (byte % 16))
  else if 0xF0 ≤ byte ∧ byte ≤ 0xF4 then
    ([], .within 3 (if byte = 0xF0 then 0x90 else 0x80) (if byte = 0xF4 then 0x8F else 0xBF)
      (byte % 8))
  else ([replacement], .start)

def step : State → Nat → List Char × State
  | .start, byte => lead byte
  | .within needed lower upper point, byte =>
    if lower ≤ byte ∧ byte ≤ upper then
      let point := point * 64 + byte % 64
      if needed = 1 then ([Char.ofNat point], .start)
      else ([], .within (needed - 1) 0x80 0xBF point)
    else
      -- the byte is put back, and read as the first of a code point
      (replacement :: (lead byte).1, (lead byte).2)

def decodeFrom : State → List UInt8 → List Char
  | .start, [] => []
  | .within .., [] => [replacement]
  | state, byte :: rest => (step state byte.toNat).1 ++ decodeFrom (step state byte.toNat).2 rest

def byteOrderMark : Char := '\uFEFF'

/-- `decode` of a `TextDecoder` with its default options: one byte order mark in front is
taken off. -/
def decode (bytes : List UInt8) : List Char :=
  match decodeFrom .start bytes with
  | [] => []
  | first :: rest => if first = byteOrderMark then rest else first :: rest

theorem decodeFrom_cons (state : State) (byte : UInt8) (rest : List UInt8) :
    decodeFrom state (byte :: rest) =
      (step state byte.toNat).1 ++ decodeFrom (step state byte.toNat).2 rest := by
  cases state <;> rfl

theorem toNat_ofNat {value : Nat} (small : value < 256) : (UInt8.ofNat value).toNat = value := by
  rw [UInt8.toNat_ofNat']
  omega

theorem decodeFrom_within {needed lower upper point value : Nat} (rest : List UInt8)
    (above : lower ≤ 0x80 + value) (below : 0x80 + value ≤ upper) (small : value < 64)
    (more : needed ≠ 1) :
    decodeFrom (.within needed lower upper point) (UInt8.ofNat (0x80 + value) :: rest) =
      decodeFrom (.within (needed - 1) 0x80 0xBF (point * 64 + value)) rest := by
  have low : (0x80 + value) % 64 = value := by omega
  rw [decodeFrom_cons, toNat_ofNat (by omega)]
  simp only [step, if_pos (And.intro above below), if_neg more, low, List.nil_append]

theorem decodeFrom_last {lower upper point value : Nat} (rest : List UInt8)
    (above : lower ≤ 0x80 + value) (below : 0x80 + value ≤ upper) (small : value < 64) :
    decodeFrom (.within 1 lower upper point) (UInt8.ofNat (0x80 + value) :: rest) =
      Char.ofNat (point * 64 + value) :: decodeFrom .start rest := by
  have low : (0x80 + value) % 64 = value := by omega
  rw [decodeFrom_cons, toNat_ofNat (by omega)]
  simp only [step, if_pos (And.intro above below), if_true, low, List.cons_append, List.nil_append]

theorem decodeFrom_encodeChar (char : Char) (rest : List UInt8) :
    decodeFrom .start (encodeChar char ++ rest) = char :: decodeFrom .start rest := by
  have valid : char.toNat < 55296 ∨ 57343 < char.toNat ∧ char.toNat < 1114112 := char.valid
  have same : ∀ point, point = char.toNat → Char.ofNat point = char := by
    intro point is
    rw [is, Char.ofNat_toNat]
  unfold encodeChar
  dsimp only
  split
  · rename_i one
    rw [List.cons_append, List.nil_append, decodeFrom_cons, toNat_ofNat (by omega)]
    simp only [step, lead, if_pos one, List.cons_append, List.nil_append]
    rw [same _ rfl]
  · rename_i one
    split
    · rename_i two
      rw [List.cons_append, List.cons_append, List.nil_append, decodeFrom_cons,
        toNat_ofNat (by omega)]
      have begins : lead (0xC0 + char.toNat / 64) =
          ([], .within 1 0x80 0xBF ((0xC0 + char.toNat / 64) % 32)) := by
        unfold lead
        rw [if_neg (by omega), if_pos (by omega)]
      simp only [step, begins, List.nil_append]
      rw [decodeFrom_last rest (by omega) (by omega) (by omega), same _ (by omega)]
    · rename_i two
      split
      · rename_i three
        rw [List.cons_append, List.cons_append, List.cons_append, List.nil_append, decodeFrom_cons,
          toNat_ofNat (by omega)]
        simp only [step, lead, if_neg (show ¬ 0xE0 + char.toNat / 4096 ≤ 0x7F by omega),
          if_neg (show ¬ (0xC2 ≤ 0xE0 + char.toNat / 4096 ∧ 0xE0 + char.toNat / 4096 ≤ 0xDF) by omega),
          if_pos (show 0xE0 ≤ 0xE0 + char.toNat / 4096 ∧ 0xE0 + char.toNat / 4096 ≤ 0xEF by omega),
          List.nil_append]
        rw [decodeFrom_within _ (by split <;> omega) (by split <;> omega) (by omega) (by decide),
          decodeFrom_last rest (by omega) (by omega) (by omega), same _ (by omega)]
      · rename_i three
        rw [List.cons_append, List.cons_append, List.cons_append, List.cons_append, List.nil_append,
          decodeFrom_cons, toNat_ofNat (by omega)]
        simp only [step, lead, if_neg (show ¬ 0xF0 + char.toNat / 262144 ≤ 0x7F by omega),
          if_neg (show ¬ (0xC2 ≤ 0xF0 + char.toNat / 262144 ∧ 0xF0 + char.toNat / 262144 ≤ 0xDF)
            by omega),
          if_neg (show ¬ (0xE0 ≤ 0xF0 + char.toNat / 262144 ∧ 0xF0 + char.toNat / 262144 ≤ 0xEF)
            by omega),
          if_pos (show 0xF0 ≤ 0xF0 + char.toNat / 262144 ∧ 0xF0 + char.toNat / 262144 ≤ 0xF4
            by omega), List.nil_append]
        rw [decodeFrom_within _ (by split <;> omega) (by split <;> omega) (by omega) (by decide),
          decodeFrom_within _ (by omega) (by omega) (by omega) (by decide),
          decodeFrom_last rest (by omega) (by omega) (by omega), same _ (by omega)]

theorem decodeFrom_encode (text : List Char) : decodeFrom .start (encode text) = text := by
  induction text with
  | nil => rfl
  | cons char rest ih =>
    show decodeFrom .start (encodeChar char ++ encode rest) = char :: rest
    rw [decodeFrom_encodeChar, ih]

/-- What is decoded is what was encoded, but for a byte order mark in front. -/
theorem decode_encode (text : List Char) :
    decode (encode text) = if text.head? = some byteOrderMark then text.tail else text := by
  unfold decode
  rw [decodeFrom_encode]
  cases text with
  | nil => rfl
  | cons first rest => simp

end NostrWot.Data.Utf8
