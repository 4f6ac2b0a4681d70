import Mathlib.Tactic.Ring
import NostrWot.Permissions.Canonical

namespace NostrWot.Permissions

/-! # What an origin names

An origin names a scheme, a host and a port, and a host is an IPv4 address, an IPv6 address or a
domain.  An address has many spellings; here they are read as numbers.
-/

inductive Host where
  | ipv4 (address : Nat)
  | ipv6 (groups : List Nat)
  | domain (name : Text)
  deriving DecidableEq

structure Endpoint where
  scheme : Text
  host : Host
  port : Option Nat
  deriving DecidableEq

/-- The labels of a host, without an empty one behind a trailing dot. -/
def hostLabels (host : Text) : List Text :=
  let parts := host.splitOn '.'
  if 1 < parts.length && parts.getLast? = some [] then parts.dropLast else parts

/-- At most four numbers: a byte each, and the last one for all the bytes that are left. -/
def ipv4Number (parts : List Text) : Option Nat := do
  let numbers ← parts.mapM ipv4Value
  let front := numbers.dropLast
  let last := numbers.getLast?.getD 0
  let room := 256 ^ (4 - front.length)
  if parts.length ≤ 4 ∧ (∀ byte ∈ front, byte < 256) ∧ last < room then
    some (front.foldl (fun number byte => number * 256 + byte) 0 * room + last)
  else none

def hexGroup (piece : Text) : Option Nat :=
  if piece ≠ [] ∧ piece.length ≤ 4 ∧ piece.all isHexDigit = true then some (parseInt 16 piece) else none

def pieceGroups (last : Bool) (piece : Text) : Option (List Nat) :=
  if last && isDottedQuad piece then
    (ipv4Number (piece.splitOn '.')).map fun address => [address / 2 ^ 16, address % 2 ^ 16]
  else (hexGroup piece).map fun group => [group]

def sideGroups (last : Bool) (side : Text) : Option (List Nat) :=
  if side.isEmpty then some []
  else do
    let pieces := side.splitOn ':'
    let front ← pieces.dropLast.mapM hexGroup
    let back ← pieceGroups last (pieces.getLast?.getD [])
    return front ++ back

/-- Eight groups from those of the sides; a double colon stands for at least one zero group. -/
def fillGroups : List (Option (List Nat)) → Option (List Nat)
  | [some groups] => if groups.length = 8 then some groups else none
  | [some head, some tail] =>
    if head.length + tail.length < 8 then
      some (head ++ List.replicate (8 - head.length - tail.length) 0 ++ tail)
    else none
  | _ => none

def ipv6Address (text : Text) : Option (List Nat) :=
  let sides := splitOnDoubleColon text
  fillGroups (sides.dropLast.map (sideGroups false) ++ [sideGroups true (sides.getLast?.getD [])])

def namedHost (hostText : Text) : Option Host :=
  match hostText with
  | '[' :: inner => (ipv6Address (toLowerCase inner.dropLast)).map .ipv6
  | _ =>
    let lowered := toLowerCase hostText
    if !isDomain lowered then none
    else if isIpv4Part ((hostLabels lowered).getLast?.getD []) then
      (ipv4Number (hostLabels lowered)).map .ipv4
    else some (.domain lowered)

def namedPort : Option Text → Option (Option Nat)
  | none => some none
  | some text =>
    if text ≠ [] ∧ text.length ≤ 5 ∧ text.all Char.isDigit = true ∧ parseInt 10 text ≤ 65535 then
      some (some (parseInt 10 text))
    else none

def standardPort (ports : List SchemePort) (scheme : Text) : Option Nat :=
  (ports.find? fun entry => entry.scheme = scheme).map SchemePort.port

/-- What `scheme://host[:port]` names, of whatever scheme. -/
def endpointOf (ports : List SchemePort) (value : Text) : Option Endpoint := do
  let (shape, authority) ← originShape value
  if authority.contains '@' then none
  else do
    let (hostText, portText) ← splitAuthority authority
    let host ← namedHost hostText
    let port ← namedPort portText
    return ⟨toLowerCase shape, host, port.or (standardPort ports (toLowerCase shape))⟩

/-! ## IPv4 addresses -/

theorem length_of_mapM {parts : List Text} {numbers : List Nat}
    (read : parts.mapM ipv4Value = some numbers) : numbers.length = parts.length := by
  induction parts generalizing numbers with
  | nil =>
    cases read
    rfl
  | cons part rest ih =>
    rw [List.mapM_cons] at read
    obtain ⟨number, _, read⟩ := Option.bind_eq_some_iff.mp read
    obtain ⟨others, tail, read⟩ := Option.bind_eq_some_iff.mp read
    cases read
    rw [List.length_cons, List.length_cons, ih tail]

theorem horner_lt {front : List Nat} (bytes : ∀ byte ∈ front, byte < 256) (short : front.length ≤ 3)
    {last : Nat} (fits : last < 256 ^ (4 - front.length)) :
    front.foldl (fun number byte => number * 256 + byte) 0 * 256 ^ (4 - front.length) + last <
      2 ^ 32 := by
  match front with
  | [] | [_] | [_, _] | [_, _, _] =>
    simp at bytes fits ⊢
    omega
  | _ :: _ :: _ :: _ :: _ =>
    simp only [List.length_cons] at short
    omega

theorem ipv4Number_lt {parts : List Text} {address : Nat}
    (named : ipv4Number parts = some address) : address < 2 ^ 32 := by
  obtain ⟨numbers, read, named⟩ := Option.bind_eq_some_iff.mp named
  have whole := Option.ite_none_right_eq_some.mp named
  rw [← Option.some.inj whole.2]
  have length := length_of_mapM read
  have four := whole.1.1
  exact horner_lt whole.1.2.1 (by rw [List.length_dropLast]; omega) whole.1.2.2

theorem address_eq (base : Nat) {front : List Nat} (short : front.length ≤ 3) (last : Nat) :
    front.zipIdx.foldl (fun address (value, index) => address + value * base ^ (3 - index)) last =
      front.foldl (fun number byte => number * base + byte) 0 * base ^ (4 - front.length) + last := by
  match front with
  | [] => simp
  | [first] =>
    simp [List.zipIdx_cons]
    ring
  | [first, second] =>
    simp [List.zipIdx_cons]
    ring
  | [first, second, third] =>
    simp [List.zipIdx_cons]
    ring
  | _ :: _ :: _ :: _ :: _ =>
    simp only [List.length_cons] at short
    omega

theorem canonicalIpv4_eq (host : Text) :
    canonicalIpv4 host =
      if isIpv4Part ((hostLabels host).getLast?.getD []) then
        ((ipv4Number (hostLabels host)).map fun address => Ipv4.address (ipv4Text address)).getD
          .invalid
      else .notNumeric := by
  have labels : (if 1 < (host.splitOn '.').length && (host.splitOn '.').getLast? = some [] then
      (host.splitOn '.').dropLast else host.splitOn '.') = hostLabels host := rfl
  unfold canonicalIpv4
  simp only [labels]
  generalize hostLabels host = parts
  cases numeric : isIpv4Part (parts.getLast?.getD []) with
  | false => rfl
  | true =>
    simp only [Bool.not_true, Bool.false_eq_true, if_false, if_true]
    unfold ipv4Number
    split
    · next long =>
      have refused : ∀ numbers : List Nat, ¬ (parts.length ≤ 4 ∧
          (∀ byte ∈ numbers.dropLast, byte < 256) ∧
            numbers.getLast?.getD 0 < 256 ^ (4 - numbers.dropLast.length)) := by
        intro numbers fits
        omega
      cases parts.mapM ipv4Value with
      | none => rfl
      | some numbers =>
        simp only [Option.bind_eq_bind, Option.bind_some]
        rw [if_neg (refused numbers)]
        rfl
    · next short =>
      cases read : parts.mapM ipv4Value with
      | none => rfl
      | some numbers =>
        have length := length_of_mapM read
        have front : numbers.dropLast.length ≤ 3 := by
          rw [List.length_dropLast]
          omega
        simp only [Option.bind_eq_bind, Option.bind_some, address_eq 256 front]
        by_cases bytes : ∀ byte ∈ numbers.dropLast, byte < 256
        · have within : (numbers.dropLast.any fun value => 255 < value) = false := by
            rw [List.any_eq_false]
            intro byte member
            have small := bytes byte member
            simp
            omega
          rw [within, if_neg Bool.false_ne_true]
          by_cases fits :
              numbers.getLast?.getD 0 < 256 ^ (4 - numbers.dropLast.length)
          · rw [if_neg (Nat.not_le.mpr fits), if_pos ⟨Nat.not_lt.mp short, bytes, fits⟩]
            rfl
          · rw [if_pos (Nat.not_lt.mp fits), if_neg fun all => fits all.2.2]
            rfl
        · have beyond : (numbers.dropLast.any fun value => 255 < value) = true := by
            rw [List.any_eq_true]
            push Not at bytes
            obtain ⟨byte, member, large⟩ := bytes
            exact ⟨byte, member, by simp; omega⟩
          rw [beyond, if_pos rfl, if_neg fun all => bytes all.2.1]
          rfl

theorem hostLabels_ipv4Text (address : Nat) :
    hostLabels (ipv4Text address) =
      [24, 16, 8, 0].map fun shift => Nat.toDigits 10 (address / 2 ^ shift % 256) := by
  have filled : Nat.toDigits 10 (address / 2 ^ 0 % 256) ≠ [] := Nat.toDigits_ne_nil
  have split := splitOn_ipv4Text address
  simp only [List.map_cons, List.map_nil] at split ⊢
  simp only [hostLabels, split, List.getLast?_cons_cons, List.getLast?_singleton, Option.some.injEq,
    filled, decide_false, Bool.and_false, Bool.false_eq_true, if_false]

theorem last_ipv4Text (address : Nat) :
    isIpv4Part ((hostLabels (ipv4Text address)).getLast?.getD []) = true := by
  rw [hostLabels_ipv4Text]
  exact (byte_read _ (Nat.mod_lt _ (by decide))).2

theorem ipv4Number_text {address : Nat} (small : address < 2 ^ 32) :
    ipv4Number (hostLabels (ipv4Text address)) = some address := by
  have byte : ∀ shift, ipv4Value (Nat.toDigits 10 (address / 2 ^ shift % 256)) =
      some (address / 2 ^ shift % 256) := fun shift => (byte_read _ (Nat.mod_lt _ (by decide))).1
  have bytes : ∀ shift, address / 2 ^ shift % 256 < 256 := fun shift => Nat.mod_lt _ (by decide)
  have read : ([24, 16, 8, 0].map fun shift =>
      Nat.toDigits 10 (address / 2 ^ shift % 256)).mapM ipv4Value =
        some ([24, 16, 8, 0].map fun shift => address / 2 ^ shift % 256) := by
    simp only [List.map_cons, List.map_nil, List.mapM_cons, List.mapM_nil, byte]
    rfl
  rw [hostLabels_ipv4Text, ipv4Number, read]
  simp only [List.map_cons, List.map_nil, Option.bind_eq_bind, Option.bind_some, List.dropLast_cons_cons,
    List.dropLast_singleton, List.getLast?_cons_cons, List.getLast?_singleton, Option.getD_some,
    List.length_cons, List.length_nil, List.foldl_cons, List.foldl_nil, List.mem_cons,
    List.not_mem_nil, or_false, forall_eq_or_imp, forall_eq]
  rw [if_pos ⟨by decide, ⟨bytes 24, bytes 16, bytes 8⟩, bytes 0⟩]
  congr 1
  omega

/-! ## IPv6 addresses -/

theorem splitOnDoubleColon_front (front : Text) :
    ∃ sides side, (∃ before, front = before ++ side ∧ (sides = [] → before = [])) ∧
      (∀ char ∈ front, char = ':' ∨ ∃ part ∈ side :: sides, char ∈ part) ∧
      ∀ rest : Text, splitOnDoubleColon rest = [rest] → rest.head? ≠ some ':' →
        splitOnDoubleColon (front ++ rest) = sides ++ [side ++ rest] := by
  fun_induction splitOnDoubleColon front with
  | case1 => exact ⟨[], [], ⟨[], rfl, fun _ => rfl⟩, by simp, fun rest alone _ => by simpa using alone⟩
  | case2 front ih =>
    obtain ⟨sides, side, ⟨before, spelled, _⟩, chars, split⟩ := ih
    refine ⟨[] :: sides, side, ⟨':' :: ':' :: before, ?_, by simp⟩, ?_, ?_⟩
    · rw [spelled]
      rfl
    · intro char member
      rcases List.mem_cons.mp member with rfl | member
      · exact .inl rfl
      · rcases List.mem_cons.mp member with rfl | member
        · exact .inl rfl
        · rcases chars char member with same | ⟨part, among, held⟩
          · exact .inl same
          · right
            refine ⟨part, ?_, held⟩
            rcases List.mem_cons.mp among with rfl | among
            · simp
            · simp [among]
    · intro rest alone apart
      rw [List.cons_append, List.cons_append, splitOnDoubleColon, split rest alone apart]
      rfl
  | case3 first front notDouble head tail _ ih =>
    obtain ⟨sides, side, ⟨before, spelled, whole⟩, chars, split⟩ := ih
    have single : ∀ rest : Text, rest.head? ≠ some ':' →
        first ≠ ':' ∨ (front ++ rest).head? ≠ some ':' := by
      intro rest apart
      by_cases colon : first = ':'
      · right
        cases front with
        | nil => exact apart
        | cons second others =>
          intro same
          rw [List.cons_append, List.head?_cons] at same
          exact notDouble others colon (by rw [Option.some.inj same])
      · exact .inl colon
    have next : ∀ rest : Text, splitOnDoubleColon rest = [rest] → rest.head? ≠ some ':' →
        splitOnDoubleColon (first :: front ++ rest) =
          (sides ++ [side ++ rest]).modifyHead (first :: ·) := by
      intro rest alone apart
      rw [List.cons_append, splitOnDoubleColon_cons (single rest apart), split rest alone apart]
    cases sides with
    | nil =>
      refine ⟨[], first :: side, ⟨[], ?_, fun _ => rfl⟩, ?_, next⟩
      · rw [spelled, whole rfl]
        rfl
      · intro char member
        exact .inr ⟨first :: side, List.mem_cons_self, by rw [spelled, whole rfl] at member; exact member⟩
    | cons part others =>
      refine ⟨(first :: part) :: others, side, ⟨first :: before, ?_, by simp⟩, ?_, next⟩
      · rw [spelled]
        rfl
      · intro char member
        rcases List.mem_cons.mp member with rfl | member
        · exact .inr ⟨char :: part, by simp, List.mem_cons_self⟩
        · rcases chars char member with same | ⟨other, among, held⟩
          · exact .inl same
          · right
            rcases List.mem_cons.mp among with rfl | among
            · exact ⟨_, List.mem_cons_self, held⟩
            · rcases List.mem_cons.mp among with rfl | among
              · exact ⟨_, List.mem_cons_of_mem _ List.mem_cons_self, List.mem_cons_of_mem _ held⟩
              · exact ⟨other, by simp [among], held⟩
  | case4 first front notDouble split => exact absurd split (splitOnDoubleColon_ne_nil front)

theorem splitOn_front {side : Text} (ends : side = [] ∨ side.getLast? = some ':') :
    ∃ pieces, (∀ char ∈ side, char = ':' ∨ ∃ piece ∈ pieces, char ∈ piece) ∧
      ∀ rest : Text, (side ++ rest).splitOn ':' = pieces ++ rest.splitOn ':' := by
  rcases ends with rfl | last
  · exact ⟨[], by simp, fun rest => rfl⟩
  · obtain ⟨body, rfl⟩ := List.getLast?_eq_some_iff.mp last
    refine ⟨body.splitOn ':', fun char member => ?_, fun rest => ?_⟩
    · rcases List.mem_append.mp member with inside | same
      · exact mem_splitOn_of_mem ':' inside
      · exact .inl (List.mem_singleton.mp same)
    · rw [List.append_assoc]
      exact List.splitOn_append_cons_self body rest

theorem splitTail_eq (text : Text) :
    ∃ front tail, splitTail text = (front, tail) ∧ text = front ++ tail ∧ ':' ∉ tail ∧
      (front = [] ∨ front.getLast? = some ':') := by
  have whole : text.reverse = text.reverse.takeWhile (· ≠ ':') ++ text.reverse.dropWhile (· ≠ ':') :=
    List.takeWhile_append_dropWhile.symm
  have spelled := congrArg List.reverse whole
  rw [List.reverse_reverse, List.reverse_append] at spelled
  have taken : splitTail text = (text.take (text.length -
      (text.reverse.takeWhile (· ≠ ':')).reverse.length), (text.reverse.takeWhile (· ≠ ':')).reverse) :=
    rfl
  have free : ':' ∉ (text.reverse.takeWhile (· ≠ ':')).reverse := by
    intro member
    have other := List.mem_takeWhile_imp (List.mem_reverse.mp member)
    simp at other
  have ends : (text.reverse.dropWhile (· ≠ ':')).reverse = [] ∨
      (text.reverse.dropWhile (· ≠ ':')).reverse.getLast? = some ':' := by
    cases rest : text.reverse.dropWhile (· ≠ ':') with
    | nil => exact .inl rfl
    | cons first others =>
      right
      have stop := List.head_dropWhile_not (p := (· ≠ ':')) (l := text.reverse) (by rw [rest]; simp)
      simp only [rest, List.head_cons, decide_eq_false_iff_not, not_not] at stop
      rw [stop, List.reverse_cons, List.getLast?_concat]
  generalize (text.reverse.dropWhile (· ≠ ':')).reverse = front at *
  generalize (text.reverse.takeWhile (· ≠ ':')).reverse = tail at *
  refine ⟨front, tail, ?_, spelled, free, ends⟩
  rw [taken, spelled, List.length_append, Nat.add_sub_cancel, List.take_left' rfl]

theorem fillGroups_some {sides : List (Option (List Nat))} {groups : List Nat}
    (filled : fillGroups sides = some groups) : none ∉ sides := by
  unfold fillGroups at filled
  split at filled
  · simp
  · simp
  · contradiction

theorem fillGroups_none {sides : List (Option (List Nat))} (unread : none ∈ sides) :
    fillGroups sides = none := by
  cases filled : fillGroups sides with
  | none => rfl
  | some groups => exact absurd unread (fillGroups_some filled)

theorem ipv6Groups_eq (text : Text) :
    ipv6Groups text = fillGroups ((splitOnDoubleColon text).map parseGroups) := by
  unfold ipv6Groups
  split
  · next whole sides =>
    rw [sides]
    cases read : parseGroups whole <;> simp [read, fillGroups]
  · next first second sides =>
    rw [sides]
    cases head : parseGroups first with
    | none => simp [head, fillGroups]
    | some front =>
      cases tail : parseGroups second with
      | none => simp [head, tail, fillGroups]
      | some back =>
        simp only [head, tail, fillGroups, List.map_cons, List.map_nil]
        by_cases fits : front.length + back.length < 8
        · rw [if_neg (by omega), if_pos fits]
        · rw [if_pos (by omega), if_neg fits]
  · next other another =>
    cases sides : splitOnDoubleColon text with
    | nil => rfl
    | cons first rest =>
      cases rest with
      | nil => exact absurd sides (other first)
      | cons second more =>
        cases more with
        | nil => exact absurd sides (another first second)
        | cons third last => simp [fillGroups]

def HexOnly (text : Text) : Prop := ∀ char ∈ text, char = ':' ∨ isHexDigit char = true

theorem hexGroup_chars {piece : Text} {group : Nat} (read : hexGroup piece = some group) :
    ∀ char ∈ piece, isHexDigit char = true := by
  have whole := Option.ite_none_right_eq_some.mp read
  exact List.all_eq_true.mp whole.1.2.2

theorem mapM_hexGroup_chars {pieces : List Text} {groups : List Nat}
    (read : pieces.mapM hexGroup = some groups) :
    ∀ piece ∈ pieces, ∀ char ∈ piece, isHexDigit char = true := by
  induction pieces generalizing groups with
  | nil => simp
  | cons piece rest ih =>
    rw [List.mapM_cons] at read
    obtain ⟨group, first, read⟩ := Option.bind_eq_some_iff.mp read
    obtain ⟨others, more, -⟩ := Option.bind_eq_some_iff.mp read
    intro other member
    rcases List.mem_cons.mp member with rfl | behind
    · exact hexGroup_chars first
    · exact ih more other behind

/-- A piece as the source reads it, after the characters have been checked. -/
def plainGroup (piece : Text) : Option Nat :=
  if piece.isEmpty || 4 < piece.length then none else some (parseInt 16 piece)

theorem hexGroup_eq {piece : Text} (hex : ∀ char ∈ piece, isHexDigit char = true) :
    hexGroup piece = plainGroup piece := by
  unfold hexGroup plainGroup
  cases piece with
  | nil => rfl
  | cons first rest =>
    simp only [List.all_eq_true.mpr hex, List.isEmpty_cons, Bool.false_or, decide_eq_true_eq]
    by_cases short : (first :: rest).length ≤ 4
    · rw [if_pos ⟨by simp, short, trivial⟩, if_neg (by omega)]
    · rw [if_neg (fun all => short all.2.1), if_pos (by omega)]

theorem mapM_hexGroup_eq {pieces : List Text}
    (hex : ∀ piece ∈ pieces, ∀ char ∈ piece, isHexDigit char = true) :
    pieces.mapM hexGroup = pieces.mapM plainGroup := by
  induction pieces with
  | nil => rfl
  | cons piece rest ih =>
    rw [List.mapM_cons, List.mapM_cons, hexGroup_eq (hex piece List.mem_cons_self),
      ih fun other member => hex other (List.mem_cons_of_mem _ member)]

theorem parseGroups_eq (part : Text) :
    parseGroups part = if part.isEmpty then some [] else (part.splitOn ':').mapM plainGroup := rfl

theorem sideGroups_split {side piece : Text} {pieces : List Text} {last : Bool}
    (split : side.splitOn ':' = pieces ++ [piece]) (filled : side ≠ []) :
    sideGroups last side = (pieces.mapM hexGroup).bind fun front =>
      (pieceGroups last piece).map fun back => front ++ back := by
  unfold sideGroups
  simp only [split, List.dropLast_concat, List.getLast?_concat, Option.getD_some,
    List.isEmpty_iff, filled, if_false]
  cases pieces.mapM hexGroup with
  | none => rfl
  | some front => cases pieceGroups last piece <;> rfl

theorem exists_last_piece (side : Text) :
    ∃ pieces piece, side.splitOn ':' = pieces ++ [piece] := by
  rcases List.eq_nil_or_concat (side.splitOn ':') with none | ⟨pieces, piece, split⟩
  · exact absurd none (List.splitOn_ne_nil ':' side)
  · exact ⟨pieces, piece, by rw [split, List.concat_eq_append]⟩

theorem parseGroups_split {side : Text} {pieces others : List Text}
    (split : side.splitOn ':' = pieces ++ others) (filled : side ≠ []) :
    parseGroups side = (pieces.mapM plainGroup).bind fun front =>
      (others.mapM plainGroup).map fun back => front ++ back := by
  rw [parseGroups_eq, split, if_neg (by simpa using filled), List.mapM_append]
  cases pieces.mapM plainGroup with
  | none => rfl
  | some front => cases others.mapM plainGroup <;> rfl

theorem mapM_singleton (piece : Text) :
    [piece].mapM plainGroup = (plainGroup piece).map fun group => [group] := by
  rw [List.mapM_cons, List.mapM_nil]
  cases plainGroup piece <;> rfl

theorem HexOnly.piece {side piece : Text} (hex : HexOnly side) (member : piece ∈ side.splitOn ':') :
    ∀ char ∈ piece, isHexDigit char = true := by
  intro char inside
  obtain ⟨held, other⟩ := mem_splitOn member char inside
  exact (hex char held).resolve_left other

theorem sideGroups_plain {side : Text} (hex : HexOnly side) :
    sideGroups false side = parseGroups side := by
  cases side with
  | nil => rfl
  | cons first rest =>
    obtain ⟨pieces, piece, split⟩ := exists_last_piece (first :: rest)
    have front : ∀ other ∈ pieces, ∀ char ∈ other, isHexDigit char = true :=
      fun other member => hex.piece (by rw [split]; exact List.mem_append_left _ member)
    have back : ∀ char ∈ piece, isHexDigit char = true :=
      hex.piece (by rw [split]; exact List.mem_append_right _ List.mem_cons_self)
    rw [sideGroups_split split (List.cons_ne_nil first rest),
      parseGroups_split split (List.cons_ne_nil first rest), mapM_hexGroup_eq front,
      mapM_singleton, pieceGroups, Bool.false_and, if_neg Bool.false_ne_true, hexGroup_eq back]

theorem sideGroups_chars {side : Text} {groups : List Nat}
    (read : sideGroups false side = some groups) : HexOnly side := by
  cases side with
  | nil => exact fun char member => absurd member List.not_mem_nil
  | cons first rest =>
    obtain ⟨pieces, piece, split⟩ := exists_last_piece (first :: rest)
    rw [sideGroups_split split (List.cons_ne_nil first rest)] at read
    obtain ⟨front, frontRead, read⟩ := Option.bind_eq_some_iff.mp read
    obtain ⟨back, backRead, -⟩ := Option.map_eq_some_iff.mp read
    rw [pieceGroups, Bool.false_and, if_neg Bool.false_ne_true] at backRead
    obtain ⟨group, groupRead, -⟩ := Option.map_eq_some_iff.mp backRead
    intro char member
    rcases mem_splitOn_of_mem ':' member with same | ⟨other, among, held⟩
    · exact .inl same
    · right
      rw [split] at among
      rcases List.mem_append.mp among with before | last
      · exact mapM_hexGroup_chars frontRead other before char held
      · rw [List.mem_singleton.mp last] at held
        exact hexGroup_chars groupRead char held

/-- The groups that `canonicalIpv6` reads. -/
def readIpv6 (text : Text) : Option (List Nat) :=
  (foldDottedTail text).bind fun folded =>
    if folded.isEmpty || !folded.all (fun char => char = ':' || isHexDigit char) then none
    else ipv6Groups folded

def bracketed (groups : List Nat) : Text := '[' :: (ipv6Text groups ++ [']'])

theorem canonicalIpv6_eq (inner : Text) :
    canonicalIpv6 inner = (readIpv6 (toLowerCase inner)).map bracketed := by
  unfold canonicalIpv6 readIpv6
  cases foldDottedTail (toLowerCase inner) with
  | none => rfl
  | some text =>
    simp only [Option.bind_some]
    split
    · rfl
    · cases ipv6Groups text with
      | none => rfl
      | some groups =>
        simp only [Option.map_some, bracketed, ipv6Text]
        cases longestZeroRun groups with
        | none => rfl
        | some run => simp

theorem ipv6Groups_checked (text : Text) :
    (if text.isEmpty || !text.all (fun char => char = ':' || isHexDigit char) then none
      else ipv6Groups text) =
      if text.all (fun char => char = ':' || isHexDigit char) then ipv6Groups text else none := by
  cases text with
  | nil => decide
  | cons first rest =>
    cases hex : (first :: rest).all (fun char => char = ':' || isHexDigit char) <;> rfl

theorem hexOnly_iff {text : Text} :
    text.all (fun char => char = ':' || isHexDigit char) = true ↔ HexOnly text := by
  simp [HexOnly]

theorem splitOnDoubleColon_alone {piece : Text} (free : ':' ∉ piece) :
    splitOnDoubleColon piece = [piece] ∧ piece.head? ≠ some ':' := by
  constructor
  · simpa [splitOnDoubleColon] using splitOnDoubleColon_part free []
  · intro first
    exact free (List.mem_of_mem_head? first)

theorem plainGroup_digits {group : Nat} (small : group < 2 ^ 16) :
    plainGroup (Nat.toDigits 16 group) = some group := by
  have short := (Nat.length_toDigits_le_iff (b := 16) (n := group) (by decide)
    (k := 4) (by decide)).mpr (by omega)
  have filled : (Nat.toDigits 16 group).isEmpty = false := by
    simp [Nat.toDigits_ne_nil]
  rw [plainGroup, filled, Bool.false_or, if_neg (by simpa using short),
    parseInt_toDigits (by decide) (by decide)]

theorem IsDottedQuad.labels {piece : Text} (quad : isDottedQuad piece = true) :
    hostLabels piece = piece.splitOn '.' ∧
      isIpv4Part ((hostLabels piece).getLast?.getD []) = true ∧ piece ≠ [] := by
  unfold isDottedQuad at quad
  simp only [Bool.and_eq_true, decide_eq_true_eq, List.all_eq_true, Bool.not_eq_true'] at quad
  obtain ⟨four, digits⟩ := quad
  rcases List.eq_nil_or_concat (piece.splitOn '.') with none | ⟨front, last, split⟩
  · exact absurd none (List.splitOn_ne_nil '.' piece)
  · rw [List.concat_eq_append] at split
    have own := digits last (by rw [split]; simp)
    have filled : last ≠ [] := by simpa using own.1
    have labels : hostLabels piece = piece.splitOn '.' := by
      simp [hostLabels, split, filled]
    refine ⟨labels, ?_, ?_⟩
    · rw [labels, split, List.getLast?_concat, Option.getD_some]
      unfold isIpv4Part
      split
      · next mark rest =>
        have notMark : ¬ (decide (mark = 'x') || decide (mark = 'X')) = true := by
          rw [Bool.or_eq_true, decide_eq_true_eq, decide_eq_true_eq]
          rintro (rfl | rfl)
          · exact absurd (own.2 'x' (by simp)) (by decide)
          · exact absurd (own.2 'X' (by simp)) (by decide)
        rw [if_neg notMark, List.all_eq_true]
        exact own.2
      · rw [List.all_eq_true.mpr own.2, Bool.and_true, Bool.not_eq_true', List.isEmpty_eq_false_iff]
        exact filled
    · rintro rfl
      simp at four

theorem bytes_ipv4Text (number : Nat) : ((ipv4Text number).splitOn '.').map (parseInt 10) =
    [number / 2 ^ 24 % 256, number / 2 ^ 16 % 256, number / 2 ^ 8 % 256, number / 2 ^ 0 % 256] := by
  rw [splitOn_ipv4Text]
  simp only [List.map_cons, List.map_nil, parseInt_toDigits (by decide : 1 < 10) (by decide : 10 ≤ 16)]

theorem groups_of_bytes {number : Nat} (small : number < 2 ^ 32) :
    number / 2 ^ 24 % 256 * 256 + number / 2 ^ 16 % 256 = number / 2 ^ 16 ∧
      number / 2 ^ 8 % 256 * 256 + number / 2 ^ 0 % 256 = number % 2 ^ 16 := by
  simp only [Nat.reducePow] at small ⊢
  omega

def twoGroups (first second : Nat) : Text := Nat.toDigits 16 first ++ ':' :: Nat.toDigits 16 second

theorem join_two (first second : Nat) :
    join [':'] ([first, second].map (Nat.toDigits 16)) = twoGroups first second := by
  simp [join, twoGroups]

theorem twoGroups_alone (first second : Nat) :
    splitOnDoubleColon (twoGroups first second) = [twoGroups first second] ∧
      (twoGroups first second).head? ≠ some ':' := by
  have grouped : ∀ part ∈ [first, second].map (Nat.toDigits 16), Grouped part := by
    intro part member
    obtain ⟨group, _, rfl⟩ := List.mem_map.mp member
    exact grouped_toDigits group
  have split := splitOnDoubleColon_join grouped []
  rw [join_two, List.append_nil] at split
  refine ⟨by simpa [splitOnDoubleColon] using split, fun starts => ?_⟩
  obtain ⟨filled, free⟩ := grouped_toDigits first
  cases digits : Nat.toDigits 16 first with
  | nil => exact filled digits
  | cons char rest =>
    rw [twoGroups, digits, List.cons_append, List.head?_cons] at starts
    exact free (by rw [digits, Option.some.inj starts]; exact List.mem_cons_self)

theorem twoGroups_hex (first second : Nat) : HexOnly (twoGroups first second) := by
  intro char member
  rw [← join_two] at member
  have address := isAddressChar_join char member
  unfold isAddressChar isWritten at address
  unfold isHexDigit
  simp only [Bool.or_eq_true, Bool.and_eq_true, decide_eq_true_eq] at address ⊢
  tauto

theorem twoGroups_pieces (first second : Nat) :
    (twoGroups first second).splitOn ':' = [Nat.toDigits 16 first, Nat.toDigits 16 second] := by
  rw [twoGroups, List.splitOn_append_cons_self_of_not_mem (grouped_toDigits first).2,
    List.splitOn_eq_singleton (grouped_toDigits second).2]

/-- The source folds a dotted tail into two groups and then reads the text; this is to read the
tail for its two groups. -/
theorem readIpv6_eq (text : Text) : readIpv6 text = ipv6Address text := by
  obtain ⟨front, tail, tailed, rfl, free, ends⟩ := splitTail_eq text
  obtain ⟨sides, side, ⟨before, suffix, -⟩, chars, split⟩ := splitOnDoubleColon_front front
  have sideEnds : side = [] ∨ side.getLast? = some ':' := by
    cases side with
    | nil => exact .inl rfl
    | cons first rest =>
      right
      rw [suffix] at ends
      have last := ends.resolve_left (by simp)
      simpa [List.getLast?_append, List.getLast?_cons] using last
  obtain ⟨pieces, pieceChars, pieced⟩ := splitOn_front sideEnds
  have alone := splitOnDoubleColon_alone free
  have whole : splitOnDoubleColon (front ++ tail) = sides ++ [side ++ tail] :=
    split tail alone.1 alone.2
  have last : (side ++ tail).splitOn ':' = pieces ++ [tail] := by
    rw [pieced, List.splitOn_eq_singleton free]
  have address : ipv6Address (front ++ tail) =
      fillGroups (sides.map (sideGroups false) ++ [sideGroups true (side ++ tail)]) := by
    unfold ipv6Address
    dsimp only
    rw [whole, List.dropLast_concat, List.getLast?_concat, Option.getD_some]
  unfold readIpv6
  rw [foldDottedTail, tailed]
  dsimp only
  cases dotted : isDottedQuad tail with
  | false =>
    have plain : sideGroups true (side ++ tail) = sideGroups false (side ++ tail) := by
      by_cases empty : side ++ tail = []
      · rw [empty]
        rfl
      · rw [sideGroups_split last empty, sideGroups_split last empty, pieceGroups, pieceGroups,
          dotted, Bool.and_false, Bool.false_and]
    rw [if_neg Bool.false_ne_true, Option.bind_some, ipv6Groups_checked]
    rw [plain] at address
    by_cases hex : HexOnly (front ++ tail)
    · have same : (splitOnDoubleColon (front ++ tail)).map (sideGroups false) =
          (splitOnDoubleColon (front ++ tail)).map parseGroups := by
        apply List.map_congr_left
        intro part member
        exact sideGroups_plain fun char inside => hex char (mem_splitOnDoubleColon member char inside)
      rw [if_pos (hexOnly_iff.mpr hex), ipv6Groups_eq, address, ← same, whole, List.map_append,
        List.map_singleton]
    · rw [if_neg fun all => hex (hexOnly_iff.mp all), address]
      cases filled : fillGroups (sides.map (sideGroups false) ++ [sideGroups false (side ++ tail)]) with
      | none => rfl
      | some groups =>
        refine absurd (fun char member => ?_) hex
        have read : ∀ part ∈ sides ++ [side ++ tail], HexOnly part := by
          intro part among
          cases held : sideGroups false part with
          | some groups => exact sideGroups_chars held
          | none =>
            have entry := List.mem_map_of_mem (f := sideGroups false) among
            rw [held, List.map_append] at entry
            exact absurd entry (fillGroups_some filled)
        have lastRead := read (side ++ tail) (List.mem_append_right _ List.mem_cons_self)
        rcases List.mem_append.mp member with inside | behind
        · rcases chars char inside with same | ⟨part, among, held⟩
          · exact .inl same
          · rcases List.mem_cons.mp among with rfl | among
            · exact lastRead char (List.mem_append_left _ held)
            · exact read part (List.mem_append_left _ among) char held
        · exact lastRead char (List.mem_append_right _ behind)
  | true =>
    obtain ⟨labels, numeric, filled⟩ := IsDottedQuad.labels dotted
    rw [if_pos rfl, canonicalIpv4_eq, if_pos numeric, labels]
    have grown : side ++ tail ≠ [] := by simp [filled]
    have sideRead : sideGroups true (side ++ tail) = (pieces.mapM hexGroup).bind fun front =>
        ((ipv4Number (tail.splitOn '.')).map fun address =>
          [address / 2 ^ 16, address % 2 ^ 16]).map fun back => front ++ back := by
      rw [sideGroups_split last grown, pieceGroups, dotted, Bool.and_self, if_pos rfl]
    cases read : ipv4Number (tail.splitOn '.') with
    | none =>
      have unread : sideGroups true (side ++ tail) = none := by
        rw [sideRead, read]
        cases pieces.mapM hexGroup <;> rfl
      rw [address, fillGroups_none (by rw [unread]; simp)]
      rfl
    | some number =>
      obtain ⟨high, low⟩ := groups_of_bytes (ipv4Number_lt read)
      have below : number / 2 ^ 16 < 2 ^ 16 := Nat.div_lt_of_lt_mul (ipv4Number_lt read)
      have rest : number % 2 ^ 16 < 2 ^ 16 := Nat.mod_lt _ (by decide)
      rw [Option.map_some, Option.getD_some]
      simp only [bytes_ipv4Text, high, low, join_two, Option.bind_some]
      rw [ipv6Groups_checked, address, sideRead, read, Option.map_some]
      generalize number / 2 ^ 16 = first at below
      generalize number % 2 ^ 16 = second at rest
      have written := twoGroups_alone first second
      have grownHex : side ++ twoGroups first second ≠ [] := by
        simp [twoGroups]
      by_cases hex : HexOnly front
      · have whole : HexOnly (front ++ twoGroups first second) := by
          intro char member
          rcases List.mem_append.mp member with inside | behind
          · exact hex char inside
          · exact twoGroups_hex first second char behind
        have plain : sides.map parseGroups = sides.map (sideGroups false) := by
          apply List.map_congr_left
          intro part member
          have held := split [] rfl (by simp)
          rw [List.append_nil, List.append_nil] at held
          exact (sideGroups_plain fun char inside =>
            hex char (mem_splitOnDoubleColon (by rw [held]; simp [member]) char inside)).symm
        have pieceHex : ∀ piece ∈ pieces, ∀ char ∈ piece, isHexDigit char = true := by
          intro piece member
          have held := pieced []
          rw [List.append_nil] at held
          have sideHex : HexOnly side := fun char inside =>
            hex char (by rw [suffix]; exact List.mem_append_right _ inside)
          exact sideHex.piece (by rw [held]; exact List.mem_append_left _ member)
        rw [if_pos (hexOnly_iff.mpr whole), ipv6Groups_eq, split _ written.1 written.2,
          List.map_append, List.map_singleton, plain,
          parseGroups_split (by rw [pieced, twoGroups_pieces]) grownHex, mapM_hexGroup_eq pieceHex,
          List.mapM_cons, List.mapM_cons, List.mapM_nil, plainGroup_digits below,
          plainGroup_digits rest]
        rfl
      · rw [if_neg fun all => hex fun char member =>
          hexOnly_iff.mp all char (List.mem_append_left _ member)]
        cases filled : fillGroups (sides.map (sideGroups false) ++
            [(pieces.mapM hexGroup).bind fun front =>
              (some [first, second]).map fun back => front ++ back]) with
        | none => rfl
        | some groups =>
          refine absurd (fun char member => ?_) hex
          have every := fillGroups_some filled
          rcases chars char member with same | ⟨part, among, held⟩
          · exact .inl same
          · rcases List.mem_cons.mp among with rfl | among
            · cases hexed : pieces.mapM hexGroup with
              | none => simp [hexed] at every
              | some groups =>
                exact (pieceChars char held).imp_right fun ⟨piece, member, inside⟩ =>
                  mapM_hexGroup_chars hexed piece member char inside
            · cases read : sideGroups false part with
              | none =>
                have entry := List.mem_map_of_mem (f := sideGroups false) among
                rw [read] at entry
                exact absurd (List.mem_append_left _ entry) every
              | some groups => exact sideGroups_chars read char held

/-! ## Hosts -/

def Host.text : Host → Text
  | .ipv4 address => ipv4Text address
  | .ipv6 groups => bracketed groups
  | .domain name => name

def Host.Proper : Host → Prop
  | .ipv4 address => address < 2 ^ 32
  | .ipv6 groups => groups.length = 8 ∧ ∀ group ∈ groups, group < 65536
  | .domain name => isDomain name = true ∧ isIpv4Part ((hostLabels name).getLast?.getD []) = false

theorem namedHost_other {hostText : Text} (plain : ∀ tail, hostText ≠ '[' :: tail) :
    namedHost hostText =
      if !isDomain (toLowerCase hostText) then none
      else if isIpv4Part ((hostLabels (toLowerCase hostText)).getLast?.getD []) then
        (ipv4Number (hostLabels (toLowerCase hostText))).map .ipv4
      else some (.domain (toLowerCase hostText)) := by
  unfold namedHost
  split
  · next tail => exact absurd rfl (plain tail)
  · rfl

theorem canonicalHost_eq (hostText : Text) :
    canonicalHost hostText = (namedHost hostText).map Host.text := by
  unfold canonicalHost
  split
  · next inner =>
    rw [canonicalIpv6_eq, readIpv6_eq, namedHost, Option.map_map]
    rfl
  · next plain =>
    dsimp only
    rw [namedHost_other plain, canonicalIpv4_eq]
    cases isDomain (toLowerCase hostText) with
    | false => rfl
    | true =>
      cases isIpv4Part ((hostLabels (toLowerCase hostText)).getLast?.getD []) with
      | false => rfl
      | true => cases ipv4Number (hostLabels (toLowerCase hostText)) <;> rfl

theorem namedHost_proper {hostText : Text} {host : Host} (named : namedHost hostText = some host) :
    host.Proper := by
  unfold namedHost at named
  split at named
  · obtain ⟨groups, read, rfl⟩ := Option.map_eq_some_iff.mp named
    rw [← readIpv6_eq] at read
    obtain ⟨folded, _, read⟩ := Option.bind_eq_some_iff.mp read
    rw [ipv6Groups_checked] at read
    have whole := Option.ite_none_right_eq_some.mp read
    exact ipv6Groups_fit whole.2 (hexOnly_iff.mp whole.1)
  · dsimp only at named
    split at named
    · contradiction
    · next proper =>
      split at named
      · obtain ⟨address, read, rfl⟩ := Option.map_eq_some_iff.mp named
        exact ipv4Number_lt read
      · next plain =>
        cases named
        exact ⟨by simpa using proper, by simpa using plain⟩

theorem namedHost_domain {name : Text} (domain : isDomain name = true) :
    namedHost name =
      if isIpv4Part ((hostLabels name).getLast?.getD []) then
        (ipv4Number (hostLabels name)).map .ipv4
      else some (.domain name) := by
  have chars := isDomain_chars domain
  have lower : toLowerCase name = name :=
    toLowerCase_of_forall fun char member => lowerChar_domain (chars char member)
  have plain : ∀ tail, name ≠ '[' :: tail := by
    rintro tail rfl
    exact absurd (chars '[' List.mem_cons_self) (by decide)
  rw [namedHost_other plain, lower, domain, Bool.not_true, if_neg Bool.false_ne_true]

theorem ipv6Address_text {groups : List Nat} (eight : groups.length = 8)
    (small : ∀ group ∈ groups, group < 65536) : ipv6Address (ipv6Text groups) = some groups := by
  have written := canonicalIpv6_text eight small
  have lower : toLowerCase (ipv6Text groups) = ipv6Text groups :=
    toLowerCase_of_forall fun char member => lowerChar_address (isAddressChar_ipv6Text groups char member)
  rw [canonicalIpv6_eq, lower, readIpv6_eq] at written
  obtain ⟨read, found, same⟩ := Option.map_eq_some_iff.mp written
  have proper : (Host.ipv6 read).Proper := by
    have named : namedHost (bracketed groups) = some (.ipv6 read) := by
      rw [bracketed, namedHost, List.dropLast_concat, lower, found]
      rfl
    exact namedHost_proper named
  have text : ipv6Text read = ipv6Text groups := by
    simpa [bracketed] using same
  have back := ipv6Groups_text proper.1 proper.2
  rw [text, ipv6Groups_text eight small] at back
  rw [found, back]

theorem namedHost_text {host : Host} (proper : host.Proper) : namedHost host.text = some host := by
  cases host with
  | ipv4 address =>
    rw [Host.text, namedHost_domain (isDomain_ipv4Text address), if_pos (last_ipv4Text address),
      ipv4Number_text proper]
    rfl
  | ipv6 groups =>
    have lower : toLowerCase (ipv6Text groups) = ipv6Text groups :=
      toLowerCase_of_forall fun char member =>
        lowerChar_address (isAddressChar_ipv6Text groups char member)
    rw [Host.text, bracketed, namedHost, List.dropLast_concat, lower,
      ipv6Address_text proper.1 proper.2]
    rfl
  | domain name =>
    rw [Host.text, namedHost_domain proper.1, proper.2]
    rfl

/-! ## Origins -/

def portSpelled (standard : Option Nat) : Option Nat → Text
  | some port => if some port = standard then [] else ':' :: Nat.toDigits 10 port
  | none => []

def Endpoint.text (ports : List SchemePort) (endpoint : Endpoint) : Text :=
  endpoint.scheme ++ "://".toList ++ endpoint.host.text ++
    portSpelled (standardPort ports endpoint.scheme) endpoint.port

theorem canonicalPort_eq (standard : Option Nat) (portText : Option Text) :
    canonicalPort standard portText =
      (namedPort portText).map fun port => portSpelled standard (port.or standard) := by
  cases portText with
  | none =>
    cases standard with
    | none => rfl
    | some port => simp [canonicalPort, namedPort, portSpelled]
  | some text =>
    by_cases proper : text ≠ [] ∧ text.length ≤ 5 ∧ text.all Char.isDigit = true ∧
        parseInt 10 text ≤ 65535
    · have named : namedPort (some text) = some (some (parseInt 10 text)) := if_pos proper
      obtain ⟨filled, short, digits, small⟩ := proper
      have accepted : (text.isEmpty || decide (5 < text.length) || !text.all Char.isDigit) = false := by
        simp [filled, short, digits]
      rw [named, canonicalPort, accepted, if_neg Bool.false_ne_true, if_neg (Nat.not_lt.mpr small)]
      simp only [Option.map_some, Option.some_or, portSpelled]
      split <;> rfl
    · have named : namedPort (some text) = none := if_neg proper
      rw [named, canonicalPort, Option.map_none]
      split
      · rfl
      · next accepted =>
        simp only [Bool.or_eq_true, decide_eq_true_eq, Bool.not_eq_true', not_or,
          List.isEmpty_iff, Bool.not_eq_false] at accepted
        rw [if_pos]
        by_contra small
        exact proper ⟨accepted.1.1, by omega, accepted.2, by omega⟩

theorem canonicalOriginText_eq (ports : List SchemePort) (value : Text) :
    canonicalOriginText value ports = (endpointOf ports value).bind fun endpoint =>
      if (defaultPort ports endpoint.scheme).isSome then some (endpoint.text ports) else none := by
  have known : ∀ scheme standard, defaultPort ports scheme = some standard →
      standard = standardPort ports scheme := by
    intro scheme standard found
    unfold defaultPort at found
    unfold standardPort
    split at found
    · next entry held =>
      cases found
      rw [held]
      rfl
    · next absent =>
      rw [absent]
      exact (Option.some.inj (Option.ite_none_right_eq_some.mp found).2).symm
  unfold canonicalOriginText endpointOf
  cases originShape value with
  | none => rfl
  | some shaped =>
    obtain ⟨shape, authority⟩ := shaped
    simp only [Option.bind_eq_bind, Option.bind_some]
    cases found : defaultPort ports (toLowerCase shape) with
    | none =>
      cases authority.contains '@' with
      | true => rfl
      | false =>
        simp only [Bool.false_eq_true, if_false]
        cases splitAuthority authority with
        | none => rfl
        | some parts =>
          simp only [Option.bind_some]
          cases namedHost parts.1 with
          | none => rfl
          | some host =>
            cases namedPort parts.2 with
            | none => rfl
            | some port => simp [found]
    | some standard =>
      cases authority.contains '@' with
      | true => rfl
      | false =>
        simp only [Bool.false_eq_true, if_false]
        cases splitAuthority authority with
        | none => rfl
        | some parts =>
          obtain ⟨hostText, portText⟩ := parts
          simp only [Option.bind_some, canonicalHost_eq, canonicalPort_eq]
          cases namedHost hostText with
          | none => rfl
          | some host =>
            cases namedPort portText with
            | none => rfl
            | some port =>
              obtain rfl := known _ _ found
              simp [found, Endpoint.text]

theorem toLowerCase_of_plain {scheme : Text} (plain : isPlainScheme scheme = true) :
    toLowerCase scheme = scheme := by
  cases scheme with
  | nil => contradiction
  | cons first rest =>
    simp only [isPlainScheme, Bool.and_eq_true, decide_eq_true_eq] at plain
    exact plain.2

theorem endpointOf_parts {ports : List SchemePort} {value : Text} {endpoint : Endpoint}
    (named : endpointOf ports value = some endpoint) :
    isPlainScheme endpoint.scheme = true ∧ endpoint.host.Proper ∧
      ∃ portText port, namedPort portText = some port ∧
        endpoint.port = port.or (standardPort ports endpoint.scheme) := by
  unfold endpointOf at named
  obtain ⟨⟨shape, authority⟩, shaped, named⟩ := Option.bind_eq_some_iff.mp named
  dsimp only at named
  have anonymous := Option.ite_none_left_eq_some.mp named
  obtain ⟨⟨hostText, portText⟩, _, named⟩ := Option.bind_eq_some_iff.mp anonymous.2
  obtain ⟨host, hosts, named⟩ := Option.bind_eq_some_iff.mp named
  obtain ⟨port, ported, named⟩ := Option.bind_eq_some_iff.mp named
  cases named
  exact ⟨originShape_plain shaped, namedHost_proper hosts, portText, port, ported, rfl⟩

theorem namedPort_small {portText : Option Text} {port : Nat}
    (named : namedPort portText = some (some port)) : port ≤ 65535 := by
  cases portText with
  | none => cases named
  | some text =>
    have whole := Option.ite_none_right_eq_some.mp named
    rw [← Option.some.inj (Option.some.inj whole.2)]
    exact whole.1.2.2.2

theorem namedPort_digits {port : Nat} (small : port ≤ 65535) :
    namedPort (some (Nat.toDigits 10 port)) = some (some port) := by
  have short := (Nat.length_toDigits_le_iff (b := 10) (n := port) (by decide)
    (k := 5) (by decide)).mpr (by omega)
  have digits : (Nat.toDigits 10 port).all Char.isDigit = true := by
    rw [List.all_eq_true]
    exact isDigit_toDigits port
  have read : parseInt 10 (Nat.toDigits 10 port) = port :=
    parseInt_toDigits (by decide) (by decide) port
  have named : namedPort (some (Nat.toDigits 10 port)) = some (some (parseInt 10 (Nat.toDigits 10 port))) :=
    if_pos ⟨Nat.toDigits_ne_nil, short, digits, by rw [read]; exact small⟩
  rw [named, read]

theorem splitAuthority_spelled {host : Text} (hosted : Hosted host) (standard : Option Nat)
    {port : Option Nat} {portText : Option Text} (ported : namedPort portText = some port) :
    ∃ written back, splitAuthority (host ++ portSpelled standard (port.or standard)) =
        some (host, written) ∧ namedPort written = some back ∧ back.or standard = port.or standard := by
  cases effective : port.or standard with
  | none =>
    refine ⟨none, none, ?_, rfl, ?_⟩
    · rw [portSpelled, List.append_nil]
      exact (hosted.split []).1
    · exact (Option.or_eq_none_iff.mp effective).2
  | some number =>
    by_cases same : some number = standard
    · refine ⟨none, none, ?_, rfl, ?_⟩
      · rw [portSpelled, if_pos same, List.append_nil]
        exact (hosted.split []).1
      · exact same.symm
    · have own : port = some number := by
        cases port with
        | none => exact absurd effective.symm same
        | some other => exact effective
      refine ⟨some (Nat.toDigits 10 number), some number, ?_, ?_, rfl⟩
      · rw [portSpelled, if_neg same]
        exact (hosted.split _).2
      · rw [own] at ported
        exact namedPort_digits (namedPort_small ported)

theorem portSpelled_chars (standard port : Option Nat) :
    ∀ char ∈ portSpelled standard port, char = ':' ∨ char.isDigit = true := by
  unfold portSpelled
  split
  · next number =>
    split
    · simp
    · intro char member
      exact (List.mem_cons.mp member).imp_right (isDigit_toDigits number char)
  · simp

theorem Host.Proper.hosted {host : Host} (proper : host.Proper) : Hosted host.text :=
  canonicalHost_hosted (by rw [canonicalHost_eq, namedHost_text proper]; rfl)

theorem authority_chars {host : Host} (proper : host.Proper) (standard port : Option Nat) :
    ∀ char ∈ host.text ++ portSpelled standard port,
      char ≠ '/' ∧ char ≠ '?' ∧ char ≠ '#' ∧ char ≠ '@' := by
  intro char member
  rcases List.mem_append.mp member with inside | behind
  · exact proper.hosted.chars char inside
  · rcases portSpelled_chars standard port char behind with rfl | digit
    · decide
    · refine ⟨?_, ?_, ?_, ?_⟩ <;> rintro rfl <;> exact absurd digit (by decide)

theorem Endpoint.text_eq (ports : List SchemePort) (endpoint : Endpoint) :
    endpoint.text ports = endpoint.scheme ++ ':' :: '/' :: '/' ::
      (endpoint.host.text ++ portSpelled (standardPort ports endpoint.scheme) endpoint.port) := by
  simp [Endpoint.text]

theorem endpointOf_text {ports : List SchemePort} {value : Text} {endpoint : Endpoint}
    (named : endpointOf ports value = some endpoint) :
    endpointOf ports (endpoint.text ports) = some endpoint := by
  obtain ⟨plain, proper, portText, port, ported, effective⟩ := endpointOf_parts named
  obtain ⟨written, back, split, read, same⟩ :=
    splitAuthority_spelled proper.hosted (standardPort ports endpoint.scheme) ported
  rw [← effective] at split same
  have separators := authority_chars proper (standardPort ports endpoint.scheme) endpoint.port
  have shaped : originShape (endpoint.text ports) = some (endpoint.scheme, endpoint.host.text ++
      portSpelled (standardPort ports endpoint.scheme) endpoint.port) := by
    rw [endpoint.text_eq]
    exact originShape_spelled plain fun char member =>
      ⟨(separators char member).1, (separators char member).2.1, (separators char member).2.2.1⟩
  have anonymous : (endpoint.host.text ++
      portSpelled (standardPort ports endpoint.scheme) endpoint.port).contains '@' = false := by
    rw [List.contains_eq_mem, decide_eq_false_iff_not]
    exact fun member => (separators '@' member).2.2.2 rfl
  have lower := toLowerCase_of_plain plain
  unfold endpointOf
  simp only [shaped, anonymous, split, namedHost_text proper, read, lower, same, Option.bind_eq_bind,
    Option.bind_some, Bool.false_eq_true, if_false]
  rfl

/-! ## The canonical spelling -/

theorem defaultPort_known {ports : List SchemePort} {scheme : Text}
    (plain : isPlainScheme scheme = true) (known : (defaultPort ports scheme).isSome = true) :
    (∃ entry ∈ ports, entry.scheme = scheme) ∨ scheme = "constructor".toList := by
  unfold defaultPort at known
  split at known
  · next entry found =>
    exact .inl ⟨entry, List.mem_of_find?_eq_some found, by simpa using List.find?_some found⟩
  · right
    have only : ∀ name ∈ INHERITED_NAMES, isPlainScheme name.toList = true →
        name = "constructor" := by
      decide
    split at known
    · next inherited =>
      have member := List.contains_iff_mem.mp inherited
      have same := only _ member (by rw [String.toList_ofList]; exact plain)
      rw [← same, String.toList_ofList]
    · contradiction

theorem known_constructor (ports : List SchemePort) :
    (defaultPort ports "constructor".toList).isSome = true := by
  unfold defaultPort
  split
  · rfl
  · decide

theorem endpointOf_ports (ports : List SchemePort) (value : Text) :
    endpointOf ports value = (endpointOf [] value).map fun endpoint =>
      { endpoint with port := endpoint.port.or (standardPort ports endpoint.scheme) } := by
  have none : ∀ scheme, standardPort [] scheme = none := fun _ => rfl
  unfold endpointOf
  cases originShape value with
  | none => rfl
  | some shaped =>
    simp only [Option.bind_eq_bind, Option.bind_some]
    cases shaped.2.contains '@' with
    | true => rfl
    | false =>
      simp only [Bool.false_eq_true, if_false]
      cases splitAuthority shaped.2 with
      | none => rfl
      | some parts =>
        simp only [Option.bind_some]
        cases namedHost parts.1 with
        | none => rfl
        | some host => cases namedPort parts.2 <;> simp [none]

theorem canonicalOriginText_same {ports : List SchemePort} {value other first second : Text}
    (one : canonicalOriginText value ports = some first)
    (two : canonicalOriginText other ports = some second) :
    first = second ↔ endpointOf ports value = endpointOf ports other := by
  rw [canonicalOriginText_eq] at one two
  obtain ⟨endpoint, named, one⟩ := Option.bind_eq_some_iff.mp one
  obtain ⟨another, called, two⟩ := Option.bind_eq_some_iff.mp two
  have firstText := (Option.ite_none_right_eq_some.mp one).2
  have secondText := (Option.ite_none_right_eq_some.mp two).2
  cases firstText
  cases secondText
  constructor
  · intro same
    rw [named, called, ← endpointOf_text named, ← endpointOf_text called, same]
  · intro same
    rw [named, called] at same
    rw [Option.some.inj same]

theorem canonicalOrigin_same {ports : List SchemePort} {value other first second : String}
    (one : canonicalOrigin value ports = some first)
    (two : canonicalOrigin other ports = some second) :
    first = second ↔ endpointOf ports value.toList = endpointOf ports other.toList := by
  obtain ⟨firstText, written, rfl⟩ := Option.map_eq_some_iff.mp one
  obtain ⟨secondText, spelled, rfl⟩ := Option.map_eq_some_iff.mp two
  rw [String.ofList_inj]
  exact canonicalOriginText_same written spelled

def namesScheme (scheme : String) (value : String) : Prop :=
  ∃ endpoint, endpointOf [] value.toList = some endpoint ∧ endpoint.scheme = scheme.toList

/-- A canonical origin is the text of what it names, by a scheme of the table or the inherited
one. -/
theorem canonicalOrigin_named {ports : List SchemePort} {value canonical : String}
    (found : canonicalOrigin value ports = some canonical) :
    ∃ endpoint, endpointOf ports value.toList = some endpoint ∧
      canonical = String.ofList (endpoint.text ports) ∧
      ((∃ entry ∈ ports, entry.scheme = endpoint.scheme) ∨
        endpoint.scheme = "constructor".toList) := by
  obtain ⟨text, written, rfl⟩ := Option.map_eq_some_iff.mp found
  rw [canonicalOriginText_eq] at written
  obtain ⟨endpoint, named, spelled⟩ := Option.bind_eq_some_iff.mp written
  have known := Option.ite_none_right_eq_some.mp spelled
  refine ⟨endpoint, named, ?_, defaultPort_known (endpointOf_parts named).1 known.1⟩
  rw [Option.some.inj known.2]

theorem namesScheme_of_named {ports : List SchemePort} {value : String} {endpoint : Endpoint}
    (named : endpointOf ports value.toList = some endpoint) {scheme : String}
    (same : endpoint.scheme = scheme.toList) : namesScheme scheme value := by
  rw [endpointOf_ports] at named
  obtain ⟨plain, reading, rfl⟩ := Option.map_eq_some_iff.mp named
  exact ⟨plain, reading, same⟩

theorem canonicalOrigin_starts {ports : List SchemePort} {value canonical : String}
    (found : canonicalOrigin value ports = some canonical) :
    (∃ entry ∈ ports, entry.scheme ++ "://".toList <+: canonical.toList) ∨
      namesScheme "constructor" value := by
  obtain ⟨endpoint, named, rfl, listed | inherited⟩ := canonicalOrigin_named found
  · obtain ⟨entry, member, same⟩ := listed
    refine .inl ⟨entry, member, ?_⟩
    rw [same, Endpoint.text, List.append_assoc]
    simp only [String.toList_ofList]
    exact List.prefix_append _ _
  · exact .inr (namesScheme_of_named named inherited)

theorem canonicalOrigin_constructor {value : String} (names : namesScheme "constructor" value)
    (ports : List SchemePort) :
    ∃ canonical, canonicalOrigin value ports = some canonical ∧
      "constructor".toList <+: canonical.toList := by
  obtain ⟨endpoint, named, scheme⟩ := names
  unfold canonicalOrigin
  rw [canonicalOriginText_eq, endpointOf_ports, named, Option.map_some, Option.bind_some]
  rw [scheme, if_pos (known_constructor ports)]
  refine ⟨_, rfl, ?_⟩
  rw [Endpoint.text, List.append_assoc, List.append_assoc]
  simp only [String.toList_ofList]
  exact List.prefix_append _ _

/-! ## Hostnames -/

structure HostnameText (text : Text) : Prop where
  domain : isDomain text = true
  undotted : text.getLast? ≠ some '.'
  kept : canonicalIpv4 text = .notNumeric ∨ canonicalIpv4 text = .address text

theorem HostnameText.fixed {text : Text} (spelled : HostnameText text) :
    canonicalHostname (String.ofList text) = some (String.ofList text) := by
  have lower : toLowerCase text = text := toLowerCase_of_forall fun char member =>
    lowerChar_domain (isDomain_chars spelled.domain char member)
  have stripped : (text.reverse.dropWhile (· = '.')).reverse = text := by
    cases reversed : text.reverse with
    | nil =>
      rw [← List.reverse_reverse text, reversed]
      rfl
    | cons last front =>
      have other : last ≠ '.' := by
        rintro rfl
        apply spelled.undotted
        rw [← List.head?_reverse, reversed, List.head?_cons]
      rw [List.dropWhile_cons_of_neg (by simpa using other), ← reversed, List.reverse_reverse]
  have filled : text.isEmpty = false := by
    cases text with
    | nil => exact absurd spelled.domain (by decide)
    | cons first rest => rfl
  unfold canonicalHostname
  simp only [String.toList_ofList, lower, stripped, filled, spelled.domain, Bool.not_true,
    Bool.or_self, Bool.false_eq_true, if_false]
  rcases spelled.kept with named | numbered
  · rw [named]
  · rw [numbered]

theorem canonicalHostname_text {value name : String} (found : canonicalHostname value = some name) :
    ∃ text, name = String.ofList text ∧ HostnameText text := by
  unfold canonicalHostname at found
  dsimp only at found
  have undotted : ∀ text : Text, ((text.reverse.dropWhile (· = '.')).reverse).getLast? ≠ some '.' := by
    intro text last
    rw [List.getLast?_reverse] at last
    cases rest : text.reverse.dropWhile (· = '.') with
    | nil => simp [rest] at last
    | cons first others =>
      have stop := List.head_dropWhile_not (p := (· = '.')) (l := text.reverse) (by simp [rest])
      simp only [rest, List.head_cons, decide_eq_false_iff_not] at stop
      rw [rest, List.head?_cons] at last
      exact stop (Option.some.inj last)
  split at found
  · contradiction
  · next proper =>
    simp only [Bool.or_eq_true, not_or, Bool.not_eq_true', Bool.not_eq_false] at proper
    split at found
    · contradiction
    · next named =>
      cases found
      exact ⟨_, rfl, proper.2, undotted _, .inl named⟩
    · next text numbered =>
      cases found
      obtain ⟨address, rfl⟩ := canonicalIpv4_cases numbered
      refine ⟨_, rfl, isDomain_ipv4Text address, ?_, .inr (canonicalIpv4_text address)⟩
      intro last
      have labels := splitOn_ipv4Text address
      obtain ⟨front, spelled⟩ := List.getLast?_eq_some_iff.mp last
      rw [spelled, List.splitOn_append_cons_self] at labels
      have none := congrArg List.getLast? labels
      have filled : Nat.toDigits 10 (address / 2 ^ 0 % 256) ≠ [] := Nat.toDigits_ne_nil
      simp only [List.splitOn_nil, List.getLast?_concat, List.map_cons, List.map_nil,
        List.getLast?_cons_cons, List.getLast?_singleton, Option.some.injEq] at none
      exact filled none.symm

/-! ## The claim of the canonical spelling -/

/-- What the canonical spellings of two texts are to be. -/
structure Canonicalises (value other : String) : Prop where
  http : ∀ canonical, canonicalHttpOrigin value = some canonical →
    ("http://".toList <+: canonical.toList ∨ "https://".toList <+: canonical.toList) ∧
      canonicalHttpOrigin canonical = some canonical
  webSocket : ∀ canonical, canonicalWebSocketOrigin value = some canonical →
    ("ws://".toList <+: canonical.toList ∨ "wss://".toList <+: canonical.toList) ∧
      canonicalWebSocketOrigin canonical = some canonical
  /-- The same scheme, host and effective port. -/
  sameHttp : ∀ first second, canonicalHttpOrigin value = some first →
    canonicalHttpOrigin other = some second →
      (first = second ↔ endpointOf HTTP_PORTS value.toList = endpointOf HTTP_PORTS other.toList)
  sameWebSocket : ∀ first second, canonicalWebSocketOrigin value = some first →
    canonicalWebSocketOrigin other = some second →
      (first = second ↔
        endpointOf WEB_SOCKET_PORTS value.toList = endpointOf WEB_SOCKET_PORTS other.toList)
  hostname : ∀ name, canonicalHostname value = some name →
    canonicalHostname name = some name ∧
      ∀ char ∈ name.toList, char ≠ ':' ∧ char ≠ '/' ∧ char ≠ '@'

/-- Only the scheme that every table inherits has no canonical spelling it should have. -/
theorem canonicalises_iff (value other : String) :
    Canonicalises value other ↔ ¬ namesScheme "constructor" value := by
  constructor
  · intro right names
    obtain ⟨canonical, found, starts⟩ := canonicalOrigin_constructor names HTTP_PORTS
    obtain ⟨rest, spelled⟩ := starts
    rcases (right.http canonical found).1 with ⟨tail, same⟩ | ⟨tail, same⟩ <;>
      rw [← spelled] at same <;> simp at same
  · intro other'
    refine ⟨?_, ?_, ?_, ?_, ?_⟩
    · intro canonical found
      refine ⟨?_, canonicalOrigin_fixed found⟩
      obtain ⟨entry, listed, starts⟩ := (canonicalOrigin_starts found).resolve_right other'
      simp only [HTTP_PORTS, List.mem_cons, List.not_mem_nil, or_false] at listed
      rcases listed with rfl | rfl
      · exact .inl starts
      · exact .inr starts
    · intro canonical found
      refine ⟨?_, canonicalOrigin_fixed found⟩
      obtain ⟨entry, listed, starts⟩ := (canonicalOrigin_starts found).resolve_right other'
      simp only [WEB_SOCKET_PORTS, List.mem_cons, List.not_mem_nil, or_false] at listed
      rcases listed with rfl | rfl
      · exact .inl starts
      · exact .inr starts
    · exact fun first second one two => canonicalOrigin_same one two
    · exact fun first second one two => canonicalOrigin_same one two
    · intro name found
      obtain ⟨text, rfl, spelled⟩ := canonicalHostname_text found
      refine ⟨spelled.fixed, fun char member => ?_⟩
      rw [String.toList_ofList] at member
      have domain := isDomain_chars spelled.domain char member
      refine ⟨?_, ?_, ?_⟩ <;> rintro rfl <;> exact absurd domain (by decide)

theorem canonicalises_not_constructor : ¬ ∀ value other, Canonicalises value other := by
  intro claim
  have spelled := (claim "constructor://host" "").http "constructor://host" (by decide)
  exact absurd spelled.1 (by decide)

end NostrWot.Permissions
