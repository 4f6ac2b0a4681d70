import NostrWot.Data.Trim
import NostrWot.Permissions.Endpoint

namespace NostrWot.Relay

open NostrWot.Data NostrWot.Permissions

/-! # Relay URLs

The transport policy for a relay URL: what `parseRelayUrl` accepts, and which hosts
are refused as not public.
-/

inductive RelayUrlPolicy where
  | wss
  | localWs
  | ws
  | publicWss
  deriving DecidableEq

/-- What is read of a URL that `new URL` has parsed. -/
structure Url where
  protocol : Text
  username : Text
  password : Text
  hostname : Text
  deriving DecidableEq

def WSS : Text := "wss:".toList

def WS : Text := "ws:".toList

def isLoopbackHost (host : Text) : Bool :=
  host = "localhost".toList || host = "127.0.0.1".toList || host = "[::1]".toList

def endsWith (text : Text) (tail : String) : Bool := tail.toList.isSuffixOf text

def startsWith (text : Text) (head : String) : Bool := head.toList.isPrefixOf text

/-- `/^(?:f[cd][0-9a-f]{2}|fe[89ab][0-9a-f]|fe[cdef][0-9a-f]|ff[0-9a-f]{2}):/`. -/
def isLocalGroup : Text → Bool
  | first :: second :: third :: fourth :: colon :: _ =>
    first = 'f' && colon = ':' && isWritten fourth &&
      (((second = 'c' || second = 'd') && isWritten third) ||
        (second = 'e' && "89ab".toList.contains third) ||
        (second = 'e' && "cdef".toList.contains third) ||
        (second = 'f' && isWritten third))
  | _ => false

def isLocalIpv6 (ip : Text) : Bool :=
  ip = "::".toList || ip = "::1".toList || startsWith ip "::ffff:" || isLocalGroup ip

/-- The first two bytes of an IPv4 address that is not public. -/
def isLocalIpv4 (a b : Nat) : Bool :=
  (a = 0 || a = 10 || a = 127 || 224 ≤ a) || (a = 169 && b = 254) ||
    (a = 172 && 16 ≤ b && b ≤ 31) || (a = 192 && b = 168) || (a = 100 && 64 ≤ b && b ≤ 127)

def isLocalName (host : Text) : Bool :=
  host = [] || host = "localhost".toList || endsWith host ".localhost" || endsWith host ".local" ||
    endsWith host ".onion" || host = "host.docker.internal".toList

def withoutDots (host : Text) : Text := host.rdropWhile (· = '.')

def isPublicHost (hostname : Text) : Bool :=
  let host := withoutDots (toLowerCase hostname)
  if isLocalName host then false
  else if startsWith host "[" then !isLocalIpv6 (host.drop 1).dropLast
  else if isDottedQuad host then
    let numbers := (host.splitOn '.').map (parseInt 10)
    !isLocalIpv4 (numbers.getD 0 0) (numbers.getD 1 0)
  else true

section Parse

variable (parse : Units → Option Url)

/-- `parse` is `new URL`, `none` where it throws; a value that is no string is `none`. -/
def parseRelayUrl (value : Option Units) (policy : RelayUrlPolicy) : Option Url := do
  let text ← value
  if text.trim = [] then none
  else
    let url ← parse text.trim
    if url.hostname = [] || url.username ≠ [] || url.password ≠ [] then none
    else if url.protocol ≠ WSS && (url.protocol ≠ WS ||
        (policy ≠ .ws && !(policy = .localWs && isLoopbackHost url.hostname))) then none
    else if policy = .publicWss && !isPublicHost url.hostname then none
    else some url

/-- Encrypted, without credentials, and not on a local or private literal host. -/
def isPublicWssUrl (value : Option Units) : Bool := (parseRelayUrl parse value .publicWss).isSome

/-! ## Relay lists -/

structure RelayListEntry where
  pubkey : Units
  read : List Units
  write : List Units
  fetchedAt : Nat

inductive RelayListFilter where
  | all
  | onlyPublic
  | custom (keep : Units → Bool)

def shouldKeep (url : Units) : RelayListFilter → Bool
  | .all => (Units.ofString "ws").isPrefixOf url
  | .onlyPublic => isPublicWssUrl parse (some url)
  | .custom keep => keep url

def added (url : Units) (set : List Units) : List Units := if url ∈ set then set else set ++ [url]

def addRelay (filter : RelayListFilter) (list : RelayListEntry) (tag : List Units) : RelayListEntry :=
  match tag with
  | name :: url :: rest =>
    if name ≠ Units.ofString "r" || !shouldKeep parse url filter then list
    else
      let marker := rest.head?.getD []
      if marker = [] then
        { list with read := added url list.read, write := added url list.write }
      else if marker = Units.ofString "read" then { list with read := added url list.read }
      else if marker = Units.ofString "write" then { list with write := added url list.write }
      else list
  | _ => list

def parseRelayList (pubkey : Units) (tags : List (List Units)) (filter : RelayListFilter)
    (now : Nat) : RelayListEntry :=
  tags.foldl (addRelay parse filter) ⟨pubkey, [], [], now⟩

end Parse

/-! ## Hosts -/

def Parsed : Host → Prop
  | .ipv4 address => address < 2 ^ 32
  | .ipv6 groups => groups.length = 8 ∧ ∀ group ∈ groups, group < 65536
  | .domain name => toLowerCase name = name ∧ name.head? ≠ some '['

/-- The parser serialises the host of a `wss` URL. -/
def Serialises (parse : Units → Option Url) : Prop :=
  ∀ text url, parse text = some url → url.protocol = WSS →
    ∃ host, Parsed host ∧ url.hostname = Host.text host

/-- Loopback, private, link-local, carrier-grade NAT, multicast or unspecified. -/
def LocalIpv4 (address : Nat) : Prop :=
  let first := address / 2 ^ 24
  let second := address / 2 ^ 16 % 256
  first = 127 ∨ first = 10 ∨ (first = 172 ∧ 16 ≤ second ∧ second ≤ 31) ∨
    (first = 192 ∧ second = 168) ∨ (first = 169 ∧ second = 254) ∨
    (first = 100 ∧ 64 ≤ second ∧ second ≤ 127) ∨ (224 ≤ first ∧ first ≤ 239) ∨ address = 0

def LocalGroup (first : Nat) : Prop :=
  (0xfc00 ≤ first ∧ first ≤ 0xfdff) ∨ (0xfe80 ≤ first ∧ first ≤ 0xfeff) ∨ 0xff00 ≤ first

/-- An IPv4 address in the last two groups, in its compatible form. -/
def compatible (high low : Nat) : List Nat := [0, 0, 0, 0, 0, 0, high, low]

def mapped (high low : Nat) : List Nat := [0, 0, 0, 0, 0, 0xffff, high, low]

def LocalIpv6 (groups : List Nat) : Prop :=
  groups = compatible 0 0 ∨ groups = compatible 0 1 ∨ (∃ first ∈ groups.head?, LocalGroup first) ∨
    ∃ high low, (groups = mapped high low ∨ groups = compatible high low) ∧
      LocalIpv4 (high * 65536 + low)

/-- `localhost`, or a name under `localhost` or `local`, whatever dots follow it. -/
def LocalName (name : Text) : Prop :=
  withoutDots name = "localhost".toList ∨ ".localhost".toList <:+ withoutDots name ∨
    ".local".toList <:+ withoutDots name

def LocalHost : Host → Prop
  | .ipv4 address => LocalIpv4 address
  | .ipv6 groups => LocalIpv6 groups
  | .domain name => LocalName name

structure PublicUrl (url : Url) : Prop where
  protocol : url.protocol = WSS
  username : url.username = []
  password : url.password = []
  hosted : ∃ host, Parsed host ∧ url.hostname = Host.text host
  host : ∀ host, Parsed host → url.hostname = Host.text host → ¬ LocalHost host

def Embedded (host : Host) : Prop :=
  ∃ high low, host = .ipv6 (compatible high low) ∧ (high, low) ≠ (0, 0) ∧
    LocalIpv4 (high * 65536 + low)

/-! ## Names -/

theorem withoutDots_append {front : Text} {last : Char} (plain : last ≠ '.') :
    withoutDots (front ++ [last]) = front ++ [last] := by
  simp [withoutDots, plain]

theorem public_domain {name : Text} (lower : toLowerCase name = name)
    (accepted : isPublicHost name = true) : ¬ LocalName name := by
  rw [isPublicHost, lower] at accepted
  have named : isLocalName (withoutDots name) = false := by
    cases local_ : isLocalName (withoutDots name) with
    | true => simp [local_] at accepted
    | false => rfl
  simp only [isLocalName, endsWith, Bool.or_eq_false_iff, decide_eq_false_iff_not] at named
  have notUnder : ∀ tail : Text, tail.isSuffixOf (withoutDots name) = false →
      ¬ tail <:+ withoutDots name := by
    intro tail apart under
    rw [List.isSuffixOf_iff_suffix.mpr under] at apart
    contradiction
  intro is
  rcases is with exact_ | under | under
  · exact named.1.1.1.1.2 exact_
  · exact notUnder _ named.1.1.1.2 under
  · exact notUnder _ named.1.1.2 under

/-! ## IPv4 addresses -/

variable (address : Nat)

theorem toLowerCase_ipv4Text : toLowerCase (ipv4Text address) = ipv4Text address :=
  toLowerCase_of_forall fun char member =>
    lowerChar_domain (isDomain_chars (isDomain_ipv4Text address) char member)

theorem byte_digits (address shift : Nat) :
    ∀ char ∈ Nat.toDigits 10 (address / 2 ^ shift % 256), char.isDigit = true :=
  isDigit_toDigits _

theorem withoutDots_ipv4Text : withoutDots (ipv4Text address) = ipv4Text address := by
  obtain ⟨front, last, digits⟩ : ∃ front last,
      Nat.toDigits 10 (address / 2 ^ 0 % 256) = front ++ [last] := by
    rcases List.eq_nil_or_concat (Nat.toDigits 10 (address / 2 ^ 0 % 256)) with none | some
    · exact absurd none Nat.toDigits_ne_nil
    · obtain ⟨front, last, same⟩ := some
      exact ⟨front, last, by rw [same, List.concat_eq_append]⟩
  have digit := byte_digits address 0 last (by rw [digits]; simp)
  have shape : ∃ before, ipv4Text address = before ++ [last] := by
    refine ⟨Nat.toDigits 10 (address / 2 ^ 24 % 256) ++ '.' ::
      (Nat.toDigits 10 (address / 2 ^ 16 % 256) ++ '.' ::
        (Nat.toDigits 10 (address / 2 ^ 8 % 256) ++ '.' :: front)), ?_⟩
    simp only [ipv4Text, join, List.intercalate, List.map_cons, List.map_nil, digits]
    simp
  obtain ⟨before, same⟩ := shape
  rw [same]
  apply withoutDots_append
  rintro rfl
  exact absurd digit (by decide)

theorem isDottedQuad_ipv4Text : isDottedQuad (ipv4Text address) = true := by
  have part : ∀ shift, (!(Nat.toDigits 10 (address / 2 ^ shift % 256)).isEmpty &&
      (Nat.toDigits 10 (address / 2 ^ shift % 256)).all Char.isDigit) = true := by
    intro shift
    have filled : (Nat.toDigits 10 (address / 2 ^ shift % 256)).isEmpty = false := by
      simp [Nat.toDigits_ne_nil]
    rw [filled, List.all_eq_true.mpr (byte_digits address shift)]
    rfl
  rw [isDottedQuad, splitOn_ipv4Text]
  simp only [List.map_cons, List.map_nil, List.length_cons, List.length_nil, List.all_cons,
    List.all_nil, part]
  decide

theorem numbers_ipv4Text :
    ((ipv4Text address).splitOn '.').map (parseInt 10) =
      [24, 16, 8, 0].map fun shift => address / 2 ^ shift % 256 := by
  have read : ∀ value, parseInt 10 (Nat.toDigits 10 value) = value :=
    parseInt_toDigits (by decide) (by decide)
  rw [splitOn_ipv4Text, List.map_map]
  apply List.map_congr_left
  intro shift _
  exact read _

theorem public_ipv4 {address : Nat}
    (accepted : isPublicHost (ipv4Text address) = true) : ¬ LocalIpv4 address := by
  have numbers := numbers_ipv4Text address
  have quad := isDottedQuad_ipv4Text address
  rw [isPublicHost, toLowerCase_ipv4Text, withoutDots_ipv4Text] at accepted
  simp only [numbers, quad, if_true] at accepted
  split at accepted
  · contradiction
  · split at accepted
    · next bracket =>
      have digit : ∀ rest, ipv4Text address ≠ '[' :: rest := by
        intro rest same
        have inside := isDomain_chars (isDomain_ipv4Text address) '[' (by simp [same])
        revert inside
        decide
      rw [startsWith, List.isPrefixOf_iff_prefix] at bracket
      obtain ⟨rest, same⟩ := bracket
      exact absurd same.symm (digit rest)
    · simp only [List.map_cons, List.getD_cons_zero, List.getD_cons_succ, isLocalIpv4] at accepted
      simp only [LocalIpv4]
      simp at accepted
      omega

/-! ## IPv6 addresses -/

theorem isPublicHost_ipv6 (groups : List Nat) :
    isPublicHost (bracketed groups) = !isLocalIpv6 (ipv6Text groups) := by
  have lower : toLowerCase (bracketed groups) = bracketed groups := by
    apply toLowerCase_of_forall
    intro char member
    rw [bracketed, List.mem_cons, List.mem_append, List.mem_singleton] at member
    rcases member with rfl | inside | rfl
    · decide
    · exact lowerChar_address (isAddressChar_ipv6Text groups char inside)
    · decide
  have shape : bracketed groups = ('[' :: ipv6Text groups) ++ [']'] := rfl
  have whole : withoutDots (bracketed groups) = bracketed groups := by
    rw [shape]
    exact withoutDots_append (by decide)
  have ends : ∀ tail : Text, ']' ∉ tail → tail ≠ [] → ¬ tail <:+ bracketed groups := by
    intro tail plain filled under
    rw [shape] at under
    obtain ⟨before, same⟩ := under
    rcases List.eq_nil_or_concat tail with none | ⟨front, last, made⟩
    · exact filled none
    · rw [made, List.concat_eq_append, ← List.append_assoc] at same
      have final := (List.append_inj' same rfl).2
      rw [made, List.concat_eq_append] at plain
      simp_all
  have named : isLocalName (bracketed groups) = false := by
    have suffix : ∀ tail : String, ']' ∉ tail.toList → tail.toList ≠ [] →
        endsWith (bracketed groups) tail = false := by
      intro tail plain filled
      rw [Bool.eq_false_iff]
      intro under
      exact ends tail.toList plain filled (List.isSuffixOf_iff_suffix.mp under)
    have opens : ∀ text : Text, text.head? ≠ some '[' → bracketed groups ≠ text := by
      intro text other same
      rw [← same] at other
      exact other rfl
    simp only [isLocalName, suffix ".localhost" (by decide) (by decide),
      suffix ".local" (by decide) (by decide), suffix ".onion" (by decide) (by decide),
      Bool.or_false, Bool.or_eq_false_iff, decide_eq_false_iff_not]
    exact ⟨⟨opens _ (by decide), opens _ (by decide)⟩, opens _ (by decide)⟩
  have inner : ((bracketed groups).drop 1).dropLast = ipv6Text groups := by
    simp [bracketed]
  rw [isPublicHost, lower, whole, named, inner]
  rfl

theorem join_cons (part : Text) {parts : List Text} (more : parts ≠ []) :
    join [':'] (part :: parts) = part ++ ':' :: join [':'] parts := by
  cases parts with
  | nil => contradiction
  | cons next rest => simp [join, List.intercalate]

theorem ipv6Text_cons {first : Nat} {rest : List Nat} (plain : first ≠ 0) (more : rest ≠ []) :
    ∃ tail, ipv6Text (first :: rest) = Nat.toDigits 16 first ++ ':' :: tail := by
  simp only [ipv6Text, List.map_cons]
  split
  · exact ⟨_, join_cons _ (by simpa using more)⟩
  · next start length longest =>
    obtain ⟨_, two, whole⟩ := groups_of_run longest
    cases start with
    | zero =>
      obtain ⟨less, made⟩ : ∃ less, length = less + 1 := ⟨length - 1, by omega⟩
      rw [made, List.take_zero, List.nil_append, List.replicate_succ, List.cons_append] at whole
      exact absurd (List.cons.inj whole).1.symm plain
    | succ before =>
      rw [List.take_succ_cons]
      by_cases alone : (rest.map (Nat.toDigits 16)).take before = []
      · rw [alone]
        exact ⟨_, by simp [join, List.intercalate]; rfl⟩
      · rw [join_cons _ alone, List.append_assoc]
        exact ⟨_, rfl⟩

theorem toDigits_large {group : Nat} (large : 4096 ≤ group) (small : group < 65536) :
    Nat.toDigits 16 group = [Nat.digitChar (group / 4096), Nat.digitChar (group / 256 % 16),
      Nat.digitChar (group / 16 % 16), Nat.digitChar (group % 16)] := by
  have third : group / 16 / 16 = group / 256 := by omega
  have fourth : group / 256 / 16 = group / 4096 := by omega
  rw [Nat.toDigits_of_base_le (by decide) (by omega), Nat.toDigits_of_base_le (by decide) (by omega),
    third, Nat.toDigits_of_base_le (by decide) (by omega), fourth,
    Nat.toDigits_of_lt_base (by omega)]
  rfl

theorem isLocalGroup_text {group : Nat} (local_ : LocalGroup group) (small : group < 65536)
    (tail : Text) : isLocalGroup (Nat.toDigits 16 group ++ ':' :: tail) = true := by
  have large : 0xfc00 ≤ group := by
    rcases local_ with ⟨_, _⟩ | ⟨_, _⟩ | _ <;> omega
  have top : group / 4096 = 15 := by omega
  have written : ∀ digit < 16, isWritten (Nat.digitChar digit) = true := by
    intro digit below
    exact isWritten_digitChar below
  have third := written (group / 16 % 16) (Nat.mod_lt _ (by decide))
  have fourth := written (group % 16) (Nat.mod_lt _ (by decide))
  have upper : ∀ digit < 16, 8 ≤ digit → ("89ab".toList.contains (Nat.digitChar digit) ||
      "cdef".toList.contains (Nat.digitChar digit)) = true := by decide
  have first : Nat.digitChar 15 = 'f' := by decide
  rw [toDigits_large (by omega) small, top]
  simp only [List.cons_append, List.nil_append, isLocalGroup, first, third, fourth]
  rcases local_ with ⟨above, below⟩ | ⟨above, below⟩ | above
  · have second : group / 256 % 16 = 12 ∨ group / 256 % 16 = 13 := by omega
    have letters : Nat.digitChar 12 = 'c' ∧ Nat.digitChar 13 = 'd' := by decide
    rcases second with same | same <;> simp [same, letters]
  · have second : group / 256 % 16 = 14 := by omega
    have either := upper (group / 16 % 16) (Nat.mod_lt _ (by decide)) (by omega)
    rw [second]
    have letter : Nat.digitChar 14 = 'e' := by decide
    rw [letter]
    rw [Bool.or_eq_true] at either
    rcases either with low | high
    · rw [low]
      simp
    · rw [high]
      simp
  · have second : group / 256 % 16 = 15 := by omega
    rw [second, first]
    simp

theorem ipv6Text_mapped (high low : Nat) :
    ∃ tail, ipv6Text (mapped high low) = "::ffff:".toList ++ tail := by
  have last : Nat.toDigits 16 65535 = "ffff".toList := by decide
  by_cases none : high = 0 <;> by_cases zero : low = 0 <;>
    simp [ipv6Text, mapped, longestZeroRun, zeroRuns, none, zero, last, join, List.intercalate]

theorem ipv6Text_compatible {high : Nat} (some_ : high ≠ 0) (low : Nat) :
    ipv6Text (compatible high low) =
      ':' :: ':' :: (Nat.toDigits 16 high ++ ':' :: Nat.toDigits 16 low) := by
  by_cases zero : low = 0 <;>
    simp [ipv6Text, compatible, longestZeroRun, zeroRuns, some_, zero, join, List.intercalate]

/-! ## What is accepted -/

theorem LocalIpv4.embedded {high low : Nat} (small : low < 65536)
    (local_ : LocalIpv4 (high * 65536 + low)) :
    high = 0 ∧ low = 0 ∨ high ≠ 0 ∧ high ≠ 0xffff := by
  simp only [LocalIpv4] at local_
  omega

theorem isLocalIpv6_compatible {high low : Nat} (some_ : high ≠ 0) (other : high ≠ 0xffff) :
    isLocalIpv6 (ipv6Text (compatible high low)) = false := by
  have plain : ':' ∉ Nat.toDigits 16 high := (grouped_toDigits high).2
  have filled : Nat.toDigits 16 high ≠ [] := Nat.toDigits_ne_nil
  rw [ipv6Text_compatible some_]
  have double : ':' :: ':' :: (Nat.toDigits 16 high ++ ':' :: Nat.toDigits 16 low) ≠ "::".toList := by
    simp
  have one : ':' :: ':' :: (Nat.toDigits 16 high ++ ':' :: Nat.toDigits 16 low) ≠ "::1".toList := by
    intro same
    have inside : ':' ∈ "1".toList := by
      have rest := (List.cons.inj (List.cons.inj same).2).2
      have last : "1".toList = Nat.toDigits 16 high ++ ':' :: Nat.toDigits 16 low := rest.symm
      rw [last]
      simp
    revert inside
    decide
  have start : startsWith (':' :: ':' :: (Nat.toDigits 16 high ++ ':' :: Nat.toDigits 16 low))
      "::ffff:" = false := by
    rw [startsWith, Bool.eq_false_iff]
    intro prefixed
    rw [List.isPrefixOf_iff_prefix] at prefixed
    obtain ⟨tail, same⟩ := prefixed
    have rest : "ffff".toList ++ ':' :: tail = Nat.toDigits 16 high ++ ':' :: Nat.toDigits 16 low :=
      (List.cons.inj (List.cons.inj same).2).2
    have left : "ffff".toList = Nat.toDigits 16 high := by
      have before := @span_append "ffff".toList (':' :: tail) ':' (by decide) (.inr rfl)
      have after := @span_append _ (':' :: Nat.toDigits 16 low) ':' plain (.inr rfl)
      rw [rest, after] at before
      exact (Prod.mk.inj before).1.symm
    have read := congrArg (parseInt 16) left
    rw [parseInt_toDigits (by decide) (by decide)] at read
    exact other (by rw [← read]; simp [parseInt, digitValue])
  rw [isLocalIpv6, start]
  simp only [double, one, isLocalGroup, decide_false, Bool.or_false, Bool.false_or]
  split
  · next first =>
    have colon := (List.cons.inj first).1
    subst colon
    rfl
  · rfl

theorem local_ipv6_embedded {groups : List Nat} (parsed : Parsed (.ipv6 groups))
    (accepted : isLocalIpv6 (ipv6Text groups) = false) (local_ : LocalIpv6 groups) :
    Embedded (.ipv6 groups) := by
  obtain ⟨eight, small⟩ := parsed
  simp only [isLocalIpv6, Bool.or_eq_false_iff, decide_eq_false_iff_not] at accepted
  obtain ⟨⟨⟨unspecified, loopback⟩, wrapped⟩, group⟩ := accepted
  rcases local_ with zero | one | ⟨first, head, local_⟩ | ⟨high, low, form, local_⟩
  · rw [zero] at unspecified
    exact absurd (by decide) unspecified
  · rw [one] at loopback
    exact absurd (by decide) loopback
  · obtain ⟨rest, same⟩ : ∃ rest, groups = first :: rest := by
      cases groups with
      | nil => contradiction
      | cons head_ rest => exact ⟨rest, by rw [Option.some.inj (Option.mem_def.mp head)]⟩
    rw [same] at eight group small
    have plain : first ≠ 0 := by
      rcases local_ with ⟨_, _⟩ | ⟨_, _⟩ | _ <;> omega
    have more : rest ≠ [] := by
      rintro rfl
      simp at eight
    obtain ⟨tail, text⟩ := ipv6Text_cons plain more
    rw [text, isLocalGroup_text local_ (small first (by simp))] at group
    contradiction
  · rcases form with same | same
    · obtain ⟨tail, text⟩ := ipv6Text_mapped high low
      rw [same, text, startsWith, Bool.eq_false_iff] at wrapped
      exact absurd (List.isPrefixOf_iff_prefix.mpr ⟨tail, rfl⟩) wrapped
    · refine ⟨high, low, by rw [same], ?_, local_⟩
      intro zero
      have both := Prod.mk.inj zero
      rw [same, both.1, both.2] at unspecified
      exact absurd (by decide) unspecified

theorem public_host {host : Host} (parsed : Parsed host)
    (accepted : isPublicHost (Host.text host) = true) (local_ : LocalHost host) : Embedded host := by
  cases host with
  | ipv4 address => exact absurd local_ (public_ipv4 accepted)
  | ipv6 groups =>
    have refused := isPublicHost_ipv6 groups
    rw [Host.text, refused, Bool.not_eq_true'] at accepted
    exact local_ipv6_embedded parsed accepted local_
  | domain name => exact absurd local_ (public_domain parsed.1 accepted)

theorem Embedded.accepted {host : Host} (parsed : Parsed host) (embedded : Embedded host) :
    isPublicHost (Host.text host) = true ∧ LocalHost host := by
  obtain ⟨high, low, rfl, filled, local_⟩ := embedded
  have small : low < 65536 := parsed.2 low (by simp [compatible])
  rcases local_.embedded small with ⟨zero, none⟩ | ⟨some_, other⟩
  · exact absurd (by rw [zero, none]) filled
  · refine ⟨?_, .inr (.inr (.inr ⟨high, low, .inr rfl, local_⟩))⟩
    rw [Host.text, isPublicHost_ipv6, isLocalIpv6_compatible some_ other]
    rfl

section Parse

variable {parse : Units → Option Url}

def Reads (parse : Units → Option Url) (value : Option Units) (url : Url) : Prop :=
  ∃ text, value = some text ∧ text.trim ≠ [] ∧ parse text.trim = some url

theorem parseRelayUrl_public {value : Option Units} {url : Url} :
    parseRelayUrl parse value .publicWss = some url ↔
      Reads parse value url ∧ url.hostname ≠ [] ∧ url.username = [] ∧ url.password = [] ∧
        url.protocol = WSS ∧ isPublicHost url.hostname = true := by
  cases value with
  | none => simp [parseRelayUrl, Reads]
  | some text =>
    by_cases blank : text.trim = []
    · simp [parseRelayUrl, Reads, blank]
    · cases read : parse text.trim with
      | none => simp [parseRelayUrl, Reads, blank, read]
      | some other =>
        simp only [parseRelayUrl, Reads, Option.bind_eq_bind, Option.bind_some, blank, read,
          if_false]
        constructor
        · intro accepted
          split at accepted
          · contradiction
          · split at accepted
            · contradiction
            · split at accepted
              · contradiction
              · have same := Option.some.inj accepted
                subst same
                simp_all
        · rintro ⟨⟨_, same, _, found⟩, hosted, user, secret, secure, isPublic⟩
          cases same
          rw [read] at found
          cases found
          simp [hosted, user, secret, secure, isPublic]

/-- An accepted URL is public just when its host embeds no local IPv4 address in the
compatible form. -/
theorem accepted_public_iff (serialises : Serialises parse) (value : Option Units) :
    (∀ url, parseRelayUrl parse value .publicWss = some url → PublicUrl url) ↔
      ∀ url, Reads parse value url → url.protocol = WSS → url.username = [] → url.password = [] →
        ∀ host, Parsed host → url.hostname = Host.text host → ¬ Embedded host := by
  constructor
  · intro sound url reads secure user secret host parsed text embedded
    obtain ⟨isPublic, local_⟩ := embedded.accepted parsed
    have hosted : url.hostname ≠ [] := by
      obtain ⟨high, low, rfl, _⟩ := embedded
      rw [text]
      simp [Host.text, bracketed]
    have accepted : parseRelayUrl parse value .publicWss = some url :=
      parseRelayUrl_public.mpr ⟨reads, hosted, user, secret, secure, by rw [text]; exact isPublic⟩
    exact (sound url accepted).host host parsed text local_
  · intro plain url accepted
    obtain ⟨reads, _, user, secret, secure, isPublic⟩ := parseRelayUrl_public.mp accepted
    obtain ⟨text, _, _, read⟩ := reads
    refine ⟨secure, user, secret, serialises _ url read secure, ?_⟩
    intro host parsed spelled local_
    rw [spelled] at isPublic
    have embedded := public_host parsed isPublic local_
    exact plain url (parseRelayUrl_public.mp accepted).1 secure user secret host parsed spelled
      embedded

end Parse

section Lists

variable {parse : Units → Option Url} {filter : RelayListFilter}

/-- An `r` tag of a relay that is kept, without a marker or with this one. -/
def Tagged (parse : Units → Option Url) (filter : RelayListFilter) (marker : String) (url : Units)
    (tag : List Units) : Prop :=
  ∃ rest, tag = Units.ofString "r" :: url :: rest ∧ shouldKeep parse url filter = true ∧
    (rest.head?.getD [] = [] ∨ rest.head?.getD [] = Units.ofString marker)

theorem mem_added {url other : Units} {set : List Units} :
    other ∈ added url set ↔ other ∈ set ∨ other = url := by
  unfold added
  split
  · next present => exact ⟨.inl, fun either => either.elim id fun same => same ▸ present⟩
  · simp

theorem nodup_added {url : Units} {set : List Units} (nodup : set.Nodup) :
    (added url set).Nodup := by
  unfold added
  split
  · exact nodup
  · next absent => exact nodup.append (List.nodup_singleton _) (by simpa using absent)

theorem addRelay_step (list : RelayListEntry) (tag : List Units) :
    (∀ url, url ∈ (addRelay parse filter list tag).read ↔
      url ∈ list.read ∨ Tagged parse filter "read" url tag) ∧
    (∀ url, url ∈ (addRelay parse filter list tag).write ↔
      url ∈ list.write ∨ Tagged parse filter "write" url tag) ∧
    (list.read.Nodup → (addRelay parse filter list tag).read.Nodup) ∧
    (list.write.Nodup → (addRelay parse filter list tag).write.Nodup) := by
  have apart : Units.ofString "read" ≠ Units.ofString "write" := by decide
  have named : Units.ofString "read" ≠ [] ∧ Units.ofString "write" ≠ [] := by decide
  unfold addRelay Tagged
  split
  · next name found rest =>
    dsimp only
    split_ifs with skipped unmarked read write
    all_goals grind [mem_added, nodup_added]
  · next short =>
    have other : ∀ url rest, tag ≠ Units.ofString "r" :: url :: rest :=
      fun url rest => short _ url rest
    simp [other]

/-- A list holds, each once, the relays that a tag gives it and its filter keeps. -/
theorem parseRelayList_lists (pubkey : Units) (tags : List (List Units)) (now : Nat) :
    (∀ url, url ∈ (parseRelayList parse pubkey tags filter now).read ↔
      ∃ tag ∈ tags, Tagged parse filter "read" url tag) ∧
    (∀ url, url ∈ (parseRelayList parse pubkey tags filter now).write ↔
      ∃ tag ∈ tags, Tagged parse filter "write" url tag) ∧
    (parseRelayList parse pubkey tags filter now).read.Nodup ∧
    (parseRelayList parse pubkey tags filter now).write.Nodup := by
  have run : ∀ list : RelayListEntry, list.read.Nodup → list.write.Nodup →
      (∀ url, url ∈ (tags.foldl (addRelay parse filter) list).read ↔
        url ∈ list.read ∨ ∃ tag ∈ tags, Tagged parse filter "read" url tag) ∧
      (∀ url, url ∈ (tags.foldl (addRelay parse filter) list).write ↔
        url ∈ list.write ∨ ∃ tag ∈ tags, Tagged parse filter "write" url tag) ∧
      (tags.foldl (addRelay parse filter) list).read.Nodup ∧
      (tags.foldl (addRelay parse filter) list).write.Nodup := by
    induction tags with
    | nil => exact fun list once once' => ⟨by simp, by simp, once, once'⟩
    | cons tag tags induction =>
      intro list once once'
      obtain ⟨reads, writes, distinct, distinct'⟩ := @addRelay_step parse filter list tag
      obtain ⟨read, write, rest⟩ := induction _ (distinct once) (distinct' once')
      exact ⟨fun url => by simp [read, reads, or_assoc], fun url => by simp [write, writes, or_assoc],
        rest⟩
  simpa [parseRelayList] using run ⟨pubkey, [], [], now⟩ List.nodup_nil List.nodup_nil

end Lists

def sampleParse (text : Units) : Option Url :=
  if text = Units.ofString "wss://relay.example" then
    some ⟨WSS, [], [], Host.text (.domain "relay.example".toList)⟩
  else if text = Units.ofString "wss://[::7f00:1]" then
    some ⟨WSS, [], [], Host.text (.ipv6 (compatible 0x7f00 1))⟩
  else none

theorem sampleParse_serialises : Serialises sampleParse := by
  intro text url read _
  simp only [sampleParse] at read
  split at read
  · exact ⟨.domain "relay.example".toList, ⟨by decide, by decide⟩, by rw [← Option.some.inj read]⟩
  · split at read
    · exact ⟨.ipv6 (compatible 0x7f00 1), ⟨rfl, by decide⟩, by rw [← Option.some.inj read]⟩
    · contradiction

theorem accepted_public_iff_relay :
    PublicUrl ⟨WSS, [], [], Host.text (.domain "relay.example".toList)⟩ := by
  have plain := (accepted_public_iff sampleParse_serialises
    (some (Units.ofString "wss://relay.example"))).mpr (by
      rintro url ⟨text, same, _, read⟩ _ _ _ host _ spelled ⟨high, low, rfl, _⟩
      cases same
      have found : sampleParse (Units.ofString "wss://relay.example").trim =
          some ⟨WSS, [], [], Host.text (.domain "relay.example".toList)⟩ := by decide
      rw [found] at read
      cases read
      exact absurd (congrArg List.head? spelled) (by simp [Host.text, bracketed]))
  exact plain _ (by decide)

/-- `wss://[::127.0.0.1]` is accepted. -/
theorem embedded_loopback_accepted :
    parseRelayUrl sampleParse (some (Units.ofString "wss://[::7f00:1]")) .publicWss =
      some ⟨WSS, [], [], Host.text (.ipv6 (compatible 0x7f00 1))⟩ ∧
    LocalHost (.ipv6 (compatible 0x7f00 1)) := by
  refine ⟨by decide, .inr (.inr (.inr ⟨0x7f00, 1, .inr rfl, .inl (by decide)⟩))⟩

end NostrWot.Relay
