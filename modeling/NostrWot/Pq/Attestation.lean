import NostrWot.Data.CodeUnits
import NostrWot.Pq.Envelope

namespace NostrWot.Pq

open NostrWot.Data

/-! # Attestations

The event that advertises an identity's post-quantum keys, and what other
clients may read off it.
-/

def PQC_KIND : Int := 10203

def PQ_PROFILE : Units := Units.ofString "nip-pqc/v1"

def ALG_KEM : Units := Units.ofString "ml-kem-1024"

def ALG_DSA : Units := Units.ofString "ml-dsa-87"

def DSA_PUBLIC_KEY_BYTES : Nat := 2592

inductive PqOrigin where
  | derived
  | independent
  deriving DecidableEq

inductive PqProblem where
  | keyLength (alg : Units) (bytes : Int) (expected : Nat)
  | noAlgTags
  | noKem (alg : Units)
  | derivedWeakSeed (bits : Units)
  | derivedMissingSeedStrength
  | missingPop (alg : Units)
  | popFailed
  | wrongKind
  | badSignature
  deriving DecidableEq

structure PqAttestation where
  pubkey : Units
  kem : Option Bytes := none
  dsa : Option Bytes := none
  origin : Option PqOrigin := none
  seedStrength : Option Units := none
  profile : Option Units := none
  /-- `none` where no proof was checked. -/
  popValid : Option Bool := none
  problems : List PqProblem
  usable : Bool

structure PqEvent where
  pubkey : Units
  kind : Int
  tags : List (List Units)

structure PqSignedEvent extends PqEvent where
  id : Units
  created_at : Int
  content : Units
  sig : Units

/-- `none` is an `InvalidCharacterError`. -/
def fromBase64 (text : Units) : Option Bytes := Base64.atob (Units.scalars text)

def popMessage (pubkey kemB64 dsaB64 : Units) : Bytes :=
  Units.encode (PQ_PROFILE ++ Units.ofString "/pop:" ++ pubkey ++ [58] ++ kemB64 ++ [58] ++ dsaB64)

def expectedBytesFor (alg : Units) : Option Nat :=
  if alg = ALG_KEM then some KEM_PUBLIC_KEY_BYTES
  else if alg = ALG_DSA then some DSA_PUBLIC_KEY_BYTES
  else none

def isLongTag (name : String) (tag : List Units) : Bool :=
  tag[0]? = some (Units.ofString name) && 3 ≤ tag.length

/-- What the loop over the `alg` tags has found: keys with the text they were read off. -/
structure Found where
  kem : Option (Units × Bytes) := none
  dsa : Option (Units × Bytes) := none
  problems : List PqProblem := []

def readAlg (found : Found) (tag : List Units) : Found :=
  let alg := tag[1]?.getD []
  let b64 := tag[2]?.getD []
  match expectedBytesFor alg with
  | none => found
  | some expected =>
    match fromBase64 b64 with
    | none => { found with problems := found.problems ++ [.keyLength alg (-1) expected] }
    | some bytes =>
      if bytes.length ≠ expected then
        { found with problems := found.problems ++ [.keyLength alg bytes.length expected] }
      else if alg = ALG_KEM then { found with kem := some (b64, bytes) }
      else { found with dsa := some (b64, bytes) }

def first (event : PqEvent) (name : String) : Option Units :=
  ((event.tags.find? fun tag => tag[0]? = some (Units.ofString name)).bind fun tag => tag[1]?).filter
    fun value => value ≠ []

def originOf (text : Option Units) : Option PqOrigin :=
  if text = some (Units.ofString "derived") then some .derived
  else if text = some (Units.ofString "independent") then some .independent
  else none

def seedProblems (origin : Option PqOrigin) (seedStrength : Option Units) : List PqProblem :=
  if origin = some .derived then
    match seedStrength with
    | none => [.derivedMissingSeedStrength]
    | some bits => if bits ≠ Units.ofString "256" then [.derivedWeakSeed bits] else []
  else []

section Verdicts

-- `ml_dsa87.verify` of a signature, a message and a key; `none` is a throw.
variable (verify : Bytes → Bytes → Bytes → Option Bool)

def verifyPop (signature message dsaPublicKey : Bytes) : Bool :=
  (verify signature message dsaPublicKey).getD false

/-- `popValid` and the problems with it.  The proof is decoded outside of any `try`. -/
def checkPop (pubkey : Units) (found : Found) (popTag : Option (List Units)) :
    Except String (Option Bool × List PqProblem) :=
  match found.dsa, popTag, found.kem with
  | some _, none, _ => .ok (none, [.missingPop ALG_DSA])
  | some (dsaB64, dsa), some tag, some (kemB64, _) =>
    match fromBase64 (tag[2]?.getD []) with
    | none => .error "InvalidCharacterError"
    | some signature =>
      if verifyPop verify signature (popMessage pubkey kemB64 dsaB64) dsa then .ok (some true, [])
      else .ok (some false, [.popFailed])
  | _, _, _ => .ok (none, [])

def parseAttestation (event : PqEvent) : Except String PqAttestation :=
  let algTags := event.tags.filter (isLongTag "alg")
  let found := algTags.foldl readAlg {}
  let origin := originOf (first event "origin")
  let seedStrength := first event "seed_strength"
  match checkPop verify event.pubkey found (event.tags.find? (isLongTag "pop")) with
  | .error fault => .error fault
  | .ok (popValid, popProblems) =>
    let problems := found.problems ++ (if algTags = [] then [.noAlgTags] else []) ++
      (if found.kem.isNone then [.noKem ALG_KEM] else []) ++ seedProblems origin seedStrength ++
      popProblems
    .ok {
      pubkey := event.pubkey
      kem := found.kem.map Prod.snd
      dsa := found.dsa.map Prod.snd
      origin
      seedStrength
      profile := first event "v"
      popValid
      problems
      usable := found.kem.isSome && problems.isEmpty }

def refused (event : PqSignedEvent) (problem : PqProblem) : PqAttestation :=
  { pubkey := event.pubkey, problems := [problem], usable := false }

/-- `verifyEvent` is given as a parameter; `none` is a throw. -/
def verifyAttestation (verifyEvent : PqSignedEvent → Option Bool) (event : PqSignedEvent) :
    Except String PqAttestation :=
  if event.kind ≠ PQC_KIND then .ok (refused event .wrongKind)
  else if (verifyEvent event).getD false then parseAttestation verify event.toPqEvent
  else .ok (refused event .badSignature)

end Verdicts

/-! ## The loop over the keys -/

def textsOf (alg : Units) (tags : List (List Units)) : List Units :=
  (tags.filter fun tag => tag[1]?.getD [] = alg).map fun tag => tag[2]?.getD []

def keyOf (expected : Nat) (text : Units) : Option Bytes :=
  (fromBase64 text).filter fun bytes => bytes.length = expected

def keyed (expected : Nat) (texts : List Units) : List (Units × Bytes) :=
  texts.filterMap fun text => (keyOf expected text).map fun key => (text, key)

theorem expectedBytesFor_KEM : expectedBytesFor ALG_KEM = some KEM_PUBLIC_KEY_BYTES := if_pos rfl

theorem DSA_ne_KEM : ALG_DSA ≠ ALG_KEM := by decide

theorem expectedBytesFor_DSA : expectedBytesFor ALG_DSA = some DSA_PUBLIC_KEY_BYTES := by
  rw [expectedBytesFor, if_neg DSA_ne_KEM, if_pos rfl]

variable {expected : Nat} {text : Units} {key : Bytes}

theorem keyOf_some :
    keyOf expected text = some key ↔ fromBase64 text = some key ∧ key.length = expected := by
  simp [keyOf, Option.filter_eq_some_iff]

theorem textsOf_append (alg : Units) (tags : List (List Units)) (tag : List Units) :
    textsOf alg (tags ++ [tag]) =
      textsOf alg tags ++ if tag[1]?.getD [] = alg then [tag[2]?.getD []] else [] := by
  rw [textsOf, List.filter_append, List.map_append]
  congr 1
  by_cases same : tag[1]?.getD [] = alg <;> simp [same]

variable (texts : List Units)

theorem keyed_key (isKey : keyOf expected text = some key) :
    (keyed expected (texts ++ [text])).getLast? = some (text, key) := by
  rw [keyed, List.filterMap_append, List.filterMap_cons, isKey]
  exact List.getLast?_concat ..

theorem keyed_none (isNone : keyOf expected text = none) :
    keyed expected (texts ++ [text]) = keyed expected texts := by
  rw [keyed, List.filterMap_append, List.filterMap_cons, isNone]
  exact List.append_nil _

theorem all_key (isKey : keyOf expected text = some key) :
    (∀ other ∈ texts ++ [text], (keyOf expected other).isSome = true) ↔
      ∀ other ∈ texts, (keyOf expected other).isSome = true := by
  simp only [List.mem_append, List.mem_singleton, or_imp, forall_and, forall_eq, isKey,
    Option.isSome_some, and_true]

theorem not_all_none (isNone : keyOf expected text = none) :
    ¬ ∀ other ∈ texts ++ [text], (keyOf expected other).isSome = true := by
  intro every
  have some_ := every text (List.mem_append_right _ List.mem_cons_self)
  rw [isNone] at some_
  contradiction

/-- One tag: a key of the right length replaces the one before it, any other known one is a
problem. -/
theorem readAlg_known {found : Found} {tag : List Units} {alg : Units} {expected : Nat}
    (same : tag[1]?.getD [] = alg) (known : expectedBytesFor alg = some expected) :
    (∃ key, keyOf expected (tag[2]?.getD []) = some key ∧
      readAlg found tag = if alg = ALG_KEM then { found with kem := some (tag[2]?.getD [], key) }
        else { found with dsa := some (tag[2]?.getD [], key) }) ∨
    keyOf expected (tag[2]?.getD []) = none ∧
      ∃ problem, readAlg found tag = { found with problems := found.problems ++ [problem] } := by
  unfold readAlg
  dsimp only
  rw [same, known]
  dsimp only
  cases decoded : fromBase64 (tag[2]?.getD []) with
  | none => exact .inr ⟨by rw [keyOf, decoded]; rfl, _, rfl⟩
  | some bytes =>
    dsimp only
    by_cases whole : bytes.length = expected
    · rw [if_neg (fun differ => differ whole)]
      exact .inl ⟨bytes, keyOf_some.mpr ⟨decoded, whole⟩, rfl⟩
    · rw [if_pos whole]
      refine .inr ⟨?_, _, rfl⟩
      rw [keyOf, decoded]
      simp [whole]

theorem readAlg_unknown {found : Found} {tag : List Units}
    (unknown : expectedBytesFor (tag[1]?.getD []) = none) : readAlg found tag = found := by
  unfold readAlg
  dsimp only
  rw [unknown]

/-- What the loop finds: the last key of each algorithm, and a problem with each text that holds
none. -/
structure Found.Describes (found : Found) (tags : List (List Units)) : Prop where
  kem : found.kem = (keyed KEM_PUBLIC_KEY_BYTES (textsOf ALG_KEM tags)).getLast?
  dsa : found.dsa = (keyed DSA_PUBLIC_KEY_BYTES (textsOf ALG_DSA tags)).getLast?
  problems : found.problems = [] ↔
    (∀ text ∈ textsOf ALG_KEM tags, (keyOf KEM_PUBLIC_KEY_BYTES text).isSome = true) ∧
      ∀ text ∈ textsOf ALG_DSA tags, (keyOf DSA_PUBLIC_KEY_BYTES text).isSome = true

theorem Found.Describes.readAlg {found : Found} {tags : List (List Units)} (found_ : found.Describes tags)
    (tag : List Units) : (Pq.readAlg found tag).Describes (tags ++ [tag]) := by
  obtain ⟨kem, dsa, problems⟩ := found_
  by_cases isKem : tag[1]?.getD [] = ALG_KEM
  · have others : textsOf ALG_DSA (tags ++ [tag]) = textsOf ALG_DSA tags := by
      rw [textsOf_append, isKem, if_neg DSA_ne_KEM.symm, List.append_nil]
    have texts : textsOf ALG_KEM (tags ++ [tag]) = textsOf ALG_KEM tags ++ [tag[2]?.getD []] := by
      rw [textsOf_append, if_pos isKem]
    rcases @readAlg_known found tag _ _ isKem expectedBytesFor_KEM with
      ⟨key, isKey, step⟩ | ⟨isNone, problem, step⟩
    · rw [if_pos rfl] at step
      rw [step]
      exact ⟨by rw [texts, keyed_key _ isKey], by rw [others]; exact dsa,
        by rw [others, texts, all_key _ isKey]; exact problems⟩
    · rw [step]
      refine ⟨by rw [texts, keyed_none _ isNone]; exact kem, by rw [others]; exact dsa, ?_⟩
      rw [texts]
      exact iff_of_false (by simp) fun every => not_all_none _ isNone every.1
  · by_cases isDsa : tag[1]?.getD [] = ALG_DSA
    · have others : textsOf ALG_KEM (tags ++ [tag]) = textsOf ALG_KEM tags := by
        rw [textsOf_append, if_neg isKem, List.append_nil]
      have texts : textsOf ALG_DSA (tags ++ [tag]) = textsOf ALG_DSA tags ++ [tag[2]?.getD []] := by
        rw [textsOf_append, if_pos isDsa]
      rcases @readAlg_known found tag _ _ isDsa expectedBytesFor_DSA with
        ⟨key, isKey, step⟩ | ⟨isNone, problem, step⟩
      · rw [if_neg DSA_ne_KEM] at step
        rw [step]
        exact ⟨by rw [others]; exact kem, by rw [texts, keyed_key _ isKey],
          by rw [others, texts, all_key _ isKey]; exact problems⟩
      · rw [step]
        refine ⟨by rw [others]; exact kem, by rw [texts, keyed_none _ isNone]; exact dsa, ?_⟩
        rw [texts]
        exact iff_of_false (by simp) fun every => not_all_none _ isNone every.2
    · have unknown : expectedBytesFor (tag[1]?.getD []) = none := by
        rw [expectedBytesFor, if_neg isKem, if_neg isDsa]
      rw [readAlg_unknown unknown]
      have kems : textsOf ALG_KEM (tags ++ [tag]) = textsOf ALG_KEM tags := by
        rw [textsOf_append, if_neg isKem, List.append_nil]
      have dsas : textsOf ALG_DSA (tags ++ [tag]) = textsOf ALG_DSA tags := by
        rw [textsOf_append, if_neg isDsa, List.append_nil]
      exact ⟨by rw [kems]; exact kem, by rw [dsas]; exact dsa, by rw [kems, dsas]; exact problems⟩

theorem describes_foldl (tags : List (List Units)) : (tags.foldl readAlg {}).Describes tags := by
  induction tags using List.reverseRecOn with
  | nil => exact ⟨rfl, rfl, by simp [textsOf]⟩
  | append_singleton tags tag ih =>
    rw [List.foldl_append]
    exact ih.readAlg tag

/-! ## The verdict -/

def offers (event : PqEvent) (alg : Units) : List Units := textsOf alg (event.tags.filter (isLongTag "alg"))

def lastKey (event : PqEvent) (alg : Units) (expected : Nat) : Option (Units × Bytes) :=
  (keyed expected (offers event alg)).getLast?

/-- The text of the proof of possession. -/
def popTextOf (event : PqEvent) : Option Units :=
  (event.tags.find? (isLongTag "pop")).map fun tag => tag[2]?.getD []

def Seeded (event : PqEvent) : Prop :=
  originOf (first event "origin") = some .derived →
    first event "seed_strength" = some (Units.ofString "256")

def Verified (verify : Bytes → Bytes → Bytes → Option Bool) (event : PqEvent) : Prop :=
  ∃ popText signature kem dsa, popTextOf event = some popText ∧ fromBase64 popText = some signature ∧
    lastKey event ALG_KEM KEM_PUBLIC_KEY_BYTES = some kem ∧
    lastKey event ALG_DSA DSA_PUBLIC_KEY_BYTES = some dsa ∧
    verifyPop verify signature (popMessage event.pubkey kem.1 dsa.1) dsa.2 = true

/-- Nothing that is checked is wrong. -/
structure Flawless (verify : Bytes → Bytes → Bytes → Option Bool) (event : PqEvent) : Prop where
  kem : offers event ALG_KEM ≠ []
  kems : ∀ text ∈ offers event ALG_KEM, (keyOf KEM_PUBLIC_KEY_BYTES text).isSome = true
  dsas : ∀ text ∈ offers event ALG_DSA, (keyOf DSA_PUBLIC_KEY_BYTES text).isSome = true
  seeded : Seeded event
  proof : offers event ALG_DSA ≠ [] → Verified verify event

/-- A proof that is looked at is base64. -/
def Readable (event : PqEvent) : Prop :=
  (∃ text ∈ offers event ALG_KEM, (keyOf KEM_PUBLIC_KEY_BYTES text).isSome = true) →
    (∃ text ∈ offers event ALG_DSA, (keyOf DSA_PUBLIC_KEY_BYTES text).isSome = true) →
      ∀ popText, popTextOf event = some popText → (fromBase64 popText).isSome = true

variable {verify : Bytes → Bytes → Bytes → Option Bool} {event : PqEvent} {verdict : PqAttestation}

theorem lastKey_isSome {alg : Units} :
    (lastKey event alg expected).isSome = true ↔
      ∃ text ∈ offers event alg, (keyOf expected text).isSome = true := by
  rw [lastKey, List.getLast?_isSome]
  constructor
  · intro filled
    obtain ⟨entry, among⟩ := List.exists_mem_of_ne_nil _ filled
    obtain ⟨text, offered, made⟩ := List.mem_filterMap.mp among
    obtain ⟨key, isKey, -⟩ := Option.map_eq_some_iff.mp made
    exact ⟨text, offered, by rw [isKey]; rfl⟩
  · rintro ⟨text, offered, isSome⟩
    obtain ⟨key, isKey⟩ := Option.isSome_iff_exists.mp isSome
    have among : (text, key) ∈ keyed expected (offers event alg) :=
      List.mem_filterMap.mpr ⟨text, offered, by rw [isKey]; rfl⟩
    exact List.ne_nil_of_mem among

theorem lastKey_some {alg : Units} (last : lastKey event alg expected = some (text, key)) :
    text ∈ offers event alg ∧ keyOf expected text = some key := by
  obtain ⟨text', offered, made⟩ := List.mem_filterMap.mp (List.mem_of_getLast? last)
  obtain ⟨key', isKey, pair⟩ := Option.map_eq_some_iff.mp made
  cases pair
  exact ⟨offered, isKey⟩

theorem seedProblems_nil : seedProblems (originOf (first event "origin")) (first event "seed_strength") = [] ↔
    Seeded event := by
  unfold seedProblems Seeded
  by_cases derived : originOf (first event "origin") = some .derived
  · rw [if_pos derived]
    cases first event "seed_strength" with
    | none => simp [derived]
    | some bits =>
      dsimp only
      by_cases strong : bits = Units.ofString "256" <;> simp [derived, strong]
  · rw [if_neg derived]
    simp [derived]

theorem checkPop_spec {pubkey : Units} {found : Found} {popTag : Option (List Units)} :
    ((∃ result, checkPop verify pubkey found popTag = .ok result) ↔
      (found.kem.isSome = true → found.dsa.isSome = true → ∀ tag, popTag = some tag →
        (fromBase64 (tag[2]?.getD [])).isSome = true)) ∧
    ∀ result, checkPop verify pubkey found popTag = .ok result → ∀ kem, found.kem = some kem →
      (result.2 = [] ↔ ∀ dsa, found.dsa = some dsa → ∃ tag signature, popTag = some tag ∧
        fromBase64 (tag[2]?.getD []) = some signature ∧
        verifyPop verify signature (popMessage pubkey kem.1 dsa.1) dsa.2 = true) := by
  obtain ⟨kem, dsa, problems⟩ := found
  unfold checkPop
  dsimp only
  cases dsa with
  | none => simp
  | some dsa =>
    cases popTag with
    | none => simp
    | some tag =>
      cases kem with
      | none => simp
      | some kem =>
        dsimp only
        cases decoded : fromBase64 (tag[2]?.getD []) with
        | none => simp [decoded]
        | some signature =>
          dsimp only
          cases verified : verifyPop verify signature (popMessage pubkey kem.1 dsa.1) dsa.2 <;>
            simp [decoded, verified]

theorem parseAttestation_returns :
    (∃ verdict, parseAttestation verify event = .ok verdict) ↔ Readable event := by
  obtain ⟨kem, dsa, -⟩ := describes_foldl (event.tags.filter (isLongTag "alg"))
  have returns := (@checkPop_spec verify event.pubkey
    ((event.tags.filter (isLongTag "alg")).foldl readAlg {}) (event.tags.find? (isLongTag "pop"))).1
  have same : (∃ verdict, parseAttestation verify event = .ok verdict) ↔
      ∃ result, checkPop verify event.pubkey ((event.tags.filter (isLongTag "alg")).foldl readAlg {})
        (event.tags.find? (isLongTag "pop")) = .ok result := by
    unfold parseAttestation
    dsimp only
    cases checkPop verify event.pubkey ((event.tags.filter (isLongTag "alg")).foldl readAlg {})
      (event.tags.find? (isLongTag "pop")) <;> simp
  rw [same, returns, kem, dsa]
  unfold Readable popTextOf
  rw [← lastKey_isSome, ← lastKey_isSome]
  refine ⟨fun readable kem dsa popText shown => ?_, fun readable kem dsa tag found => ?_⟩
  · obtain ⟨tag, found, rfl⟩ := Option.map_eq_some_iff.mp shown
    exact readable kem dsa tag found
  · exact readable kem dsa _ (by rw [found]; rfl)

theorem parseAttestation_ok (parsed : parseAttestation verify event = .ok verdict) :
    verdict.kem = (lastKey event ALG_KEM KEM_PUBLIC_KEY_BYTES).map Prod.snd ∧
      verdict.dsa = (lastKey event ALG_DSA DSA_PUBLIC_KEY_BYTES).map Prod.snd ∧
      (verdict.usable = true ↔ Flawless verify event) := by
  obtain ⟨kem, dsa, problems⟩ := describes_foldl (event.tags.filter (isLongTag "alg"))
  have pop := (@checkPop_spec verify event.pubkey
    ((event.tags.filter (isLongTag "alg")).foldl readAlg {}) (event.tags.find? (isLongTag "pop"))).2
  have kem_ : _ = lastKey event ALG_KEM KEM_PUBLIC_KEY_BYTES := kem
  have dsa_ : _ = lastKey event ALG_DSA DSA_PUBLIC_KEY_BYTES := dsa
  unfold parseAttestation at parsed
  dsimp only at parsed
  split at parsed
  · cases parsed
  · next popValid popProblems checked =>
    cases parsed
    refine ⟨by rw [kem_], by rw [dsa_], ?_⟩
    have proof := pop _ checked
    rw [kem_, dsa_] at proof
    rw [kem_]
    simp only [Bool.and_eq_true, List.isEmpty_iff, List.append_eq_nil_iff]
    constructor
    · rintro ⟨found, ⟨⟨⟨whole, -⟩, -⟩, seed⟩, shown⟩
      obtain ⟨key, isKey⟩ := Option.isSome_iff_exists.mp found
      obtain ⟨kems, dsas⟩ := problems.mp whole
      refine ⟨List.ne_nil_of_mem (lastKey_some isKey).1, kems, dsas, seedProblems_nil.mp seed, ?_⟩
      intro signs
      obtain ⟨text, offered⟩ := List.exists_mem_of_ne_nil _ signs
      obtain ⟨signing, isSigning⟩ := Option.isSome_iff_exists.mp
        (lastKey_isSome.mpr ⟨text, offered, dsas text offered⟩)
      obtain ⟨tag, signature, at_, decoded, verified⟩ := (proof key isKey).mp shown signing isSigning
      exact ⟨_, signature, key, signing, by rw [popTextOf, at_]; rfl, decoded, isKey, isSigning, verified⟩
    · rintro ⟨filled, kems, dsas, seeded, verified⟩
      obtain ⟨text, offered⟩ := List.exists_mem_of_ne_nil _ filled
      have found := lastKey_isSome.mpr ⟨text, offered, kems text offered⟩
      obtain ⟨key, isKey⟩ := Option.isSome_iff_exists.mp found
      refine ⟨found, ⟨⟨⟨problems.mpr ⟨kems, dsas⟩, ?_⟩, ?_⟩, seedProblems_nil.mpr seeded⟩, ?_⟩
      · rw [if_neg]
        intro none
        rw [offers, none] at filled
        exact filled rfl
      · rw [isKey]
        rfl
      · refine (proof key isKey).mpr ?_
        intro signing isSigning
        obtain ⟨popText, signature, kem', dsa', shown, decoded, isKem, isDsa, holds⟩ :=
          verified (List.ne_nil_of_mem (lastKey_some isSigning).1)
        obtain ⟨tag, at_, rfl⟩ := Option.map_eq_some_iff.mp shown
        rw [isKey] at isKem
        rw [isSigning] at isDsa
        cases isKem
        cases isDsa
        exact ⟨tag, signature, at_, decoded, holds⟩

/-! ## What a usable verdict rests on -/

structure Proof (verify : Bytes → Bytes → Bytes → Option Bool) (event : PqEvent)
    (verdict : PqAttestation) where
  popText : Units
  signature : Bytes
  kemText : Units
  kem : Bytes
  dsaText : Units
  dsa : Bytes
  shown : popTextOf event = some popText
  decoded : fromBase64 popText = some signature
  isKem : keyOf KEM_PUBLIC_KEY_BYTES kemText = some kem
  isDsa : keyOf DSA_PUBLIC_KEY_BYTES dsaText = some dsa
  verified : verifyPop verify signature (popMessage event.pubkey kemText dsaText) dsa = true
  reported : verdict.kem = some kem ∧ verdict.dsa = some dsa

def Proof.CoversAll (proof : Proof verify event verdict) : Prop :=
  (∀ text ∈ offers event ALG_KEM, keyOf KEM_PUBLIC_KEY_BYTES text = some proof.kem) ∧
    ∀ text ∈ offers event ALG_DSA, keyOf DSA_PUBLIC_KEY_BYTES text = some proof.dsa

/-- No two tags of an algorithm offer different keys. -/
def Single (event : PqEvent) : Prop :=
  (∀ text ∈ offers event ALG_KEM, ∀ other ∈ offers event ALG_KEM, fromBase64 text = fromBase64 other) ∧
    ∀ text ∈ offers event ALG_DSA, ∀ other ∈ offers event ALG_DSA, fromBase64 text = fromBase64 other

theorem keyOf_congr {other : Units} (same : fromBase64 text = fromBase64 other) :
    keyOf expected text = keyOf expected other := by
  rw [keyOf, keyOf, same]

theorem Flawless.proof_of (flawless : Flawless verify event) (signs : offers event ALG_DSA ≠ [])
    (parsed : parseAttestation verify event = .ok verdict) :
    ∃ proof : Proof verify event verdict, Single event → proof.CoversAll := by
  obtain ⟨kem_, dsa_, -⟩ := parseAttestation_ok parsed
  obtain ⟨popText, signature, ⟨kemText, kem⟩, ⟨dsaText, dsa⟩, shown, decoded, lastKem, lastDsa, verified⟩ :=
    flawless.proof signs
  obtain ⟨offered, isKem⟩ := lastKey_some lastKem
  obtain ⟨offered', isDsa⟩ := lastKey_some lastDsa
  refine ⟨⟨popText, signature, kemText, kem, dsaText, dsa, shown, decoded, isKem, isDsa, verified,
    by rw [kem_, lastKem]; rfl, by rw [dsa_, lastDsa]; rfl⟩, ?_⟩
  rintro ⟨kems, dsas⟩
  exact ⟨fun text among => (keyOf_congr (kems text among kemText offered)).trans isKem,
    fun text among => (keyOf_congr (dsas text among dsaText offered')).trans isDsa⟩

theorem Proof.signs (proof : Proof verify event verdict)
    (parsed : parseAttestation verify event = .ok verdict) : offers event ALG_DSA ≠ [] := by
  obtain ⟨-, dsa_, -⟩ := parseAttestation_ok parsed
  rw [proof.reported.2] at dsa_
  obtain ⟨⟨text, key⟩, last, -⟩ := Option.map_eq_some_iff.mp dsa_.symm
  exact List.ne_nil_of_mem (lastKey_some last).1

theorem Proof.CoversAll.single {proof : Proof verify event verdict} (covers : proof.CoversAll) :
    Single event := by
  refine ⟨fun text among other among' => ?_, fun text among other among' => ?_⟩
  · rw [(keyOf_some.mp (covers.1 text among)).1, (keyOf_some.mp (covers.1 other among')).1]
  · rw [(keyOf_some.mp (covers.2 text among)).1, (keyOf_some.mp (covers.2 other among')).1]

/-- A verdict is given and rests on a proof over all keys exactly when a proof that is looked at is
base64, and a flawless event offers a signing key and one key of each algorithm.  For the keys
reported alone the last does not matter. -/
theorem verdicts_proven (verify : Bytes → Bytes → Bytes → Option Bool) :
    (∀ event, ((∃ verdict, parseAttestation verify event = .ok verdict) ∧
        ∀ verdict, parseAttestation verify event = .ok verdict → verdict.usable = true →
          ∃ proof : Proof verify event verdict, proof.CoversAll) ↔
      Readable event ∧ (Flawless verify event → offers event ALG_DSA ≠ [] ∧ Single event)) ∧
    (∀ event, ((∃ verdict, parseAttestation verify event = .ok verdict) ∧
        ∀ verdict, parseAttestation verify event = .ok verdict → verdict.usable = true →
          Nonempty (Proof verify event verdict)) ↔
      Readable event ∧ (Flawless verify event → offers event ALG_DSA ≠ [])) ∧
    ∀ (verifyEvent : PqSignedEvent → Option Bool) (event : PqSignedEvent) (verdict : PqAttestation),
      verifyAttestation verify verifyEvent event = .ok verdict → verdict.usable = true →
        event.kind = PQC_KIND ∧ verifyEvent event = some true ∧
          parseAttestation verify event.toPqEvent = .ok verdict := by
  refine ⟨fun event => ?_, fun event => ?_, fun verifyEvent event verdict checked usable => ?_⟩
  · rw [parseAttestation_returns]
    constructor
    · rintro ⟨readable, proven⟩
      refine ⟨readable, fun flawless => ?_⟩
      obtain ⟨verdict, parsed⟩ := parseAttestation_returns.mpr readable
      obtain ⟨proof, covers⟩ := proven verdict parsed ((parseAttestation_ok parsed).2.2.mpr flawless)
      exact ⟨proof.signs parsed, covers.single⟩
    · rintro ⟨readable, whole⟩
      refine ⟨readable, fun verdict parsed usable => ?_⟩
      have flawless := (parseAttestation_ok parsed).2.2.mp usable
      obtain ⟨signs, single⟩ := whole flawless
      obtain ⟨proof, covers⟩ := flawless.proof_of signs parsed
      exact ⟨proof, covers single⟩
  · rw [parseAttestation_returns]
    constructor
    · rintro ⟨readable, proven⟩
      refine ⟨readable, fun flawless => ?_⟩
      obtain ⟨verdict, parsed⟩ := parseAttestation_returns.mpr readable
      obtain ⟨proof⟩ := proven verdict parsed ((parseAttestation_ok parsed).2.2.mpr flawless)
      exact proof.signs parsed
    · rintro ⟨readable, whole⟩
      refine ⟨readable, fun verdict parsed usable => ?_⟩
      have flawless := (parseAttestation_ok parsed).2.2.mp usable
      obtain ⟨proof, -⟩ := flawless.proof_of (whole flawless) parsed
      exact ⟨proof⟩
  · unfold verifyAttestation at checked
    split at checked
    · cases checked
      cases usable
    · next kind =>
      split at checked
      · next valid =>
        refine ⟨not_not.mp kind, ?_, checked⟩
        cases verdict_ : verifyEvent event with
        | none =>
          rw [verdict_] at valid
          contradiction
        | some value =>
          rw [verdict_] at valid
          exact congrArg some valid
      · cases checked
        cases usable

/-! ### An unproven key, and a proof that is not base64 -/

def zeros (size : Nat) : Units := (Base64.btoa (List.replicate size 0)).flatMap Units.ofChar

theorem keyOf_zeros (size : Nat) : keyOf size (zeros size) = some (List.replicate size 0) := by
  rw [keyOf_some, fromBase64, zeros, Units.scalars_ofChars, Base64.atob_btoa]
  exact ⟨rfl, List.length_replicate⟩

def kemOnly : PqEvent where
  pubkey := []
  kind := PQC_KIND
  tags := [[Units.ofString "alg", ALG_KEM, zeros KEM_PUBLIC_KEY_BYTES]]

def garbled : PqEvent where
  pubkey := []
  kind := PQC_KIND
  tags := [[Units.ofString "alg", ALG_KEM, zeros KEM_PUBLIC_KEY_BYTES],
    [Units.ofString "alg", ALG_DSA, zeros DSA_PUBLIC_KEY_BYTES],
    [Units.ofString "pop", ALG_DSA, Units.ofString "!"]]

theorem kemOnly_flawless : Flawless (fun _ _ _ => some true) kemOnly := by
  have offered : offers kemOnly ALG_KEM = [zeros KEM_PUBLIC_KEY_BYTES] := rfl
  have none : offers kemOnly ALG_DSA = [] := rfl
  refine ⟨?_, ?_, ?_, ?_, ?_⟩
  · rw [offered]
    exact List.cons_ne_nil _ _
  · rw [offered]
    intro text among
    rw [List.mem_singleton.mp among, keyOf_zeros]
    rfl
  · rw [none]
    exact fun _ among => absurd among List.not_mem_nil
  · intro derived
    cases derived
  · exact fun signs => absurd none signs

theorem attestations_unproven :
    (∃ verdict, parseAttestation (fun _ _ _ => some true) kemOnly = .ok verdict ∧ verdict.usable = true ∧
      ¬ Nonempty (Proof (fun _ _ _ => some true) kemOnly verdict)) ∧
    ¬ ∃ verdict, parseAttestation (fun _ _ _ => some true) garbled = .ok verdict := by
  constructor
  · have readable : Readable kemOnly := by
      rintro - - popText shown
      cases shown
    obtain ⟨verdict, parsed⟩ := (@parseAttestation_returns (fun _ _ _ => some true) _).mpr readable
    refine ⟨verdict, parsed, (parseAttestation_ok parsed).2.2.mpr kemOnly_flawless, ?_⟩
    rintro ⟨proof⟩
    exact proof.signs parsed rfl
  · rw [parseAttestation_returns]
    intro readable
    have garbage := readable
      ⟨zeros KEM_PUBLIC_KEY_BYTES, List.mem_singleton_self _, by rw [keyOf_zeros]; rfl⟩
      ⟨zeros DSA_PUBLIC_KEY_BYTES, List.mem_singleton_self _, by rw [keyOf_zeros]; rfl⟩
      (Units.ofString "!") rfl
    exact absurd garbage (by decide)

end NostrWot.Pq
