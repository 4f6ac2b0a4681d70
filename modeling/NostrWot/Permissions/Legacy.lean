import NostrWot.Permissions.Rules

namespace NostrWot.Permissions

open NostrWot.Data

/-! # Migrating the trees of older versions

The rules of an origin were once flat and the buckets came later; `migrate` runs four passes over
whatever is stored.
-/

/-- A stored value; `forward` is retired. -/
inductive LegacyDecision where
  | allow
  | ask
  | deny
  | forward
  deriving DecidableEq

abbrev LegacyBucket : Type := Record LegacyDecision

/-- What stands under a name of an origin. -/
inductive LegacyEntry where
  | rule (value : LegacyDecision)
  | bucket (rules : LegacyBucket)

abbrev LegacyOrigin : Type := Record LegacyEntry

abbrev LegacyTree : Type := Record LegacyOrigin

def BLANKET_KEYS : List String :=
  ["signEvent", "nip04Encrypt", "nip04Decrypt", "nip44Encrypt", "nip44Decrypt", "*"]

def DM_KEYS : List String := DM_SIGN_KINDS.map signEventKey

def LegacyEntry.isRule : LegacyEntry → Bool
  | .rule _ => true
  | .bucket _ => false

def LegacyEntry.rule? : LegacyEntry → Option LegacyDecision
  | .rule value => some value
  | .bucket _ => none

def LegacyEntry.bucket? : LegacyEntry → Option LegacyBucket
  | .rule _ => none
  | .bucket rules => some rules

def isBlanketGrant (key : String) (value : LegacyDecision) : Bool :=
  key ∈ BLANKET_KEYS && value ≠ .deny

def hasDefaultBucket (target : LegacyOrigin) : Bool := (target.lookup DEFAULT_BUCKET).isSome

/-! ## The passes -/

def dropGrants (rules : LegacyBucket) : LegacyBucket :=
  rules.filterMap fun key value => if isBlanketGrant key value then none else some value

def holdsGrant (rules : LegacyBucket) : Bool :=
  rules.entries.any fun rule => isBlanketGrant rule.1 rule.2

/-- What is left of an entry of an origin that has a `_default` bucket. -/
def perKindEntry (_ : String) : LegacyEntry → Option LegacyEntry
  | .rule value => some (.rule value)
  | .bucket rules => if (dropGrants rules).isEmpty then none else some (.bucket (dropGrants rules))

def perKindFlat (key : String) (entry : LegacyEntry) : Option LegacyEntry :=
  match entry with
  | .rule value => if isBlanketGrant key value then none else some entry
  | .bucket _ => if key ∈ BLANKET_KEYS then none else some entry

def perKindOrigin (target : LegacyOrigin) : Option LegacyOrigin :=
  let kept := target.filterMap (if hasDefaultBucket target then perKindEntry else perKindFlat)
  if kept.isEmpty then none else some kept

def perKindChanges (target : LegacyOrigin) : Bool :=
  target.entries.any fun entry =>
    match entry.2 with
    | .rule value => !hasDefaultBucket target && isBlanketGrant entry.1 value
    | .bucket rules => if hasDefaultBucket target then holdsGrant rules else entry.1 ∈ BLANKET_KEYS

def commitIf (changed : Bool) (perms draft : LegacyTree) : LegacyTree :=
  if changed then draft else perms

def migrateToPerKind (perms : LegacyTree) : LegacyTree :=
  commitIf (perms.entries.any fun origin => perKindChanges origin.2) perms
    (perms.filterMap fun _ target => perKindOrigin target)

def hasFlat (target : LegacyOrigin) : Bool :=
  !hasDefaultBucket target && target.entries.any fun entry => entry.2.isRule

def flatRules (target : LegacyOrigin) : LegacyBucket :=
  target.filterMap fun _ entry => entry.rule?

def perAccountOrigin (target : LegacyOrigin) : LegacyOrigin :=
  if hasFlat target then
    (target.filterMap fun _ entry => if entry.isRule then none else some entry).insert DEFAULT_BUCKET
      (.bucket (flatRules target))
  else target

def migrateToPerAccount (perms : LegacyTree) : LegacyTree :=
  commitIf (perms.entries.any fun origin => hasFlat origin.2) perms
    (perms.map fun _ target => perAccountOrigin target)

def LegacyEntry.edit (change : LegacyBucket → LegacyBucket) : LegacyEntry → LegacyEntry
  | .rule value => .rule value
  | .bucket rules => .bucket (change rules)

def editBuckets (change : LegacyBucket → LegacyBucket) (perms : LegacyTree) : LegacyTree :=
  perms.map fun _ target => target.map fun _ entry => entry.edit change

def anyBucket (test : LegacyBucket → Bool) (perms : LegacyTree) : Bool :=
  perms.entries.any fun origin => origin.2.entries.any fun entry => entry.2.bucket?.any test

def retire : LegacyDecision → LegacyDecision
  | .forward => .ask
  | value => value

def forwardToAsk (rules : LegacyBucket) : LegacyBucket := rules.map fun _ value => retire value

def holdsForward (rules : LegacyBucket) : Bool := rules.entries.any fun rule => rule.2 = .forward

def migrateForwardToAsk (perms : LegacyTree) : LegacyTree :=
  commitIf (anyBucket holdsForward perms) perms (editBuckets forwardToAsk perms)

def legacyRestrictiveness : LegacyDecision → Nat
  | .allow => 1
  | .ask => 2
  | .deny => 3
  | .forward => 0

/-- The value that is kept of two, the first one on a tie. -/
def choose : Option LegacyDecision → Option LegacyDecision → Option LegacyDecision
  | chosen, none => chosen
  | none, some incoming => some incoming
  | some kept, some incoming =>
    if legacyRestrictiveness kept < legacyRestrictiveness incoming then some incoming else some kept

/-- What `sendMessages` and the keys of the direct message kinds come to. -/
def chosenOf (rule : String → Option LegacyDecision) : Option LegacyDecision :=
  DM_KEYS.foldl (fun chosen key => choose chosen (rule key)) (rule "sendMessages")

def foldDmKinds (rules : LegacyBucket) : LegacyBucket :=
  let rest := rules.filterMap fun key value => if key ∈ DM_KEYS then none else some value
  match chosenOf rules.lookup with
  | some value => rest.insert "sendMessages" value
  | none => rest

def holdsDmKind (rules : LegacyBucket) : Bool :=
  DM_KEYS.any fun key => (rules.lookup key).isSome

def migrateDmKindsToSendMessages (perms : LegacyTree) : LegacyTree :=
  commitIf (anyBucket holdsDmKind perms) perms (editBuckets foldDmKinds perms)

/-- The four passes in their order. -/
def runMigrations (perms : LegacyTree) : LegacyTree :=
  migrateDmKindsToSendMessages (migrateForwardToAsk (migrateToPerAccount (migrateToPerKind perms)))

def MIGRATION_VERSION : Nat := 4

/-- What `migrate` reads and writes. -/
structure LegacyStore where
  version : Option Nat
  /-- A journal of a later migration is in the store. -/
  pending : Bool
  tree : LegacyTree

def migrate (store : LegacyStore) : Except String LegacyStore :=
  if store.version = some MIGRATION_VERSION then .ok store
  else if store.pending then
    .error "Permission migration incomplete; retry migration before authorizing"
  else
    .ok { store with
      version := some MIGRATION_VERSION
      tree := runMigrations store.tree }

/-! ## Rules where they end up -/

/-- The origin's keys are those of its `_default` bucket. -/
def Flat (target : LegacyOrigin) : Prop :=
  target.lookup DEFAULT_BUCKET = none ∧
    ∀ name entry, target.lookup name = some entry → entry.isRule = true

def Bucketed (target : LegacyOrigin) : Prop :=
  ∀ name entry, target.lookup name = some entry → entry.isRule = false

def WellShaped (perms : LegacyTree) : Prop :=
  ∀ origin target, perms.lookup origin = some target → Flat target ∨ Bucketed target

/-- The rule of a bucket of an origin; the flat rules are those of `_default`. -/
def entryRule (target : LegacyOrigin) (bucket key : String) : Option LegacyDecision :=
  match target.lookup bucket with
  | some (.bucket rules) => rules.lookup key
  | some (.rule _) => none
  | none => if bucket = DEFAULT_BUCKET then (flatRules target).lookup key else none

def ruleOf (perms : LegacyTree) (origin bucket key : String) : Option LegacyDecision :=
  (perms.lookup origin).bind fun target => entryRule target bucket key

/-- An origin of buckets without a `_default` one. -/
def misread (target : LegacyOrigin) : Bool :=
  !hasDefaultBucket target && target.entries.all fun entry => !entry.2.isRule

/-- What `migrateToPerKind` deletes. -/
def dropped (target : LegacyOrigin) (bucket key : String) (value : LegacyDecision) : Bool :=
  if misread target then bucket ∈ BLANKET_KEYS else isBlanketGrant key value

def MostRestrictive (values : List LegacyDecision) : Option LegacyDecision → Prop
  | none => values = []
  | some value =>
    value ∈ values ∧
      ∀ other ∈ values, legacyRestrictiveness other ≤ legacyRestrictiveness value

structure Migrated (before after : LegacyTree) : Prop where
  buckets : ∀ origin target, after.lookup origin = some target → Bucketed target
  /-- Only the refusals stay under a blanket key. -/
  blanket : ∀ origin bucket, ∀ key ∈ BLANKET_KEYS,
    ruleOf after origin bucket key = (ruleOf before origin bucket key).filter (· = .deny)
  direct : ∀ origin bucket, ∀ key ∈ DM_KEYS, ruleOf after origin bucket key = none
  current : ∀ origin bucket key, ruleOf after origin bucket key ≠ some .forward
  messages : ∀ origin bucket,
    MostRestrictive
      ((("sendMessages" :: DM_KEYS).filterMap (ruleOf before origin bucket)).map retire)
      (ruleOf after origin bucket "sendMessages")
  denies : ∀ origin bucket key, ruleOf before origin bucket key = some .deny →
    ruleOf after origin bucket key = some .deny ∨
      key ∈ DM_KEYS ∧ ruleOf after origin bucket "sendMessages" = some .deny
  others : ∀ origin bucket key, key ∉ BLANKET_KEYS → key ∉ DM_KEYS → key ≠ "sendMessages" →
    ruleOf after origin bucket key = (ruleOf before origin bucket key).map retire

section Passes

variable {perms : LegacyTree} {target : LegacyOrigin} {origin bucket key : String}
  {value : LegacyDecision} {rules : LegacyBucket}

theorem lookup_flatRules :
    (flatRules target).lookup key = (target.lookup key).bind LegacyEntry.rule? := by
  rw [flatRules, Record.lookup_filterMap]

theorem Bucketed.no_flat (bucketed : Bucketed target) : (flatRules target).lookup key = none := by
  rw [lookup_flatRules]
  cases found : target.lookup key with
  | none => rfl
  | some entry =>
    have bucket := bucketed key entry found
    cases entry with
    | rule value => contradiction
    | bucket rules => rfl

theorem Bucketed.rule_eq (bucketed : Bucketed target) :
    entryRule target bucket key =
      (target.lookup bucket).bind fun entry => entry.bucket?.bind fun rules => rules.lookup key := by
  unfold entryRule
  cases found : target.lookup bucket with
  | none => simp [bucketed.no_flat]
  | some entry => cases entry <;> rfl

theorem Flat.rule_eq (flat : Flat target) :
    entryRule target bucket key =
      if bucket = DEFAULT_BUCKET then (flatRules target).lookup key else none := by
  unfold entryRule
  cases found : target.lookup bucket with
  | none => rfl
  | some entry =>
    have rule := flat.2 bucket entry found
    have other : bucket ≠ DEFAULT_BUCKET := by
      rintro rfl
      rw [flat.1] at found
      contradiction
    cases entry with
    | rule value => simp [other]
    | bucket rules => contradiction

theorem entryRule_of_isEmpty (empty : target.isEmpty) : entryRule target bucket key = none := by
  have bucketed : Bucketed target := by
    intro name entry found
    rw [Record.lookup_of_isEmpty empty] at found
    contradiction
  rw [bucketed.rule_eq, Record.lookup_of_isEmpty empty]
  rfl

theorem lookup_dropGrants : (dropGrants rules).lookup key =
    (rules.lookup key).filter fun value => !isBlanketGrant key value := by
  rw [dropGrants, Record.lookup_filterMap]
  cases rules.lookup key with
  | none => rfl
  | some value =>
    rw [Option.bind_some, Option.filter_some]
    cases isBlanketGrant key value <;> rfl

theorem Bucketed.misread_eq (bucketed : Bucketed target) :
    misread target = !hasDefaultBucket target := by
  have all : (target.entries.all fun entry => !entry.2.isRule) = true := by
    refine List.all_eq_true.mpr fun entry member => ?_
    rw [bucketed entry.1 entry.2 (Record.mem_entries_iff.mp member)]
    rfl
  rw [misread, all, Bool.and_true]

theorem entryRule_perKindOrigin :
    ((perKindOrigin target).bind fun target => entryRule target bucket key) =
      entryRule (target.filterMap (if hasDefaultBucket target then perKindEntry else perKindFlat))
        bucket key := by
  unfold perKindOrigin
  dsimp only
  generalize target.filterMap (if hasDefaultBucket target then perKindEntry else perKindFlat) = kept
  split
  · next empty => rw [entryRule_of_isEmpty empty, Option.bind_none]
  · rfl

theorem Bucketed.kept (bucketed : Bucketed target) :
    Bucketed (target.filterMap (if hasDefaultBucket target then perKindEntry else perKindFlat)) := by
  intro name entry found
  rw [Record.lookup_filterMap] at found
  obtain ⟨before, stored, left⟩ := Option.bind_eq_some_iff.mp found
  have bucket := bucketed name before stored
  cases before with
  | rule value => contradiction
  | bucket rules =>
    split at left
    all_goals
      simp only [perKindEntry, perKindFlat] at left
      split at left
      · contradiction
      · cases left
        rfl

theorem Flat.plain (flat : Flat target) : hasDefaultBucket target = false := by
  rw [hasDefaultBucket, flat.1]
  rfl

theorem Flat.kept (flat : Flat target) :
    Flat (target.filterMap (if hasDefaultBucket target then perKindEntry else perKindFlat)) := by
  rw [flat.plain, if_neg Bool.false_ne_true]
  refine ⟨by rw [Record.lookup_filterMap, flat.1]; rfl, fun name entry found => ?_⟩
  rw [Record.lookup_filterMap] at found
  obtain ⟨before, stored, left⟩ := Option.bind_eq_some_iff.mp found
  have rule := flat.2 name before stored
  cases before with
  | bucket rules => contradiction
  | rule value =>
    simp only [perKindFlat] at left
    split at left
    · contradiction
    · cases left
      rfl

theorem Bucketed.perKind (bucketed : Bucketed target) :
    entryRule (target.filterMap (if hasDefaultBucket target then perKindEntry else perKindFlat))
        bucket key =
      (entryRule target bucket key).filter fun value => !dropped target bucket key value := by
  unfold dropped
  rw [bucketed.kept.rule_eq, bucketed.rule_eq, Record.lookup_filterMap, bucketed.misread_eq]
  cases found : target.lookup bucket with
  | none => rfl
  | some entry =>
    have isBucket := bucketed bucket entry found
    cases entry with
    | rule value => contradiction
    | bucket rules =>
      cases hasDefaultBucket target with
      | true =>
        simp only [if_true, Option.bind_some, perKindEntry, Bool.not_true, Bool.false_eq_true,
          if_false, LegacyEntry.bucket?]
        rw [← lookup_dropGrants]
        split
        · next empty => rw [Record.lookup_of_isEmpty empty, Option.bind_none]
        · rfl
      | false =>
        simp only [Bool.false_eq_true, if_false, Option.bind_some, perKindFlat, Bool.not_false,
          if_true, LegacyEntry.bucket?]
        by_cases blanket : bucket ∈ BLANKET_KEYS
        · cases rules.lookup key <;> simp [blanket, Option.filter_some]
        · cases held : rules.lookup key <;> simp [blanket, held, Option.filter_some]

theorem Flat.perKind (flat : Flat target) :
    entryRule (target.filterMap (if hasDefaultBucket target then perKindEntry else perKindFlat))
        bucket key =
      (entryRule target bucket key).filter fun value => !dropped target bucket key value := by
  rw [flat.kept.rule_eq, flat.rule_eq, flat.plain, if_neg Bool.false_ne_true, lookup_flatRules,
    lookup_flatRules, Record.lookup_filterMap]
  split
  · cases found : target.lookup key with
    | none => rfl
    | some entry =>
      have rule := flat.2 key entry found
      cases entry with
      | bucket rules => contradiction
      | rule value =>
        have read : misread target = false := by
          unfold misread
          rw [Bool.and_eq_false_iff]
          refine .inr (List.all_eq_false.mpr ⟨_, Record.mem_entries_iff.mpr found, ?_⟩)
          simp [LegacyEntry.isRule]
        simp only [Option.bind_some, perKindFlat, dropped, read, Bool.false_eq_true, if_false,
          Option.filter_some, LegacyEntry.rule?]
        cases isBlanketGrant key value <;> rfl
  · rfl

theorem not_dropped_of_unchanged (shape : Flat target ∨ Bucketed target)
    (unchanged : perKindChanges target = false)
    (stored : entryRule target bucket key = some value) :
    dropped target bucket key value = false := by
  have quiet : ∀ name entry, target.lookup name = some entry → _ :=
    fun name entry found => List.any_eq_false.mp unchanged ⟨name, entry⟩
      (Record.mem_entries_iff.mpr found)
  rcases shape with flat | bucketed
  · rw [flat.rule_eq] at stored
    split at stored
    · rw [lookup_flatRules] at stored
      obtain ⟨entry, found, held⟩ := Option.bind_eq_some_iff.mp stored
      cases entry with
      | bucket rules => contradiction
      | rule other =>
        cases held
        have kept := quiet key _ found
        have read : misread target = false := by
          rw [misread, Bool.and_eq_false_iff]
          exact .inr (List.all_eq_false.mpr ⟨_, Record.mem_entries_iff.mpr found, by
            simp [LegacyEntry.isRule]⟩)
        simpa [dropped, read, flat.plain] using kept
    · contradiction
  · rw [bucketed.rule_eq] at stored
    obtain ⟨entry, found, held⟩ := Option.bind_eq_some_iff.mp stored
    cases entry with
    | rule other => contradiction
    | bucket rules =>
      have kept := quiet bucket _ found
      rw [dropped, bucketed.misread_eq]
      cases plain : hasDefaultBucket target with
      | false => simpa [plain] using kept
      | true =>
        have none : holdsGrant rules = false := by simpa [plain] using kept
        simpa using List.any_eq_false.mp none ⟨key, value⟩ (Record.mem_entries_iff.mpr held)

/-- The rules `migrateToPerKind` leaves. -/
def keptRule (perms : LegacyTree) (origin bucket key : String) : Option LegacyDecision :=
  (perms.lookup origin).bind fun target =>
    (entryRule target bucket key).filter fun value => !dropped target bucket key value

theorem ruleOf_migrateToPerKind (shaped : WellShaped perms) :
    ruleOf (migrateToPerKind perms) origin bucket key = keptRule perms origin bucket key := by
  unfold migrateToPerKind commitIf ruleOf keptRule
  split
  · rw [Record.lookup_filterMap, Option.bind_assoc]
    cases found : perms.lookup origin with
    | none => rfl
    | some target =>
      rw [Option.bind_some, Option.bind_some, entryRule_perKindOrigin]
      rcases shaped origin target found with flat | bucketed
      · exact flat.perKind
      · exact bucketed.perKind
  · next same =>
    cases found : perms.lookup origin with
    | none => rfl
    | some target =>
      have unchanged : perKindChanges target = false := by
        rw [Bool.not_eq_true, List.any_eq_false] at same
        simpa using same _ (Record.mem_entries_iff.mpr found)
      rw [Option.bind_some, Option.bind_some]
      cases stored : entryRule target bucket key with
      | none => rfl
      | some value =>
        have kept := not_dropped_of_unchanged (shaped origin target found) unchanged stored
        rw [Option.filter_some, kept]
        rfl

theorem WellShaped.migrateToPerKind (shaped : WellShaped perms) :
    WellShaped (migrateToPerKind perms) := by
  unfold Permissions.migrateToPerKind commitIf
  split
  · intro origin after found
    rw [Record.lookup_filterMap] at found
    obtain ⟨target, stored, left⟩ := Option.bind_eq_some_iff.mp found
    have whole := Option.ite_none_left_eq_some.mp left
    rw [← Option.some.inj whole.2]
    exact (shaped origin target stored).imp Flat.kept Bucketed.kept
  · exact shaped

/-! ## Bucketing -/

theorem Bucketed.not_hasFlat (bucketed : Bucketed target) : hasFlat target = false := by
  have none : (target.entries.any fun entry => entry.2.isRule) = false := by
    rw [List.any_eq_false]
    intro entry member
    rw [bucketed entry.1 entry.2 (Record.mem_entries_iff.mp member)]
    exact Bool.false_ne_true
  rw [hasFlat, none, Bool.and_false]

theorem Flat.bucketed_of_not_hasFlat (flat : Flat target) (none : hasFlat target = false) :
    Bucketed target := by
  intro name entry found
  rw [hasFlat, flat.plain, Bool.not_false, Bool.true_and, List.any_eq_false] at none
  simpa using none _ (Record.mem_entries_iff.mpr found)

theorem Flat.lookup_perAccountOrigin (flat : Flat target) (holds : hasFlat target = true) :
    (perAccountOrigin target).lookup bucket =
      if bucket = DEFAULT_BUCKET then some (.bucket (flatRules target)) else none := by
  rw [perAccountOrigin, if_pos holds, Record.lookup_insert, Record.lookup_filterMap]
  split
  · rfl
  · cases found : target.lookup bucket with
    | none => rfl
    | some entry =>
      rw [Option.bind_some, flat.2 bucket entry found]
      rfl

theorem Bucketed.perAccountOrigin (bucketed : Bucketed target) : perAccountOrigin target = target := by
  rw [Permissions.perAccountOrigin, bucketed.not_hasFlat]
  exact if_neg Bool.false_ne_true

theorem bucketed_perAccountOrigin (shape : Flat target ∨ Bucketed target) :
    Bucketed (perAccountOrigin target) := by
  rcases shape with flat | bucketed
  · cases holds : hasFlat target with
    | false =>
      have bucketed := flat.bucketed_of_not_hasFlat holds
      rw [bucketed.perAccountOrigin]
      exact bucketed
    | true =>
      intro name entry found
      rw [flat.lookup_perAccountOrigin holds] at found
      have whole := Option.ite_none_right_eq_some.mp found
      rw [← Option.some.inj whole.2]
      rfl
  · rw [bucketed.perAccountOrigin]
    exact bucketed

theorem entryRule_perAccountOrigin (shape : Flat target ∨ Bucketed target) :
    entryRule (perAccountOrigin target) bucket key = entryRule target bucket key := by
  rcases shape with flat | bucketed
  · cases holds : hasFlat target with
    | false => rw [(flat.bucketed_of_not_hasFlat holds).perAccountOrigin]
    | true =>
      rw [flat.rule_eq, (bucketed_perAccountOrigin (.inl flat)).rule_eq,
        flat.lookup_perAccountOrigin holds]
      split <;> rfl
  · rw [bucketed.perAccountOrigin]

def AllBucketed (perms : LegacyTree) : Prop :=
  ∀ origin target, perms.lookup origin = some target → Bucketed target

theorem WellShaped.allBucketed (shaped : WellShaped perms) :
    AllBucketed (migrateToPerAccount perms) := by
  unfold migrateToPerAccount commitIf
  split
  · intro origin after found
    rw [Record.lookup_map] at found
    obtain ⟨target, stored, rfl⟩ := Option.map_eq_some_iff.mp found
    exact bucketed_perAccountOrigin (shaped origin target stored)
  · next same =>
    intro origin target found
    rcases shaped origin target found with flat | bucketed
    · rw [Bool.not_eq_true, List.any_eq_false] at same
      exact flat.bucketed_of_not_hasFlat
        (by simpa using same _ (Record.mem_entries_iff.mpr found))
    · exact bucketed

theorem ruleOf_migrateToPerAccount (shaped : WellShaped perms) :
    ruleOf (migrateToPerAccount perms) origin bucket key = ruleOf perms origin bucket key := by
  unfold migrateToPerAccount commitIf ruleOf
  split
  · rw [Record.lookup_map]
    cases found : perms.lookup origin with
    | none => rfl
    | some target =>
      rw [Option.map_some, Option.bind_some, Option.bind_some]
      exact entryRule_perAccountOrigin (shaped origin target found)
  · rfl

/-! ## Edited buckets -/

theorem Bucketed.edited (bucketed : Bucketed target) (change : LegacyBucket → LegacyBucket) :
    Bucketed (target.map fun _ entry => entry.edit change) := by
  intro name after found
  rw [Record.lookup_map] at found
  obtain ⟨before, stored, rfl⟩ := Option.map_eq_some_iff.mp found
  have isBucket := bucketed name before stored
  cases before with
  | rule value => contradiction
  | bucket rules => rfl

theorem AllBucketed.edited (bucketed : AllBucketed perms) (changed : Bool)
    (change : LegacyBucket → LegacyBucket) :
    AllBucketed (commitIf changed perms (editBuckets change perms)) := by
  unfold commitIf editBuckets
  split
  · intro origin after found
    rw [Record.lookup_map] at found
    obtain ⟨target, stored, rfl⟩ := Option.map_eq_some_iff.mp found
    exact (bucketed origin target stored).edited change
  · exact bucketed

theorem not_anyBucket {test : LegacyBucket → Bool} (none : anyBucket test perms = false)
    (found : perms.lookup origin = some target)
    (held : target.lookup bucket = some (.bucket rules)) : test rules = false := by
  have inOrigin := List.any_eq_false.mp none _ (Record.mem_entries_iff.mpr found)
  rw [Bool.not_eq_true] at inOrigin
  simpa [LegacyEntry.bucket?] using
    List.any_eq_false.mp inOrigin _ (Record.mem_entries_iff.mpr held)

theorem AllBucketed.rule_edited (bucketed : AllBucketed perms) {test : LegacyBucket → Bool}
    {change : LegacyBucket → LegacyBucket}
    (edit : (String → Option LegacyDecision) → String → Option LegacyDecision)
    (acts : ∀ (rules : LegacyBucket) key, (change rules).lookup key = edit rules.lookup key)
    (absent : ∀ key, edit (fun _ => none) key = none)
    (quiet : ∀ (rules : LegacyBucket) key,
      test rules = false → edit rules.lookup key = rules.lookup key) :
    ruleOf (commitIf (anyBucket test perms) perms (editBuckets change perms)) origin bucket key =
      edit (ruleOf perms origin bucket) key := by
  cases found : perms.lookup origin with
  | none =>
    have before : ruleOf perms origin bucket = fun _ => none := by
      funext other
      rw [ruleOf, found, Option.bind_none]
    rw [before, absent, ruleOf, commitIf]
    split
    · rw [editBuckets, Record.lookup_map, found]
      rfl
    · rw [found]
      rfl
  | some target =>
    have shape := bucketed origin target found
    cases held : target.lookup bucket with
    | none =>
      have before : ruleOf perms origin bucket = fun _ => none := by
        funext other
        rw [ruleOf, found, Option.bind_some, shape.rule_eq, held, Option.bind_none]
      rw [before, absent, ruleOf, commitIf]
      split
      · rw [editBuckets, Record.lookup_map, found, Option.map_some, Option.bind_some,
          (shape.edited change).rule_eq, Record.lookup_map, held]
        rfl
      · rw [found, Option.bind_some, shape.rule_eq, held]
        rfl
    | some entry =>
      have isBucket := shape bucket entry held
      cases entry with
      | rule value => contradiction
      | bucket rules =>
        have before : ruleOf perms origin bucket = rules.lookup := by
          funext other
          rw [ruleOf, found, Option.bind_some, shape.rule_eq, held, Option.bind_some]
          rfl
        rw [before, ruleOf, commitIf]
        split
        · rw [editBuckets, Record.lookup_map, found, Option.map_some, Option.bind_some,
            (shape.edited change).rule_eq, Record.lookup_map, held]
          exact acts rules key
        · next same =>
          rw [Bool.not_eq_true] at same
          rw [quiet rules key (not_anyBucket same found held), found, Option.bind_some,
            shape.rule_eq, held]
          rfl

theorem ruleOf_migrateForwardToAsk (bucketed : AllBucketed perms) :
    ruleOf (migrateForwardToAsk perms) origin bucket key =
      (ruleOf perms origin bucket key).map retire := by
  apply bucketed.rule_edited fun rule key => (rule key).map retire
  · intro rules key
    rw [forwardToAsk, Record.lookup_map]
  · intro key
    rfl
  · intro rules key none
    dsimp only
    cases held : rules.lookup key with
    | none => rfl
    | some value =>
      have current := List.any_eq_false.mp none _ (Record.mem_entries_iff.mpr held)
      cases value with
      | forward => simp at current
      | allow | ask | deny => rfl

/-- What the last pass makes of the rules of a bucket. -/
def foldedRule (rule : String → Option LegacyDecision) (key : String) : Option LegacyDecision :=
  if key ∈ DM_KEYS then none
  else if key = "sendMessages" then chosenOf rule
  else rule key

theorem sendMessages_not_direct : "sendMessages" ∉ DM_KEYS := by decide

theorem foldl_choose_of_none {rule : String → Option LegacyDecision} {keys : List String}
    (none : ∀ key ∈ keys, rule key = none) (chosen : Option LegacyDecision) :
    keys.foldl (fun chosen key => choose chosen (rule key)) chosen = chosen := by
  induction keys with
  | nil => rfl
  | cons first rest ih =>
    rw [List.foldl_cons, none first List.mem_cons_self, choose]
    exact ih fun key member => none key (List.mem_cons_of_mem first member)

variable {values : List LegacyDecision} {chosen : Option LegacyDecision}

theorem MostRestrictive.choose (most : MostRestrictive values chosen)
    (incoming : Option LegacyDecision) :
    MostRestrictive (values ++ incoming.toList) (choose chosen incoming) := by
  cases incoming with
  | none =>
    rw [Option.toList_none, List.append_nil]
    exact most
  | some incoming =>
    cases chosen with
    | none =>
      rw [MostRestrictive] at most
      simp [most, Permissions.choose, MostRestrictive]
    | some kept =>
      obtain ⟨member, greatest⟩ := most
      rw [Permissions.choose, Option.toList_some]
      split
      · next less =>
        refine ⟨List.mem_append_right values List.mem_cons_self, fun other member => ?_⟩
        rcases List.mem_append.mp member with old | new
        · exact (greatest other old).trans less.le
        · rw [List.mem_singleton.mp new]
      · next notLess =>
        refine ⟨List.mem_append_left _ member, fun other member => ?_⟩
        rcases List.mem_append.mp member with old | new
        · exact greatest other old
        · rw [List.mem_singleton.mp new]
          omega

theorem MostRestrictive.foldl {rule : String → Option LegacyDecision} {keys : List String}
    (most : MostRestrictive values chosen) :
    MostRestrictive (values ++ keys.filterMap rule)
      (keys.foldl (fun chosen key => Permissions.choose chosen (rule key)) chosen) := by
  induction keys generalizing values chosen with
  | nil =>
    rw [List.filterMap_nil, List.append_nil]
    exact most
  | cons first rest ih =>
    have next := ih (most.choose (rule first))
    rw [List.append_assoc] at next
    cases held : rule first with
    | none => simpa [held] using next
    | some value => simpa [held] using next

theorem mostRestrictive_chosenOf (rule : String → Option LegacyDecision) :
    MostRestrictive (("sendMessages" :: DM_KEYS).filterMap rule) (chosenOf rule) := by
  have first : MostRestrictive (rule "sendMessages").toList (rule "sendMessages") := by
    cases rule "sendMessages" <;> simp [MostRestrictive]
  have whole : MostRestrictive ((rule "sendMessages").toList ++ DM_KEYS.filterMap rule)
      (DM_KEYS.foldl (fun chosen key => Permissions.choose chosen (rule key)) (rule "sendMessages")) :=
    first.foldl
  cases held : rule "sendMessages" <;> simpa [held, chosenOf] using whole

theorem lookup_foldDmKinds : (foldDmKinds rules).lookup key = foldedRule rules.lookup key := by
  have rest : (rules.filterMap fun key value => if key ∈ DM_KEYS then none else some value).lookup
      key = if key ∈ DM_KEYS then none else rules.lookup key := by
    rw [Record.lookup_filterMap]
    split
    · cases rules.lookup key <;> rfl
    · exact Option.bind_fun_some _
  unfold foldDmKinds foldedRule
  dsimp only
  split
  · next value chosen =>
    rw [Record.lookup_insert, rest, chosen]
    by_cases messages : key = "sendMessages"
    · rw [if_pos messages, if_pos messages, messages, if_neg sendMessages_not_direct]
    · rw [if_neg messages, if_neg messages]
  · next chosen =>
    rw [rest, chosen]
    by_cases messages : key = "sendMessages"
    · have held : rules.lookup "sendMessages" = none := by
        have none := mostRestrictive_chosenOf rules.lookup
        rw [chosen, MostRestrictive, List.filterMap_eq_nil_iff] at none
        exact none _ List.mem_cons_self
      rw [if_pos messages, messages, held]
    · rw [if_neg messages]

theorem foldedRule_none : foldedRule (fun _ => none) key = none := by
  rw [foldedRule, chosenOf, foldl_choose_of_none fun _ _ => rfl, ite_self, ite_self]

theorem ruleOf_migrateDmKinds (bucketed : AllBucketed perms) :
    ruleOf (migrateDmKindsToSendMessages perms) origin bucket key =
      foldedRule (ruleOf perms origin bucket) key := by
  apply bucketed.rule_edited foldedRule
  · intro rules key
    exact lookup_foldDmKinds
  · intro key
    exact foldedRule_none
  · intro rules key none
    have absent : ∀ direct ∈ DM_KEYS, rules.lookup direct = Option.none := by
      intro direct member
      simpa using List.any_eq_false.mp none direct member
    rw [foldedRule, chosenOf, foldl_choose_of_none absent]
    split
    · next direct => exact (absent key direct).symm
    · split
      · next messages => rw [messages]
      · rfl

theorem ruleOf_runMigrations (shaped : WellShaped perms) :
    ruleOf (runMigrations perms) origin bucket key =
      foldedRule (fun key => (keptRule perms origin bucket key).map retire) key := by
  have kept := shaped.migrateToPerKind
  have bucketed := kept.allBucketed
  have current : AllBucketed (migrateForwardToAsk (migrateToPerAccount (migrateToPerKind perms))) :=
    bucketed.edited _ _
  rw [runMigrations, ruleOf_migrateDmKinds current]
  congr 1
  funext other
  rw [ruleOf_migrateForwardToAsk bucketed, ruleOf_migrateToPerAccount kept,
    ruleOf_migrateToPerKind shaped]

theorem allBucketed_runMigrations (shaped : WellShaped perms) : AllBucketed (runMigrations perms) :=
  (shaped.migrateToPerKind.allBucketed.edited _ _).edited _ _

/-! ## What the passes leave together -/

/-- Whether a tree's origins without a `_default` bucket lose the grants they should. -/
def ReadRight (perms : LegacyTree) : Prop :=
  ∀ origin target, perms.lookup origin = some target → misread target = true →
    ∀ bucket key value, entryRule target bucket key = some value →
      (isBlanketGrant key value = true ↔ bucket ∈ BLANKET_KEYS)

theorem ReadRight.keptRule_eq (read : ReadRight perms) :
    keptRule perms origin bucket key =
      (ruleOf perms origin bucket key).filter fun value => !isBlanketGrant key value := by
  rw [keptRule, ruleOf]
  cases found : perms.lookup origin with
  | none => rfl
  | some target =>
    rw [Option.bind_some, Option.bind_some]
    cases stored : entryRule target bucket key with
    | none => rfl
    | some value =>
      have same : dropped target bucket key value = isBlanketGrant key value := by
        rw [dropped]
        split
        · next wrong =>
          have agrees := read origin target found wrong bucket key value stored
          rw [Bool.eq_iff_iff, decide_eq_true_iff]
          exact agrees.symm
        · rfl
      rw [Option.filter_some, Option.filter_some, same]

theorem retire_ne_forward : retire value ≠ .forward := by
  cases value <;> simp [retire]

theorem isBlanketGrant_of_not_mem (other : key ∉ BLANKET_KEYS) : isBlanketGrant key value = false := by
  simp [isBlanketGrant, other]

theorem blanket_not_direct : ∀ key ∈ BLANKET_KEYS, key ∉ DM_KEYS ∧ key ≠ "sendMessages" := by decide

theorem messages_not_blanket : ∀ key ∈ "sendMessages" :: DM_KEYS, key ∉ BLANKET_KEYS := by decide

theorem foldedRule_other {rule : String → Option LegacyDecision} (plain : key ∉ DM_KEYS)
    (other : key ≠ "sendMessages") : foldedRule rule key = rule key := by
  rw [foldedRule, if_neg plain, if_neg other]

theorem foldedRule_messages (rule : String → Option LegacyDecision) :
    foldedRule rule "sendMessages" = chosenOf rule := by
  rw [foldedRule, if_neg sendMessages_not_direct, if_pos rfl]

theorem MostRestrictive.deny (most : MostRestrictive values chosen)
    (member : LegacyDecision.deny ∈ values) :
    chosen = some .deny := by
  cases chosen with
  | none =>
    rw [MostRestrictive] at most
    rw [most] at member
    contradiction
  | some value =>
    have least := most.2 _ member
    cases value with
    | deny => rfl
    | allow | ask | forward => simp [legacyRestrictiveness] at least

theorem ReadRight.folded (read : ReadRight perms) :
    ("sendMessages" :: DM_KEYS).filterMap (fun key => (keptRule perms origin bucket key).map retire) =
      (("sendMessages" :: DM_KEYS).filterMap (ruleOf perms origin bucket)).map retire := by
  rw [List.map_filterMap]
  apply List.filterMap_congr
  intro key member
  have plain := messages_not_blanket key member
  rw [read.keptRule_eq]
  cases ruleOf perms origin bucket key with
  | none => rfl
  | some value => rw [Option.filter_some, isBlanketGrant_of_not_mem plain]; rfl

theorem ReadRight.migrated (shaped : WellShaped perms) (read : ReadRight perms) :
    Migrated perms (runMigrations perms) := by
  have messages : ∀ origin bucket, MostRestrictive
      ((("sendMessages" :: DM_KEYS).filterMap (ruleOf perms origin bucket)).map retire)
      (ruleOf (runMigrations perms) origin bucket "sendMessages") := by
    intro origin bucket
    rw [ruleOf_runMigrations shaped, foldedRule_messages, ← read.folded]
    exact mostRestrictive_chosenOf _
  have direct : ∀ origin bucket, ∀ key ∈ DM_KEYS,
      ruleOf (runMigrations perms) origin bucket key = none := by
    intro origin bucket key member
    rw [ruleOf_runMigrations shaped, foldedRule, if_pos member]
  have other : ∀ origin bucket key, key ∉ DM_KEYS → key ≠ "sendMessages" →
      ruleOf (runMigrations perms) origin bucket key =
        ((ruleOf perms origin bucket key).filter fun value => !isBlanketGrant key value).map
          retire := by
    intro origin bucket key plain different
    rw [ruleOf_runMigrations shaped, foldedRule_other plain different, read.keptRule_eq]
  refine ⟨allBucketed_runMigrations shaped, ?blanket, direct, ?current, messages, ?denies, ?others⟩
  case blanket =>
    intro origin bucket key member
    have plain := blanket_not_direct key member
    rw [other origin bucket key plain.1 plain.2]
    cases ruleOf perms origin bucket key with
    | none => rfl
    | some value => cases value <;> simp [Option.filter_some, isBlanketGrant, member, retire]
  case current =>
    intro origin bucket key
    by_cases folded : key ∈ DM_KEYS
    · rw [direct origin bucket key folded]
      simp
    · by_cases isMessages : key = "sendMessages"
      · have most := messages origin bucket
        rw [isMessages]
        intro held
        rw [held] at most
        obtain ⟨before, _, retired⟩ := List.mem_map.mp most.1
        exact retire_ne_forward retired
      · rw [other origin bucket key folded isMessages]
        intro held
        obtain ⟨before, _, retired⟩ := Option.map_eq_some_iff.mp held
        exact retire_ne_forward retired
  case denies =>
    intro origin bucket key held
    have among : key ∈ "sendMessages" :: DM_KEYS →
        ruleOf (runMigrations perms) origin bucket "sendMessages" = some .deny := by
      intro member
      apply (messages origin bucket).deny
      exact List.mem_map.mpr ⟨.deny, List.mem_filterMap.mpr ⟨key, member, held⟩, rfl⟩
    by_cases folded : key ∈ DM_KEYS
    · exact .inr ⟨folded, among (List.mem_cons_of_mem _ folded)⟩
    · left
      by_cases isMessages : key = "sendMessages"
      · rw [isMessages] at among ⊢
        exact among List.mem_cons_self
      · rw [other origin bucket key folded isMessages, held]
        simp [Option.filter_some, isBlanketGrant, retire]
  case others =>
    intro origin bucket key plain folded isMessages
    rw [other origin bucket key folded isMessages]
    cases ruleOf perms origin bucket key with
    | none => rfl
    | some value => rw [Option.filter_some, isBlanketGrant_of_not_mem plain]; rfl

/-- A whole bucket that is gone held grants of blanket keys only. -/
theorem Migrated.lost {after : LegacyTree} (migrated : Migrated perms after)
    (gone : ∀ key, ruleOf after origin bucket key = none)
    (held : ruleOf perms origin bucket key = some value) : isBlanketGrant key value = true := by
  by_cases blanket : key ∈ BLANKET_KEYS
  · have left := migrated.blanket origin bucket key blanket
    rw [gone, held, Option.filter_some] at left
    simp only [isBlanketGrant, blanket, decide_true, Bool.true_and, decide_eq_true_iff]
    rintro rfl
    simp at left
  · exfalso
    by_cases folded : key ∈ "sendMessages" :: DM_KEYS
    · have most := migrated.messages origin bucket
      rw [gone, MostRestrictive, List.map_eq_nil_iff, List.filterMap_eq_nil_iff] at most
      rw [most key folded] at held
      contradiction
    · rw [List.mem_cons, not_or] at folded
      have left := migrated.others origin bucket key blanket folded.2 folded.1
      rw [gone, held] at left
      contradiction

theorem Migrated.readRight (shaped : WellShaped perms)
    (migrated : Migrated perms (runMigrations perms)) : ReadRight perms := by
  intro origin target found wrong bucket key value stored
  have before : ruleOf perms origin bucket key = some value := by
    rw [ruleOf, found]
    exact stored
  have kept : ∀ other, keptRule perms origin bucket other =
      (entryRule target bucket other).filter fun _ => bucket ∉ BLANKET_KEYS := by
    intro other
    rw [keptRule, found, Option.bind_some]
    simp [dropped, wrong]
  constructor
  · intro grant
    by_contra outside
    have blanket : key ∈ BLANKET_KEYS := by
      by_contra plain
      rw [isBlanketGrant_of_not_mem plain] at grant
      contradiction
    have plain := blanket_not_direct key blanket
    have left := migrated.blanket origin bucket key blanket
    rw [ruleOf_runMigrations shaped, foldedRule_other plain.1 plain.2, kept, stored, before] at left
    rw [Option.filter_some, Option.filter_some, if_pos (decide_eq_true outside)] at left
    cases value with
    | deny => simp [isBlanketGrant] at grant
    | allow | ask | forward => simp at left
  · intro inside
    have none : ∀ other, keptRule perms origin bucket other = none := by
      intro other
      rw [kept]
      cases entryRule target bucket other <;> simp [inside]
    apply @Migrated.lost _ origin bucket _ _ _ migrated
    · intro other
      rw [ruleOf_runMigrations shaped]
      simp only [none, Option.map_none]
      exact foldedRule_none
    · exact before

end Passes

/-- A migration that runs does what it is for exactly when every origin of buckets without a
`_default` one has its blanket grants, and nothing else, in buckets named like a blanket key. -/
theorem migrate_leaves_migrated_iff {store : LegacyStore} (shaped : WellShaped store.tree)
    (old : store.version ≠ some MIGRATION_VERSION) (settled : store.pending = false) :
    ∃ after, migrate store = .ok after ∧ migrate after = .ok after ∧
      (Migrated store.tree after.tree ↔ ReadRight store.tree) := by
  have ran : migrate store = .ok
      { store with version := some MIGRATION_VERSION, tree := runMigrations store.tree } := by
    simp [migrate, old, settled]
  refine ⟨_, ran, ?_, fun migrated => migrated.readRight shaped, fun read => read.migrated shaped⟩
  rw [migrate, if_pos rfl]

section Example

def oneRule (bucket key : String) (value : LegacyDecision) : LegacyStore where
  version := some 3
  pending := false
  tree := AList.singleton "https://a.example"
    (AList.singleton bucket (.bucket (AList.singleton key value)))

theorem wellShaped_oneRule (bucket key : String) (value : LegacyDecision) :
    WellShaped (oneRule bucket key value).tree := by
  have every : Record.Forall Bucketed (oneRule bucket key value).tree := by
    apply Record.Forall.of_singleton
    exact Record.Forall.of_singleton rfl
  exact fun origin target found => .inr (every origin target found)

/-- The bucket of an account is taken for a flat rule, and its grant for every event stays. -/
theorem migrate_may_keep_a_blanket_grant :
    ¬ ∀ store : LegacyStore, WellShaped store.tree → store.version ≠ some MIGRATION_VERSION →
      store.pending = false → ∀ after, migrate store = .ok after →
        Migrated store.tree after.tree ∧ migrate after = .ok after := by
  intro claim
  have kept := (claim (oneRule "account" "signEvent" .allow) (wellShaped_oneRule _ _ _)
    (by decide) rfl _ rfl).1.blanket "https://a.example" "account" "signEvent" (by decide)
  have changed : ruleOf (runMigrations (oneRule "account" "signEvent" .allow).tree)
      "https://a.example" "account" "signEvent" ≠ none := by decide
  exact changed kept

/-- In the `_default` bucket the same grant is found. -/
theorem migrate_leaves_migrated_default :
    ∃ after, migrate (oneRule DEFAULT_BUCKET "signEvent" .allow) = .ok after ∧
      migrate after = .ok after ∧
      (Migrated (oneRule DEFAULT_BUCKET "signEvent" .allow).tree after.tree ↔
        ReadRight (oneRule DEFAULT_BUCKET "signEvent" .allow).tree) :=
  migrate_leaves_migrated_iff (wellShaped_oneRule _ _ _) (by decide) rfl

end Example

end NostrWot.Permissions
