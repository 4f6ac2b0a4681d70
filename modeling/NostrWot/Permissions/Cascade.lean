import NostrWot.Data.Record
import Mathlib.Data.List.Find

namespace NostrWot.Permissions

open NostrWot.Data

/-! # The cascade

Given a bucket, a method and a kind there is exactly one answer.
-/

inductive PermissionDecision where
  | allow
  | deny
  | ask
  deriving DecidableEq, Repr

/-- One origin's rules for one account: permission key to decision. -/
abbrev PermissionBucket : Type := Record PermissionDecision

abbrev OriginPermissions : Type := Record PermissionBucket

/-- The whole stored tree. -/
abbrev PermissionMap : Type := Record OriginPermissions

def DM_SIGN_KINDS : List Int := [4, 13, 14, 1059]

def NIP42_KIND : Int := 22242

inductive KindArgument where
  /-- `undefined`, or the `null` that names the blanket key. -/
  | absent
  /-- `NaN`, `1.5`, or a value of another type. -/
  | malformed
  | kind (number : Int)
  deriving DecidableEq

def KindArgument.isKind : KindArgument → Bool
  | .kind _ => true
  | _ => false

def signEventKey (kind : Int) : String := "signEvent:" ++ toString kind

def permissionKey (method : String) (kind : KindArgument) : Except String String :=
  if "webln_".toList.isPrefixOf method.toList then .ok method
  else if method = "signEvent" then
    match kind with
    | .absent => .ok method
    | .malformed => .error "signEvent needs an integer event kind, or null for the blanket key"
    | .kind number =>
      if number ∈ DM_SIGN_KINDS then .ok "sendMessages" else .ok (signEventKey number)
  else if method = "nip04Encrypt" ∨ method = "nip44Encrypt" then .ok "sendMessages"
  else if method = "nip04Decrypt" ∨ method = "nip44Decrypt" then .ok "readMessages"
  else .ok method

/-- A `signEvent` read that cannot name its kind. -/
def isKindless (method : String) (kind : KindArgument) : Bool :=
  method = "signEvent" && !kind.isKind

/-- The keys a read looks at, most specific first. -/
def consultedKeys (method : String) (kind : KindArgument) : List String :=
  if isKindless method kind then [method, "*"]
  else
    match permissionKey method kind with
    | .ok kindKey => if kindKey ≠ method then [kindKey, method, "*"] else [method, "*"]
    | .error _ => [method, "*"]

structure Resolution where
  decision : PermissionDecision
  key : Option String := none
  deriving DecidableEq

/-- The most specific level that answers. -/
def firstSet (bucket : PermissionBucket) (keys : List String) : Resolution :=
  match keys.find? fun key => (bucket.lookup key).isSome with
  | some key => ⟨(bucket.lookup key).getD .ask, some key⟩
  | none => ⟨.ask, none⟩

def resolveDetailed (bucket : PermissionBucket) (method : String) (kind : KindArgument) :
    Resolution :=
  let consulted := consultedKeys method kind
  match consulted.find? fun key => bucket.lookup key = some .deny with
  | some key => ⟨.deny, some key⟩
  | none =>
    if isKindless method kind then ⟨.ask, none⟩
    else if method = "signEvent" ∧ kind = .kind NIP42_KIND then ⟨.ask, none⟩
    else firstSet bucket consulted

def resolve (bucket : PermissionBucket) (method : String) (kind : KindArgument) :
    PermissionDecision :=
  (resolveDetailed bucket method kind).decision

theorem resolve_deny_iff (bucket : PermissionBucket) (method : String) (kind : KindArgument) :
    resolve bucket method kind = .deny ↔
      ∃ key ∈ consultedKeys method kind, bucket.lookup key = some .deny := by
  constructor
  · intro denied
    unfold resolve resolveDetailed at denied
    simp only at denied
    split at denied
    · next key found =>
      exact ⟨key, List.mem_of_find?_eq_some found, by simpa using List.find?_some found⟩
    · next absent =>
      split at denied
      · contradiction
      · split at denied
        · contradiction
        · unfold firstSet at denied
          split at denied
          · next key found =>
            refine ⟨key, List.mem_of_find?_eq_some found, ?_⟩
            have set : (bucket.lookup key).isSome := by simpa using List.find?_some found
            obtain ⟨decision, looked⟩ := Option.isSome_iff_exists.mp set
            rw [looked] at denied ⊢
            exact congrArg some denied
          · contradiction
  · rintro ⟨key, member, denied⟩
    unfold resolve resolveDetailed
    simp only
    split
    · rfl
    · next absent =>
      have := List.find?_eq_none.mp absent key member
      simp [denied] at this

variable {method : String} {kind : KindArgument}

theorem resolve_allow {bucket : PermissionBucket} (allowed : resolve bucket method kind = .allow) :
    ∃ key ∈ consultedKeys method kind, bucket.lookup key = some .allow := by
  unfold resolve resolveDetailed at allowed
  simp only at allowed
  split at allowed
  · contradiction
  · split at allowed
    · contradiction
    · split at allowed
      · contradiction
      · unfold firstSet at allowed
        split at allowed
        · next key found =>
          refine ⟨key, List.mem_of_find?_eq_some found, ?_⟩
          have set : (bucket.lookup key).isSome := by simpa using List.find?_some found
          obtain ⟨decision, looked⟩ := Option.isSome_iff_exists.mp set
          rw [looked] at allowed ⊢
          exact congrArg some allowed
        · contradiction

theorem resolve_congr {left right : PermissionBucket}
    (same : ∀ key ∈ consultedKeys method kind, left.lookup key = right.lookup key) :
    resolve left method kind = resolve right method kind := by
  have deniedSame : (consultedKeys method kind).find? (fun key => left.lookup key = some .deny) =
      (consultedKeys method kind).find? fun key => right.lookup key = some .deny := by
    refine List.find?_congr fun key member => ?_
    rw [same key member]
  have setSame : (consultedKeys method kind).find? (fun key => (left.lookup key).isSome) =
      (consultedKeys method kind).find? fun key => (right.lookup key).isSome := by
    refine List.find?_congr fun key member => ?_
    rw [same key member]
  unfold resolve resolveDetailed firstSet
  simp only [deniedSame, setSame]
  split
  · rfl
  · split
    · rfl
    · split
      · rfl
      · split
        · next key found => simp only [same key (List.mem_of_find?_eq_some found)]
        · rfl

theorem resolve_empty (method : String) (kind : KindArgument) : resolve ∅ method kind = .ask := by
  have notDenied : resolve ∅ method kind ≠ .deny := by
    rw [ne_eq, resolve_deny_iff]
    simp
  have notAllowed : resolve ∅ method kind ≠ .allow := by
    intro allowed
    obtain ⟨key, -, found⟩ := resolve_allow allowed
    simp at found
  cases answer : resolve ∅ method kind with
  | allow => exact absurd answer notAllowed
  | deny => exact absurd answer notDenied
  | ask => rfl

theorem firstSet_decision (bucket : PermissionBucket) (keys : List String) :
    (firstSet bucket keys).decision = (keys.findSome? bucket.lookup).getD .ask := by
  induction keys with
  | nil => rfl
  | cons key rest ih =>
    unfold firstSet at ih ⊢
    rw [List.find?_cons, List.findSome?_cons]
    cases found : bucket.lookup key with
    | none => simpa [found] using ih
    | some decision => simp [found]

theorem resolve_of_not_denied {bucket : PermissionBucket}
    (notDenied : ∀ key ∈ consultedKeys method kind, bucket.lookup key ≠ some .deny) :
    resolve bucket method kind =
      if isKindless method kind ∨ method = "signEvent" ∧ kind = .kind NIP42_KIND then .ask
      else (firstSet bucket (consultedKeys method kind)).decision := by
  have absent : (consultedKeys method kind).find? (fun key => bucket.lookup key = some .deny) =
      none := by
    rw [List.find?_eq_none]
    intro key member
    simpa using notDenied key member
  unfold resolve resolveDetailed
  simp only [absent]
  by_cases kindless : isKindless method kind
  · simp [kindless]
  · by_cases relay : method = "signEvent" ∧ kind = .kind NIP42_KIND
    · simp [relay]
    · simp [kindless, relay]

/-- Setting `filler` at the keys that `rules` leaves unset changes no answer: a
rule denies already, or nothing that is filled in denies and the most specific
level says what was answered. -/
def FillKeeps (rules : PermissionBucket) (filler : String → Option PermissionDecision)
    (method : String) (kind : KindArgument) : Prop :=
  (∃ key ∈ consultedKeys method kind, rules.lookup key = some .deny) ∨
    (∀ key ∈ consultedKeys method kind, rules.lookup key = none → filler key ≠ some .deny) ∧
    (isKindless method kind ∨ (method = "signEvent" ∧ kind = .kind NIP42_KIND) ∨
      ∀ key, (consultedKeys method kind).find? (fun key =>
          (rules.lookup key).isSome || (filler key).isSome) = some key →
        rules.lookup key = none →
        filler key = some (firstSet rules (consultedKeys method kind)).decision)

variable {filler : String → Option PermissionDecision}

theorem firstSet_fill_iff {rules filled : PermissionBucket}
    (fills : ∀ key, filled.lookup key = (rules.lookup key).or (filler key)) (keys : List String) :
    (firstSet filled keys).decision = (firstSet rules keys).decision ↔
      ∀ key, keys.find? (fun key => (rules.lookup key).isSome || (filler key).isSome) = some key →
        rules.lookup key = none → filler key = some (firstSet rules keys).decision := by
  rw [firstSet_decision, firstSet_decision]
  induction keys with
  | nil => simp
  | cons key rest ih =>
    rw [List.findSome?_cons, List.findSome?_cons, fills key, List.find?_cons]
    cases ruled : rules.lookup key with
    | some decision => simp [ruled]
    | none =>
      cases filledIn : filler key with
      | none => simpa [ruled, filledIn] using ih
      | some decision => simp [ruled, filledIn]

theorem resolve_fill_iff {rules filled : PermissionBucket}
    (fills : ∀ key, filled.lookup key = (rules.lookup key).or (filler key)) :
    resolve filled method kind = resolve rules method kind ↔
      FillKeeps rules filler method kind := by
  unfold FillKeeps
  by_cases denied : ∃ key ∈ consultedKeys method kind, rules.lookup key = some .deny
  · have before := (resolve_deny_iff rules method kind).mpr denied
    have after : resolve filled method kind = .deny := by
      obtain ⟨key, member, found⟩ := denied
      refine (resolve_deny_iff filled method kind).mpr ⟨key, member, ?_⟩
      rw [fills, found, Option.some_or]
    simp only [before, after, denied, true_or]
  · have before : ∀ key ∈ consultedKeys method kind, rules.lookup key ≠ some .deny :=
      fun key member found => denied ⟨key, member, found⟩
    by_cases safe : ∀ key ∈ consultedKeys method kind,
        rules.lookup key = none → filler key ≠ some .deny
    · have after : ∀ key ∈ consultedKeys method kind, filled.lookup key ≠ some .deny := by
        intro key member found
        rw [fills, Option.or_eq_some_iff] at found
        rcases found with found | ⟨unset, found⟩
        · exact before key member found
        · exact safe key member unset found
      rw [resolve_of_not_denied before, resolve_of_not_denied after]
      have first := firstSet_fill_iff fills (consultedKeys method kind)
      by_cases prompts : isKindless method kind ∨ method = "signEvent" ∧ kind = .kind NIP42_KIND
      · rw [if_pos prompts, if_pos prompts]
        simp only [true_iff]
        rcases prompts with kindless | relay
        · exact .inr ⟨safe, .inl kindless⟩
        · exact .inr ⟨safe, .inr (.inl relay)⟩
      · rw [if_neg prompts, if_neg prompts, first]
        obtain ⟨kindless, relay⟩ := not_or.mp prompts
        simp only [denied, false_or, kindless, relay, Bool.false_eq_true]
        exact ⟨fun answers => ⟨safe, answers⟩, fun both => both.2⟩
    · have changed : resolve filled method kind = .deny := by
        simp only [not_forall, not_not] at safe
        obtain ⟨key, member, unset, found⟩ := safe
        refine (resolve_deny_iff filled method kind).mpr ⟨key, member, ?_⟩
        rw [fills, unset, found, Option.none_or]
      have different : resolve rules method kind ≠ .deny := by
        rwa [ne_eq, resolve_deny_iff]
      simp only [denied, safe, false_and, or_self, iff_false, changed]
      exact Ne.symm different

end NostrWot.Permissions
