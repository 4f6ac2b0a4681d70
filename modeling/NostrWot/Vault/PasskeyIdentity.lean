import NostrWot.Vault.Serialization

namespace NostrWot.Vault

open NostrWot.Data

/-! # Resolving a passkey

One discoverable assertion, and the targeted follow-ups that a handle leads to.
-/

/-! ## Handles -/

/-- Labels named by one byte. -/
structure ParameterSet where
  id : Nat
  saltLabel : String
  infoLabel : String
  deriving DecidableEq

def DEFAULT_DERIVED_PARAMETER_SET : ParameterSet :=
  ⟨1, "nostr-passkey:derive:v1", "nostr-passkey:nsec:v1"⟩

def validSet (set : ParameterSet) : Bool :=
  1 ≤ set.id && set.id ≤ 0x7f && set.saltLabel ≠ "" && set.infoLabel ≠ "" &&
    (set.id ≠ DEFAULT_DERIVED_PARAMETER_SET.id || set = DEFAULT_DERIVED_PARAMETER_SET)

def TAG : List UInt8 := [0x4e, 0x50, 0x4b, 0x01]

def DERIVED_HANDLE_BYTES : Nat := 22

def STORED_HANDLE_BYTES : Nat := 37

inductive HandleClass where
  | derived (parameterSet : UInt8)
  /-- A tagged handle, which names the author. -/
  | stored (author : List UInt8)
  /-- Thirty-two bytes: the author of a legacy record, once one is found. -/
  | rawPubkey (author : List UInt8)
  | keyInHandle
  | unsupported
  | unknown
  deriving DecidableEq

def classifyPasskeyHandle (handle : Option (List UInt8)) : HandleClass :=
  match handle with
  | none => .unknown
  | some handle =>
    let tagged := TAG.isPrefixOf handle
    if tagged && handle.length = DERIVED_HANDLE_BYTES && handle[4]? = some 1 then
      .derived (handle.getD 5 0)
    else if tagged && handle.length = STORED_HANDLE_BYTES && handle[4]? = some 2 then
      .stored (handle.drop 5)
    else if handle.length = 32 then .rawPubkey handle
    else if handle.length = 33 && handle[0]? = some 3 then .keyInHandle
    else if (TAG.take 3).isPrefixOf handle then .unsupported
    else .unknown

/-! ## Ceremonies -/

/-- The outputs of an assertion's two inputs, where they are bytes. -/
structure Outputs where
  first : Option (List UInt8) := none
  second : Option (List UInt8) := none

/-- What a provider answers to an assertion. -/
structure Assertion where
  credentialId : Option Units := none
  userHandle : Option (List UInt8) := none
  pubkey : Option Units := none
  blob : Option (List UInt8) := none
  prf : Option Outputs := none

inductive Need where
  | stored
  | legacy
  | derived (set : ParameterSet)
  deriving DecidableEq

/-- What the user is shown. -/
inductive Ceremony where
  | discover
  | assertion (needs : List Need) (largeBlob : Bool)
  | authenticate (need : Need)
  deriving DecidableEq

inductive LegacyFound (ρ ε : Type) where
  | passkeyVault (record : ρ)
  | events (events : List ε)
  | none

inductive IdentityError where
  | missingRecord
  | undecryptableRecord
  | authorMismatch
  | unreadableRecord
  | unsupportedHandle
  | prfUnavailable
  | invalidAssertion
  deriving DecidableEq

inductive PasskeyIdentity (ρ π υ : Type) where
  | derived (credentialId : Units) (set : ParameterSet) (pubkey : Units)
  | stored (credentialId : Units) (opened : π)
  | legacy (credentialId : Units) (opened : υ)
  | passkeyVault (credentialId : Units) (record : ρ)
  | ambiguous (credentialId : Units) (set : ParameterSet) (pubkey : Units)
  | error (credentialId : Option Units) (reason : IdentityError)

/-- What the host, the provider and the relays do; each ceremony is answered in the light of those
that were shown before it, and `none` is a rejection. -/
structure Ports (κ ρ ε π υ : Type) where
  rpValid : Bool
  parameterSet : Option ParameterSet := none
  exclusiveDerivedDeployment : Bool := false
  hexToBytes : Units → Option (List UInt8)
  discover : Option (Option Assertion)
  implementsAssert : Bool
  assertion : List Ceremony → Option (Option Assertion)
  authenticate : List Ceremony → Option (Option (List UInt8))
  assertSession : List Ceremony → Option Unit
  /-- The pubkey of the key that an output derives. -/
  deriveNostrKey : List UInt8 → ParameterSet → Option Units
  findStoredRecords : (author : List UInt8) → Option (List UInt8) → Option (List κ)
  /-- The outer `none` is an author that the opened records do not hold. -/
  openStoredRecords : List κ → List UInt8 → Option (Option π)
  findStoredRecovery : (author : List UInt8) → Option (List UInt8) → Option (LegacyFound ρ ε)
  openStoredRecovery : List ε → List UInt8 → Option (Option υ)
  isKnownDerived : Units → Option Bool

structure Session where
  stored : Option (List UInt8) := none
  legacy : Option (List UInt8) := none
  derived : Option (List UInt8) := none
  blob : Option (List UInt8) := none
  shown : List Ceremony := []

/-- A resolution under way: `none` where it rejects. -/
abbrev Resolves (α : Type) : Type := OptionT (StateM Session) α

section Resolving

variable {κ ρ ε π υ : Type} (ports : Ports κ ρ ε π υ)

def assertionHandle (assertion : Assertion) : Option (List UInt8) :=
  match assertion.userHandle with
  | some handle => some handle
  | none =>
    match assertion.pubkey with
    | some pubkey =>
      if pubkey.length ≤ 2048 ∧ pubkey ≠ [] ∧ isHex pubkey then ports.hexToBytes pubkey else none
    | none => none

def usable (output : Option (List UInt8)) : Option (List UInt8) :=
  output.filter fun bytes => bytes.length = 32

def Session.keep (session : Session) (need : Need) (output : Option (List UInt8)) : Session :=
  match usable output with
  | none => session
  | some value =>
    match need with
    | .stored => { session with stored := some value }
    | .legacy => { session with legacy := some value }
    | .derived _ => { session with derived := some value }

/-- The outputs of a follow-up, in the order of what it asked for. -/
def Session.keepAll (session : Session) (needs : List Need) (answer : Option Assertion) : Session :=
  let prf := (answer.bind Assertion.prf).getD {}
  match needs with
  | [] => session
  | [need] => session.keep need prf.first
  | need :: other :: _ => (session.keep need prf.first).keep other prf.second

def Session.takeBlob (session : Session) (answer : Option Assertion) : Session :=
  match answer.bind Assertion.blob with
  | some (byte :: rest) => { session with blob := some (byte :: rest) }
  | _ => session

def Session.present (session : Session) (ceremony : Ceremony) : Session :=
  { session with shown := session.shown ++ [ceremony] }

def present (ceremony : Ceremony) : Resolves Unit := modify fun session => session.present ceremony

def authenticateEach : List Need → Resolves Unit
  | [] => return ()
  | need :: needs => do
      let session ← get
      present (.authenticate need)
      let output ← OptionT.mk (pure (ports.authenticate session.shown))
      modify fun session => session.keep need output
      authenticateEach needs

/-- One targeted assertion; without `assert`, one `authenticate` for each output. -/
def followUp (needs : List Need) (largeBlob : Bool) : Resolves Unit := do
  if ports.implementsAssert then
    let session ← get
    present (.assertion needs largeBlob)
    let answer ← OptionT.mk (pure (ports.assertion session.shown))
    modify fun session => session.keepAll needs answer
    if largeBlob then modify fun session => session.takeBlob answer
  else authenticateEach ports needs

def followUpWhen (missing : Bool) (needs : List Need) (largeBlob : Bool) : Resolves Unit :=
  if missing then followUp ports needs largeBlob else pure ()

def attempt {α : Type} (outcome : Option α) : Resolves α := OptionT.mk (pure outcome)

def fault (credentialId : Units) (reason : IdentityError) : Resolves (PasskeyIdentity ρ π υ) :=
  return .error (some credentialId) reason

def openTagged (credentialId : Units) (candidates : List κ) : Resolves (PasskeyIdentity ρ π υ) := do
  followUpWhen ports (← get).stored.isNone [.stored] false
  match (← get).stored with
  | none => fault credentialId .prfUnavailable
  | some stored => do
      attempt (ports.assertSession (← get).shown)
      match ports.openStoredRecords candidates stored with
      | none => fault credentialId .authorMismatch
      | some none => fault credentialId .undecryptableRecord
      | some (some opened) => return .stored credentialId opened

def openLegacy (credentialId : Units) (events : List ε) : Resolves (PasskeyIdentity ρ π υ) := do
  followUpWhen ports (← get).legacy.isNone [.legacy] false
  match (← get).legacy with
  | none => fault credentialId .prfUnavailable
  | some legacy => do
      attempt (ports.assertSession (← get).shown)
      match ← attempt (ports.openStoredRecovery events legacy) with
      | none => fault credentialId .undecryptableRecord
      | some opened => return .legacy credentialId opened

/-! ## Handle branches -/

def evaluated : ParameterSet := ports.parameterSet.getD DEFAULT_DERIVED_PARAMETER_SET

def resolveDerived (credentialId : Units) (parameterSet : UInt8) :
    Resolves (PasskeyIdentity ρ π υ) := do
  let known := [evaluated ports, DEFAULT_DERIVED_PARAMETER_SET].find? fun set =>
    set.id = parameterSet.toNat
  match known with
  | none => fault credentialId .unsupportedHandle
  | some set => do
      let missing := decide (set ≠ evaluated ports) || (← get).derived.isNone
      modify fun session => if missing then { session with derived := none } else session
      followUpWhen ports missing [.derived set] false
      match (← get).derived with
      | none => fault credentialId .prfUnavailable
      | some output => return .derived credentialId set (← attempt (ports.deriveNostrKey output set))

def searchTagged (credentialId : Units) (author : List UInt8) : Resolves (PasskeyIdentity ρ π υ) := do
  match ← attempt (ports.findStoredRecords author (← get).blob) with
  | [] => fault credentialId .missingRecord
  | candidate :: candidates => openTagged ports credentialId (candidate :: candidates)

def resolveTagged (credentialId : Units) (author : List UInt8) (dropped : Bool) :
    Resolves (PasskeyIdentity ρ π υ) := do
  followUpWhen ports (dropped && ports.implementsAssert) [.stored] true
  searchTagged ports credentialId author

def searchLegacy (credentialId : Units) (author : List UInt8) : Resolves (PasskeyIdentity ρ π υ) := do
  match ← attempt (ports.findStoredRecovery author (← get).blob) with
  | .passkeyVault record => return .passkeyVault credentialId record
  | .events events => openLegacy ports credentialId events
  | .none => fault credentialId .missingRecord

def resolveRawPubkey (credentialId : Units) (author : List UInt8) (dropped : Bool) :
    Resolves (PasskeyIdentity ρ π υ) := do
  followUpWhen ports (dropped && ports.implementsAssert) [.legacy] true
  searchLegacy ports credentialId author

def resolveUnknown (credentialId : Units) (dropped : Bool) : Resolves (PasskeyIdentity ρ π υ) := do
  let missing := dropped || (← get).stored.isNone || (← get).derived.isNone
  followUpWhen ports missing [.stored, .derived (evaluated ports)] true
  if (← get).blob.any (· ≠ []) && !ports.exclusiveDerivedDeployment then
    fault credentialId .unreadableRecord
  else
    match (← get).derived with
    | none => fault credentialId .prfUnavailable
    | some output => do
        let pubkey ← attempt (ports.deriveNostrKey output (evaluated ports))
        let adopt ←
          if ports.exclusiveDerivedDeployment then pure true else attempt (ports.isKnownDerived pubkey)
        if adopt then return .derived credentialId (evaluated ports) pubkey
        else return .ambiguous credentialId (evaluated ports) pubkey

def resolveHandle (credentialId : Units) (kind : HandleClass) (dropped : Bool) :
    Resolves (PasskeyIdentity ρ π υ) :=
  match kind with
  | .unsupported | .keyInHandle => fault credentialId .unsupportedHandle
  | .derived parameterSet => resolveDerived ports credentialId parameterSet
  | .stored author => resolveTagged ports credentialId author dropped
  | .rawPubkey author => resolveRawPubkey ports credentialId author dropped
  | .unknown => resolveUnknown ports credentialId dropped

def afterLogin (login : Assertion) : Session where
  stored := usable (login.prf.bind Outputs.first)
  derived := usable (login.prf.bind Outputs.second)
  blob := login.blob
  shown := [.discover]

def resolvePasskeyIdentity : Resolves (PasskeyIdentity ρ π υ) := do
  if !ports.rpValid || !validSet (evaluated ports) then failure
  else
    present .discover
    match ← attempt ports.discover with
    | none => return .error none .invalidAssertion
    | some login =>
      match login.credentialId with
      | some (unit :: rest) => do
          set (afterLogin login)
          resolveHandle ports (unit :: rest) (classifyPasskeyHandle (assertionHandle ports login))
            login.prf.isNone
      | some [] | none => return .error none .invalidAssertion

def ceremonies : List Ceremony := (resolvePasskeyIdentity ports {}).2.shown

end Resolving

/-! ## What is shown -/

section Shown

variable {α β : Type} {session after : Session}

/-- Nothing more is shown to the user. -/
def Quiet (run : Resolves α) : Prop := ∀ session : Session, (run session).2.shown = session.shown

variable {run : Resolves α} {next : α → Resolves β}

theorem bind_some {value : α} (ran : run session = (some value, after)) :
    (run >>= next) session = next value after := by
  show (OptionT.bind run next) session = _
  simp only [OptionT.bind, OptionT.mk, StateT.bind, bind]
  rw [ran]

theorem bind_none (ran : run session = (none, after)) :
    (run >>= next) session = (none, after) := by
  show (OptionT.bind run next) session = _
  simp only [OptionT.bind, OptionT.mk, StateT.bind, bind]
  rw [ran]
  rfl

theorem Quiet.pure (value : α) : Quiet (pure value : Resolves α) := fun _ => rfl

theorem Quiet.attempt (outcome : Option α) : Quiet (attempt outcome) := fun _ => rfl

theorem Quiet.get : Quiet (get : Resolves Session) := fun _ => rfl

theorem shown_bind (quiet : ∀ value, Quiet (next value)) :
    ((run >>= next) session).2.shown = (run session).2.shown := by
  cases ran : run session with
  | mk result after =>
    cases result with
    | none => rw [bind_none ran]
    | some value => rw [bind_some ran, quiet]

theorem Quiet.bind (first : Quiet run) (rest : ∀ value, Quiet (next value)) :
    Quiet (run >>= next) := by
  intro session
  rw [shown_bind rest, first]

end Shown

section Branches

variable {κ ρ ε π υ : Type} {ports : Ports κ ρ ε π υ} {session : Session} {needs : List Need}
  {largeBlob : Bool} {credentialId : Units} {author : List UInt8} {dropped : Bool}

def answered (session : Session) (needs : List Need) (largeBlob : Bool) (answer : Option Assertion) :
    Session :=
  let kept := (session.present (.assertion needs largeBlob)).keepAll needs answer
  if largeBlob then kept.takeBlob answer else kept

theorem keep_shown (need : Need) (output : Option (List UInt8)) :
    (session.keep need output).shown = session.shown := by
  unfold Session.keep
  split
  · rfl
  · cases need <;> rfl

variable (answer : Option Assertion)

theorem takeBlob_shown :
    (session.takeBlob answer).shown = session.shown := by
  unfold Session.takeBlob
  split <;> rfl

theorem keepAll_shown :
    (session.keepAll needs answer).shown = session.shown := by
  unfold Session.keepAll
  dsimp only
  split
  · rfl
  · exact keep_shown _ _
  · rw [keep_shown, keep_shown]

theorem answered_shown :
    (answered session needs largeBlob answer).shown =
      session.shown ++ [.assertion needs largeBlob] := by
  unfold answered
  dsimp only
  split
  · rw [takeBlob_shown, keepAll_shown]
    rfl
  · rw [keepAll_shown]
    rfl

theorem followUp_answered (implements : ports.implementsAssert = true) {answer : Option Assertion}
    (answers : ports.assertion session.shown = some answer) :
    followUp ports needs largeBlob session = (some (), answered session needs largeBlob answer) := by
  have asked : present (.assertion needs largeBlob) session =
      (some (), session.present (.assertion needs largeBlob)) := rfl
  rw [followUp, if_pos implements, bind_some (show (get : Resolves Session) session = _ from rfl),
    bind_some asked, answers]
  cases largeBlob <;> rfl

theorem followUp_rejected (implements : ports.implementsAssert = true)
    (rejects : ports.assertion session.shown = none) :
    followUp ports needs largeBlob session =
      (none, session.present (.assertion needs largeBlob)) := by
  have asked : present (.assertion needs largeBlob) session =
      (some (), session.present (.assertion needs largeBlob)) := rfl
  rw [followUp, if_pos implements, bind_some (show (get : Resolves Session) session = _ from rfl),
    bind_some asked, rejects]
  rfl

theorem followUp_shown (implements : ports.implementsAssert = true) :
    (followUp ports needs largeBlob session).2.shown =
      session.shown ++ [.assertion needs largeBlob] := by
  cases answers : ports.assertion session.shown with
  | none =>
    rw [followUp_rejected implements answers]
    rfl
  | some answer => rw [followUp_answered implements answers, answered_shown]

theorem followUpWhen_shown (implements : ports.implementsAssert = true) (missing : Bool) :
    (followUpWhen ports missing needs largeBlob session).2.shown =
      session.shown ++ if missing then [.assertion needs largeBlob] else [] := by
  cases missing with
  | true => exact followUp_shown implements
  | false => exact (List.append_nil _).symm

theorem modified (change : Session → Session) :
    (modify change : Resolves PUnit) session = (some (), change session) := rfl

theorem got : (get : Resolves Session) session = (some session, session) := rfl

theorem openTagged_shown (implements : ports.implementsAssert = true) (candidates : List κ) :
    (openTagged ports credentialId candidates session).2.shown =
      session.shown ++ if session.stored.isNone then [.assertion [.stored] false] else [] := by
  rw [openTagged, bind_some got, shown_bind]
  · exact followUpWhen_shown implements _
  · intro asked
    refine Quiet.get.bind fun session => ?_
    split
    · exact Quiet.pure _
    · refine Quiet.get.bind fun session => (Quiet.attempt _).bind fun _ => ?_
      split <;> exact Quiet.pure _

theorem openLegacy_shown (implements : ports.implementsAssert = true) (events : List ε) :
    (openLegacy ports credentialId events session).2.shown =
      session.shown ++ if session.legacy.isNone then [.assertion [.legacy] false] else [] := by
  rw [openLegacy, bind_some got, shown_bind]
  · exact followUpWhen_shown implements _
  · intro asked
    refine Quiet.get.bind fun session => ?_
    split
    · exact Quiet.pure _
    · refine Quiet.get.bind fun session => (Quiet.attempt _).bind fun _ =>
        (Quiet.attempt _).bind fun _ => ?_
      split <;> exact Quiet.pure _

def foundTagged (ports : Ports κ ρ ε π υ) (author : List UInt8) (blob : Option (List UInt8)) : Bool :=
  match ports.findStoredRecords author blob with
  | some (_ :: _) => true
  | _ => false

def foundEvents (ports : Ports κ ρ ε π υ) (author : List UInt8) (blob : Option (List UInt8)) : Bool :=
  match ports.findStoredRecovery author blob with
  | some (.events _) => true
  | _ => false

theorem searchTagged_shown (implements : ports.implementsAssert = true) :
    (searchTagged ports credentialId author session).2.shown =
      session.shown ++ if foundTagged ports author session.blob && session.stored.isNone then
        [.assertion [.stored] false] else [] := by
  rw [searchTagged, bind_some got]
  cases found : ports.findStoredRecords author session.blob with
  | none =>
    rw [bind_none (show attempt none session = _ from rfl)]
    simp [foundTagged, found]
  | some candidates =>
    rw [bind_some (show attempt (some candidates) session = _ from rfl)]
    cases candidates with
    | nil =>
      simp only [foundTagged, found, Bool.false_and, Bool.false_eq_true, if_false,
        List.append_nil]
      rfl
    | cons candidate candidates =>
      simp only [foundTagged, found, Bool.true_and]
      exact openTagged_shown implements _

theorem searchLegacy_shown (implements : ports.implementsAssert = true) :
    (searchLegacy ports credentialId author session).2.shown =
      session.shown ++ if foundEvents ports author session.blob && session.legacy.isNone then
        [.assertion [.legacy] false] else [] := by
  rw [searchLegacy, bind_some got]
  cases found : ports.findStoredRecovery author session.blob with
  | none =>
    rw [bind_none (show attempt none session = _ from rfl)]
    simp [foundEvents, found]
  | some result =>
    rw [bind_some (show attempt (some result) session = _ from rfl)]
    cases result with
    | passkeyVault record | none =>
      simp only [foundEvents, found, Bool.false_and, Bool.false_eq_true, if_false,
        List.append_nil]
      rfl
    | events events =>
      simp only [foundEvents, found, Bool.true_and]
      exact openLegacy_shown implements _

/-- The handle's branch in which the platform dropped the extensions: a second follow-up comes
after the first where a record is found and the output is still missing. -/
theorem afterFollowUp_shown {run : Resolves (PasskeyIdentity ρ π υ)}
    {again : Session → List Ceremony} (implements : ports.implementsAssert = true)
    (searched : ∀ session, (run session).2.shown = session.shown ++ again session) (missing : Bool) :
    ((followUpWhen ports missing needs largeBlob >>= fun _ => run) session).2.shown =
      if missing then
        session.shown ++ .assertion needs largeBlob ::
          ((ports.assertion session.shown).elim [] fun answer =>
            again (answered session needs largeBlob answer))
      else session.shown ++ again session := by
  cases missing with
  | false => exact searched session
  | true =>
    have asks : followUpWhen ports true needs largeBlob = followUp ports needs largeBlob := rfl
    rw [if_pos rfl, asks]
    cases answers : ports.assertion session.shown with
    | none =>
      rw [bind_none (followUp_rejected implements answers)]
      rfl
    | some answer =>
      rw [bind_some (followUp_answered implements answers), searched, answered_shown]
      simp

theorem resolveDerived_shown (implements : ports.implementsAssert = true) (parameterSet : UInt8) :
    ∃ asked, (resolveDerived ports credentialId parameterSet session).2.shown =
      session.shown ++ asked ∧ .discover ∉ asked ∧ asked.length ≤ 1 ∧
      (asked ≠ [] → (evaluated ports).id ≠ parameterSet.toNat ∨ session.derived = none) := by
  rw [resolveDerived]
  cases known : [evaluated ports, DEFAULT_DERIVED_PARAMETER_SET].find? fun set =>
      set.id = parameterSet.toNat with
  | none => exact ⟨[], (List.append_nil _).symm, by simp, by simp, by simp⟩
  | some set =>
    dsimp only
    have named := List.find?_some known
    rw [bind_some got]
    refine ⟨if decide (set ≠ evaluated ports) || session.derived.isNone then
      [.assertion [.derived set] false] else [], ?_, ?_, ?_, ?_⟩
    · rw [bind_some (modified _), shown_bind, followUpWhen_shown implements]
      · split <;> rfl
      · intro asked
        refine Quiet.get.bind fun session => ?_
        split
        · exact Quiet.pure _
        · exact (Quiet.attempt _).bind fun _ => Quiet.pure _
    · split <;> simp
    · split <;> simp
    · intro some_
      have missing : (decide (set ≠ evaluated ports) || session.derived.isNone) = true := by
        by_contra none_
        rw [if_neg none_] at some_
        exact some_ rfl
      rw [Bool.or_eq_true, decide_eq_true_eq, Option.isNone_iff_eq_none] at missing
      refine missing.imp_left fun different same => different ?_
      rw [List.find?_cons_of_pos (by simpa using same)] at known
      exact (Option.some.inj known).symm

theorem resolveUnknown_shown (implements : ports.implementsAssert = true) :
    (resolveUnknown ports credentialId dropped session).2.shown =
      session.shown ++ if dropped || session.stored.isNone || session.derived.isNone then
        [.assertion [.stored, .derived (evaluated ports)] true] else [] := by
  rw [resolveUnknown, bind_some got, bind_some got, shown_bind]
  · exact followUpWhen_shown implements _
  · intro asked
    refine Quiet.get.bind fun session => ?_
    split
    · exact Quiet.pure _
    · refine Quiet.get.bind fun session => ?_
      split
      · exact Quiet.pure _
      · refine (Quiet.attempt _).bind fun pubkey => ?_
        have adopts : ∀ adopt : Bool, Quiet
            (if adopt then pure (.derived credentialId (evaluated ports) pubkey)
              else pure (.ambiguous credentialId (evaluated ports) pubkey) :
                Resolves (PasskeyIdentity ρ π υ)) := by
          intro adopt
          split <;> exact Quiet.pure _
        dsimp only
        split
        · exact (Quiet.pure _).bind adopts
        · exact (Quiet.attempt _).bind adopts

/-! ## At most one follow-up -/

def kindOf (ports : Ports κ ρ ε π υ) (login : Assertion) : HandleClass :=
  classifyPasskeyHandle (assertionHandle ports login)

def lacks (ports : Ports κ ρ ε π υ) (kind : HandleClass) (login : Assertion) : Bool :=
  match kind with
  | .derived parameterSet =>
    (evaluated ports).id ≠ parameterSet.toNat || (afterLogin login).derived.isNone
  | .stored _ => (afterLogin login).stored.isNone
  | .rawPubkey _ => true
  | .unknown => (afterLogin login).derived.isNone
  | .keyInHandle | .unsupported => false

/-- One discoverable assertion, and one follow-up at most, for which there was a reason. -/
def Restrained (ports : Ports κ ρ ε π υ) : Prop :=
  ∃ asked, ceremonies ports = .discover :: asked ∧ .discover ∉ asked ∧ asked.length ≤ 1 ∧
    (asked ≠ [] → ∃ login, ports.discover = some (some login) ∧
      (login.prf = none ∨ lacks ports (kindOf ports login) login = true))

/-- The blob after a follow-up that read it. -/
def blobAfter (login : Assertion) (answer : Option Assertion) : Option (List UInt8) :=
  match answer.bind Assertion.blob with
  | some (byte :: rest) => some (byte :: rest)
  | _ => login.blob

/-- No second follow-up comes after the first, and none comes for an output that is not used. -/
def Settled (ports : Ports κ ρ ε π υ) (login : Assertion) : HandleClass → Prop
  | .stored author => login.prf = none → ∀ answer, ports.assertion [.discover] = some answer →
      usable ((answer.bind Assertion.prf).bind Outputs.first) = none →
        foundTagged ports author (blobAfter login answer) = false
  | .rawPubkey author => login.prf = none → ∀ answer, ports.assertion [.discover] = some answer →
      usable ((answer.bind Assertion.prf).bind Outputs.first) = none →
        foundEvents ports author (blobAfter login answer) = false
  | .unknown => login.prf ≠ none → (afterLogin login).derived ≠ none → (afterLogin login).stored ≠ none
  | .derived _ | .keyInHandle | .unsupported => True

theorem keep_blob (need : Need) (output : Option (List UInt8)) :
    (session.keep need output).blob = session.blob := by
  unfold Session.keep
  split
  · rfl
  · cases need <;> rfl

theorem takeBlob_outputs (answer : Option Assertion) :
    (session.takeBlob answer).stored = session.stored ∧
      (session.takeBlob answer).legacy = session.legacy := by
  unfold Session.takeBlob
  split <;> exact ⟨rfl, rfl⟩

theorem takeBlob_blob (login : Assertion) (answer : Option Assertion)
    (before : session.blob = login.blob) : (session.takeBlob answer).blob = blobAfter login answer := by
  unfold Session.takeBlob blobAfter
  split
  · rfl
  · exact before

theorem first_of_answer :
    ((answer.bind Assertion.prf).getD {}).first = (answer.bind Assertion.prf).bind Outputs.first := by
  cases answer.bind Assertion.prf <;> rfl

variable {login : Assertion}

theorem answered_stored (dropped : login.prf = none) (answer : Option Assertion) :
    (answered (afterLogin login) [.stored] true answer).stored =
      usable ((answer.bind Assertion.prf).bind Outputs.first) ∧
    (answered (afterLogin login) [.stored] true answer).blob = blobAfter login answer := by
  have outputs := @takeBlob_outputs
    (((afterLogin login).present (.assertion [.stored] true)).keepAll [.stored] answer) answer
  constructor
  · refine outputs.1.trans ?_
    rw [Session.keepAll, Session.keep, first_of_answer]
    cases usable ((answer.bind Assertion.prf).bind Outputs.first) with
    | none => simp [Session.present, afterLogin, dropped, usable]
    | some value => rfl
  · exact takeBlob_blob login answer (keep_blob _ _)

theorem answered_legacy (login : Assertion) (answer : Option Assertion) :
    (answered (afterLogin login) [.legacy] true answer).legacy =
      usable ((answer.bind Assertion.prf).bind Outputs.first) ∧
    (answered (afterLogin login) [.legacy] true answer).blob = blobAfter login answer := by
  have outputs := @takeBlob_outputs
    (((afterLogin login).present (.assertion [.legacy] true)).keepAll [.legacy] answer) answer
  constructor
  · refine outputs.2.trans ?_
    rw [Session.keepAll, Session.keep, first_of_answer]
    cases usable ((answer.bind Assertion.prf).bind Outputs.first) <;> rfl
  · exact takeBlob_blob login answer (keep_blob _ _)

theorem ceremonies_login {unit : UInt16} {rest : Units} (valid : ports.rpValid = true)
    (set : validSet (evaluated ports) = true) (discovered : ports.discover = some (some login))
    (identified : login.credentialId = some (unit :: rest)) :
    ceremonies ports = (resolveHandle ports (unit :: rest) (kindOf ports login) login.prf.isNone
      (afterLogin login)).2.shown := by
  have open_ : ¬ (!ports.rpValid || !validSet (evaluated ports)) = true := by simp [valid, set]
  rw [ceremonies, resolvePasskeyIdentity, if_neg open_,
    bind_some (show present .discover {} = (some (), Session.present {} .discover) from rfl),
    discovered, bind_some (show attempt (some (some login)) _ = (some (some login), _) from rfl)]
  dsimp only
  rw [identified]
  rfl

theorem ceremonies_without_login (valid : ports.rpValid = true)
    (set : validSet (evaluated ports) = true)
    (unidentified : ∀ login unit rest, ports.discover = some (some login) →
      login.credentialId ≠ some (unit :: rest)) :
    ceremonies ports = [.discover] := by
  have open_ : ¬ (!ports.rpValid || !validSet (evaluated ports)) = true := by simp [valid, set]
  rw [ceremonies, resolvePasskeyIdentity, if_neg open_,
    bind_some (show present .discover {} = (some (), Session.present {} .discover) from rfl)]
  cases discovered : ports.discover with
  | none =>
    rw [bind_none (show attempt none _ = (none, _) from rfl)]
    rfl
  | some answer =>
    rw [bind_some (show attempt (some answer) _ = (some answer, _) from rfl)]
    cases answer with
    | none => rfl
    | some login =>
      have named := fun unit rest => unidentified login unit rest discovered
      dsimp only
      cases identified : login.credentialId with
      | none => rfl
      | some id =>
        cases id with
        | nil => rfl
        | cons unit rest => exact absurd identified (named unit rest)

theorem restrained_iff {asked : List Ceremony} (discovered : ports.discover = some (some login))
    (shape : ceremonies ports = .discover :: asked) (once : .discover ∉ asked) :
    Restrained ports ↔ asked.length ≤ 1 ∧
      (asked ≠ [] → login.prf = none ∨ lacks ports (kindOf ports login) login = true) := by
  constructor
  · rintro ⟨others, same, -, few, reason⟩
    rw [shape, List.cons.injEq] at same
    obtain ⟨-, rfl⟩ := same
    refine ⟨few, fun some_ => ?_⟩
    obtain ⟨other, answered, because⟩ := reason some_
    rw [discovered] at answered
    cases answered
    exact because
  · rintro ⟨few, reason⟩
    exact ⟨asked, shape, once, few, fun some_ => ⟨login, discovered, reason some_⟩⟩

theorem searched_shown {run : Resolves (PasskeyIdentity ρ π υ)} {need : Need} {login : Assertion}
    {again : Session → Bool} (implements : ports.implementsAssert = true)
    (searched : ∀ session, (run session).2.shown =
      session.shown ++ if again session then [.assertion [need] false] else []) :
    ∃ asked, ((followUpWhen ports (login.prf.isNone && ports.implementsAssert) [need] true >>=
        fun _ => run) (afterLogin login)).2.shown = .discover :: asked ∧ .discover ∉ asked ∧
      (asked.length ≤ 1 ↔ (login.prf = none → ∀ answer, ports.assertion [.discover] = some answer →
        again (answered (afterLogin login) [need] true answer) = false)) ∧
      (asked ≠ [] → login.prf = none ∨ again (afterLogin login) = true) := by
  rw [afterFollowUp_shown implements searched, implements, Bool.and_true]
  cases dropped : login.prf with
  | none =>
    refine ⟨.assertion [need] true :: (ports.assertion [.discover]).elim [] fun answer =>
      if again (answered (afterLogin login) [need] true answer) then [.assertion [need] false]
      else [], rfl, ?_, ?_, fun _ => .inl rfl⟩
    · cases ports.assertion [.discover] with
      | none => simp
      | some answer =>
        simp only [Option.elim_some]
        split <;> simp
    · cases ports.assertion [.discover] with
      | none => simp
      | some answer =>
        cases asks : again (answered (afterLogin login) [need] true answer) <;> simp [asks]
  | some outputs =>
    refine ⟨if again (afterLogin login) then [.assertion [need] false] else [], rfl, ?_, ?_, ?_⟩
    · split <;> simp
    · split <;> simp
    · intro some_
      refine .inr ?_
      by_contra not_
      rw [if_neg not_] at some_
      exact some_ rfl

/-- A resolution that begins is restrained exactly when its handle's branch settles after one
follow-up. -/
theorem restrained_iff_settled (implements : ports.implementsAssert = true)
    (valid : ports.rpValid = true) (set : validSet (evaluated ports) = true) :
    Restrained ports ↔ ∀ login unit rest, ports.discover = some (some login) →
      login.credentialId = some (unit :: rest) → Settled ports login (kindOf ports login) := by
  by_cases identified : ∃ login unit rest, ports.discover = some (some login) ∧
      login.credentialId = some (unit :: rest)
  · obtain ⟨login, unit, rest, discovered, named⟩ := identified
    have only : (∀ other unit rest, ports.discover = some (some other) →
        other.credentialId = some (unit :: rest) → Settled ports other (kindOf ports other)) ↔
        Settled ports login (kindOf ports login) := by
      constructor
      · exact fun every => every login unit rest discovered named
      · intro settled other _ _ same _
        rw [discovered] at same
        cases same
        exact settled
    have shown := ceremonies_login valid set discovered named
    rw [only]
    cases kind : kindOf ports login with
    | keyInHandle | unsupported =>
      rw [kind] at shown
      have shape : ceremonies ports = .discover :: [] := shown
      rw [restrained_iff discovered shape (by simp)]
      simp [Settled]
    | derived parameterSet =>
      rw [kind] at shown
      obtain ⟨asked, shape, once, few, reason⟩ :=
        @resolveDerived_shown _ _ _ _ _ ports (afterLogin login) (unit :: rest) implements parameterSet
      rw [restrained_iff discovered (shown.trans shape) once, kind]
      simp only [Settled, iff_true]
      refine ⟨few, fun some_ => .inr ?_⟩
      rw [lacks, Bool.or_eq_true, decide_eq_true_eq, Option.isNone_iff_eq_none]
      exact reason some_
    | stored author =>
      rw [kind] at shown
      obtain ⟨asked, shape, once, few, reason⟩ := @searched_shown _ _ _ _ _ ports
        (searchTagged ports (unit :: rest) author) .stored login
        (fun session => foundTagged ports author session.blob && session.stored.isNone) implements
        (fun session => searchTagged_shown implements)
      rw [restrained_iff discovered (shown.trans shape) once, kind, few, Settled]
      refine Iff.trans (and_iff_left fun some_ => ?_) ?_
      · refine (reason some_).imp_right fun asks => ?_
        exact ((Bool.and_eq_true _ _).mp asks).2
      · refine forall_congr' fun dropped => forall_congr' fun answer => forall_congr' fun _ => ?_
        obtain ⟨stored, blob⟩ := answered_stored dropped answer
        rw [stored, blob, Bool.and_eq_false_iff, Option.isNone_eq_false_iff, ← Option.ne_none_iff_isSome]
        tauto
    | rawPubkey author =>
      rw [kind] at shown
      obtain ⟨asked, shape, once, few, reason⟩ := @searched_shown _ _ _ _ _ ports
        (searchLegacy ports (unit :: rest) author) .legacy login
        (fun session => foundEvents ports author session.blob && session.legacy.isNone) implements
        (fun session => searchLegacy_shown implements)
      rw [restrained_iff discovered (shown.trans shape) once, kind, few, Settled]
      refine Iff.trans (and_iff_left fun some_ => .inr rfl) ?_
      refine forall_congr' fun dropped => forall_congr' fun answer => forall_congr' fun _ => ?_
      obtain ⟨legacy, blob⟩ := answered_legacy login answer
      rw [legacy, blob, Bool.and_eq_false_iff, Option.isNone_eq_false_iff,
        ← Option.ne_none_iff_isSome]
      tauto
    | unknown =>
      rw [kind] at shown
      have shape := shown.trans (resolveUnknown_shown implements)
      rw [restrained_iff discovered shape (by split <;> simp), kind, Settled, lacks]
      cases login.prf with
      | none => simp
      | some outputs =>
        cases (afterLogin login).stored <;> cases (afterLogin login).derived <;> simp
  · have unidentified : ∀ login unit rest, ports.discover = some (some login) →
        login.credentialId ≠ some (unit :: rest) :=
      fun login unit rest discovered named => identified ⟨login, unit, rest, discovered, named⟩
    refine iff_of_true ⟨[], ceremonies_without_login valid set unidentified, by simp, by simp,
      by simp⟩ fun login unit rest discovered named => ?_
    exact absurd named (unidentified login unit rest discovered)

theorem ceremonies_refused (refused : ¬ (ports.rpValid = true ∧ validSet (evaluated ports) = true)) :
    ceremonies ports = [] := by
  have closed : (!ports.rpValid || !validSet (evaluated ports)) = true := by
    rw [not_and_or] at refused
    simpa using refused
  rw [ceremonies, resolvePasskeyIdentity, if_pos closed]
  rfl

/-- One discoverable assertion and one follow-up with a reason, exactly where the handle's branch
settles after one; nothing at all for an RP or a parameter set that is refused. -/
theorem resolution_restrained_iff (implements : ports.implementsAssert = true) :
    (ports.rpValid = true ∧ validSet (evaluated ports) = true →
      (Restrained ports ↔ ∀ login unit rest, ports.discover = some (some login) →
        login.credentialId = some (unit :: rest) → Settled ports login (kindOf ports login))) ∧
    (¬ (ports.rpValid = true ∧ validSet (evaluated ports) = true) → ceremonies ports = []) :=
  ⟨fun accepted => restrained_iff_settled implements accepted.1 accepted.2, ceremonies_refused⟩

end Branches

/-! ## A platform without PRF -/

def taggedHandle : List UInt8 := TAG ++ 2 :: List.replicate 32 7

def withoutPrf : Ports Unit Unit Unit Unit Unit where
  rpValid := true
  hexToBytes _ := none
  discover := some (some { credentialId := some [65], userHandle := some taggedHandle })
  implementsAssert := true
  assertion _ := some (some { credentialId := some [65], blob := some TAG })
  authenticate _ := none
  assertSession _ := some ()
  deriveNostrKey _ _ := none
  findStoredRecords _ blob := some (if blob = some TAG then [()] else [])
  openStoredRecords _ _ := none
  findStoredRecovery _ _ := none
  openStoredRecovery _ _ := none
  isKnownDerived _ := some false

theorem withoutPrf_ceremonies : ceremonies withoutPrf =
    [.discover, .assertion [.stored] true, .assertion [.stored] false] := by
  decide

/-- The user is asked a third time. -/
theorem resolution_asks_again : ¬ ∀ ports : Ports Unit Unit Unit Unit Unit,
    ports.implementsAssert = true → ports.rpValid = true → validSet (evaluated ports) = true →
      Restrained ports := by
  intro restrained
  obtain ⟨asked, shape, -, few, -⟩ := restrained withoutPrf rfl rfl (by decide)
  rw [withoutPrf_ceremonies, List.cons.injEq] at shape
  rw [← shape.2] at few
  exact absurd few (by decide)

theorem resolution_restrained_iff_withoutPrf :
    Restrained withoutPrf ↔ ∀ login unit rest, withoutPrf.discover = some (some login) →
      login.credentialId = some (unit :: rest) →
        Settled withoutPrf login (kindOf withoutPrf login) :=
  (resolution_restrained_iff rfl).1 (by decide)

end NostrWot.Vault
