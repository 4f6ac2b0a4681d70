import NostrWot.Signing.Frame

namespace NostrWot.Signing

open NostrWot.Data NostrWot.Permissions NostrWot.Async NostrWot.Async.Program

/-! # No signature without consent

What must have been answered before `handle` uses a key, and what must still be
answered before it hands a result back.
-/

abbrev Log : Type := List (Exchange signerInterface)

/-- The log holds `request`, answered with `value`. -/
def Answered (log : Log) (request : SignerCall) (value : request.Reply) : Prop :=
  (⟨request, .ok value⟩ : Exchange signerInterface) ∈ log

theorem Answered.mono {log later : Log} {request : SignerCall} {value : request.Reply}
    (answered : Answered log request value) (extends_ : log <+: later) :
    Answered later request value := extends_.subset answered

theorem Answered.last {log : Log} {request : SignerCall} {value : request.Reply} :
    Answered (log ++ [⟨request, .ok value⟩]) request value := by
  simp [Answered]

inductive Prepares : ValidatedParams → PreparedParams → Prop
  | arrived (params : ValidatedParams) (ordinary : params ≠ .signPqAttestation) :
      Prepares params (.arrived params ordinary)
  | attestation (event : EventTemplateInput) : Prepares .signPqAttestation (.signPqAttestation event)

/-- The params as they are handed to the signing backend. -/
def Computes (prepared : PreparedParams) (computation : Computation) : Prop :=
  (∃ now, classicComputation now prepared = .ok computation) ∨
    ∃ kem, pqComputation kem prepared = .ok computation

section Consent

variable (deps : SignerCoreDeps) (call : Nat) (validated : ValidatedRequest)

/-- Why the key of `account` may be used for the request. -/
inductive Consented (log : Log) (account : SafeAccount) (prepared : PreparedParams)
    (decision : PermissionDecision) : Prop
  /-- A stored rule allows it. -/
  | rule (allowed : decision = .allow)
      (ordinary : isAuthenticationEvent validated.params = false)
  /-- A prompt that showed what is executed was answered allow, for an
  authentication event with a scope that the prompt offered. -/
  | prompt (context : Option ApprovalContext) (outcome : ApprovalDecision)
      (allowed : outcome.allow = true)
      (answered : Answered log (.tracked call (permissionOrigin validated.request.origin)
        (.present (disclosedRequest validated.request prepared) account context)) outcome)
      (offered : isAuthenticationEvent validated.params = true →
        ∃ shown scope, context = some shown ∧ outcome.authenticationScope = some scope ∧
          (scope = .once ∨ scope ∈ shown.scopes))
  /-- The remote signer asks by itself. -/
  | remote (nip46 : account.type = .nip46)
      (ordinary : isAuthenticationEvent validated.params = false)
  /-- The grant store allows the destination that the event names. -/
  | grant (event : EventTemplateInput) (requester : Requester) (key : String)
      (auth : AuthenticationRequest) (now : Int) (signs : validated.params = .signEvent event)
      (parsed : parseAuthentication ⟨event.kind, event.content, event.created_at, event.tags⟩
        requester now deps.authentication.toAuthenticationParserOptions = .ok (some auth))
      (granted : Answered log (.decisionFor account.id key auth) (some .allow))

/-- The request was resolved against `account`, its own rule does not deny it,
and there is a consent to it. -/
structure Authorised (log : Log) (account : SafeAccount) (prepared : PreparedParams) : Prop where
  resolved : log.head? = some ⟨.getActiveAccount, .ok (some account)⟩
  prepares : Prepares validated.params prepared
  consented : ∃ decision, decision ≠ .deny ∧
    Answered log (.check (permissionOrigin validated.request.origin)
      (permissionRule validated.params) account.id) decision ∧
    Consented deps call validated log account prepared decision

/-- When a request of `handle` may use a key, and which. -/
def MayUseKey (log : Log) : SignerCall → Prop
  | .withPrivkey accountId => ∃ account prepared,
      Authorised deps call validated log account prepared ∧ account.type ≠ .nip46 ∧
      accountId = account.id
  | .compute key computation => ∃ account prepared,
      Authorised deps call validated log account prepared ∧
      Answered log (.withPrivkey account.id) key ∧ Answered log (.publicKey key) account.pubkey ∧
      Computes prepared computation
  | .tracked _ _ (.execute account request params) => ∃ prepared,
      Authorised deps call validated log account prepared ∧ account.type = .nip46 ∧
      request = validated.request ∧ params = validated.params
  | _ => True

/-- After everything that executed, the identity port still answered `account`. -/
def StillActive (log : Log) (account : SafeAccount) : Prop :=
  ∃ before current after, log = before ++ ⟨.getActiveAccount, .ok (some current)⟩ :: after ∧
    current.id = account.id ∧ current.pubkey = account.pubkey ∧
    ∀ exchange ∈ after, executes exchange.request = false

abbrev handleProtocol : Protocol signerInterface where
  possible _ _ := True
  may := MayUseKey deps call validated

end Consent

variable {deps : SignerCoreDeps} {call : Nat} {validated : ValidatedRequest} {α : Type}
  {log : Log}

theorem mayUseKey_of_not_executes {request : SignerCall} (free : executes request = false) :
    MayUseKey deps call validated log request := by
  cases request with
  | tracked call origin work => cases work <;> trivial
  | withPrivkey => contradiction
  | compute => contradiction
  | _ => trivial

theorem tells_of_confined {task : Task α}
    (confined : Confined call (executes · = false) task) :
    Tells (handleProtocol deps call validated) log task fun later _ =>
      ∃ added, later = log ++ added ∧ ∀ exchange ∈ added, executes exchange.request = false :=
  Tells.of_uses confined.uses fun _ _ free => mayUseKey_of_not_executes free

variable {account : SafeAccount} {prepared : PreparedParams} {decision : PermissionDecision}

theorem Consented.mono {later : Log}
    (consented : Consented deps call validated log account prepared decision)
    (extends_ : log <+: later) :
    Consented deps call validated later account prepared decision := by
  cases consented with
  | rule allowed ordinary => exact .rule allowed ordinary
  | prompt context outcome allowed answered offered =>
    exact .prompt context outcome allowed (answered.mono extends_) offered
  | remote nip46 ordinary => exact .remote nip46 ordinary
  | grant event requester key auth now signs parsed granted =>
    exact .grant event requester key auth now signs parsed (granted.mono extends_)

theorem Authorised.mono {later : Log}
    (authorised : Authorised deps call validated log account prepared) (extends_ : log <+: later) :
    Authorised deps call validated later account prepared where
  resolved := by
    have first := List.singleton_prefix_iff_head?_eq_some.mpr authorised.resolved
    exact List.singleton_prefix_iff_head?_eq_some.mp (first.trans extends_)
  prepares := authorised.prepares
  consented := by
    obtain ⟨decision, notDenied, answered, consented⟩ := authorised.consented
    exact ⟨decision, notDenied, answered.mono extends_, consented.mono extends_⟩

/-! ## The steps -/

structure Vouched (deps : SignerCoreDeps) (validated : ValidatedRequest) (run : AuthenticationRun) :
    Prop where
  outside : run.self = false
  parsed : ∃ event requester now, validated.params = .signEvent event ∧
    AUTHENTICATION_SIGN_KINDS.contains event.kind = true ∧
    parseAuthentication ⟨event.kind, event.content, event.created_at, event.tags⟩ requester now
      deps.authentication.toAuthenticationParserOptions = .ok (some run.auth)

theorem tells_onlyIf {P : Protocol signerInterface} {condition : Prop} [Decidable condition]
    {task : Task Unit} {told : Log → Unit → Prop} (tells : Tells P log task told)
    (idle : ¬ condition → told log ()) : Tells P log (onlyIf condition task) told := by
  unfold onlyIf
  split
  · exact tells
  · next skipped => exact .pure (idle skipped)

theorem assertStillActive_tells (account : SafeAccount) :
    Tells (handleProtocol deps call validated) log (assertStillActive account) fun later _ =>
      ∃ current, later = log ++ [⟨.getActiveAccount, .ok (some current)⟩] ∧
        current.id = account.id ∧ current.pubkey = account.pubkey := by
  unfold assertStillActive
  refine .bind (fun later answer => later = log ++ [⟨.getActiveAccount, .ok answer⟩])
    (.call trivial fun _ _ => rfl) fun later answer _ same => ?_
  subst same
  split
  · split
    · next shown => exact .pure ⟨_, rfl, shown⟩
    · exact .throw
  · exact .throw

theorem validateAuthenticationEvent_tells (event : EventTemplateInput) (requester : Requester) :
    Tells (handleProtocol deps call validated) log
      (validateAuthenticationEvent deps event requester) fun _ auth => ∃ now,
        parseAuthentication ⟨event.kind, event.content, event.created_at, event.tags⟩ requester now
          deps.authentication.toAuthenticationParserOptions = .ok (some auth) := by
  unfold validateAuthenticationEvent
  refine .bind (fun _ _ => True) (.read fun _ => trivial) fun _ now _ _ => ?_
  split
  · next auth parsed => exact .pure ⟨_, parsed⟩
  · exact .throw

theorem parseAuthenticationOf_tells (account : SafeAccount) :
    Tells (handleProtocol deps call validated) log
      (parseAuthenticationOf deps validated.request validated.params account false)
      fun _ parsed =>
        (∀ run, parsed = some run → Vouched deps validated run ∧ run.consent = none) ∧
        (parsed = none → isAuthenticationEvent validated.params = false) := by
  unfold parseAuthenticationOf
  split
  · next event signs =>
    split
    · next ordinary =>
      exact .pure ⟨by simp, fun _ => by simpa [isAuthenticationEvent, signs] using ordinary⟩
    · next authenticates =>
      refine .bind _ (tells_of_confined
        (resolveRequester_confined (fun _ free => free) _ _ _)) fun _ resolved _ _ => ?_
      obtain ⟨requester, key⟩ := resolved
      refine .bind _ (validateAuthenticationEvent_tells event requester)
        fun _ auth _ parsed => ?_
      obtain ⟨now, parsed⟩ := parsed
      simp only [Bool.false_eq_true, false_and, if_false]
      refine .bind _ (tells_of_confined (.onlyIf (.ask rfl))) fun _ _ _ _ => .pure ⟨?_, by simp⟩
      intro run same
      cases same
      exact ⟨⟨rfl, event, requester, now, signs, by simpa using authenticates, parsed⟩, rfl⟩
  · next other =>
    refine .pure ⟨by simp, fun _ => ?_⟩
    cases kind : validated.params with
    | signEvent event => exact absurd kind (other event)
    | _ => rfl

theorem storedConsent_tells {run : AuthenticationRun} (vouched : Vouched deps validated run)
    (unset : run.consent = none) :
    Tells (handleProtocol deps call validated) log (storedConsent deps account run)
      fun later run => Vouched deps validated run ∧ (run.consent = none ∨
        Answered later (.decisionFor account.id run.key run.auth) (some .allow)) := by
  unfold storedConsent
  refine .bind (fun later stored => stored = some .allow →
    Answered later (.decisionFor account.id run.key run.auth) (some .allow)) ?_
    fun later stored _ answered => ?_
  · split
    · refine .call trivial fun value _ allowed => ?_
      subst allowed
      exact .last
    · exact .pure (by simp)
  · split
    · exact .throw
    · simp only [vouched.outside, Bool.false_eq_true, if_false]
      split
      · next allowed =>
        exact .pure ⟨⟨rfl, vouched.parsed⟩, .inr (answered allowed.1)⟩
      · exact .pure ⟨⟨rfl, vouched.parsed⟩, .inl unset⟩

theorem prepare_tells (account : SafeAccount) :
    Tells (handleProtocol deps call validated) log
      (prepare deps call validated.request (permissionOrigin validated.request.origin) account
        validated.params) fun _ prepared => Prepares validated.params prepared := by
  unfold prepare
  split
  · next special =>
    refine .bind _ (tells_of_confined (openVault_confined (fun _ free => free) _ _ _))
      fun _ _ _ _ => ?_
    refine .bind _ (assertStillActive_tells account) fun _ _ _ _ => ?_
    refine .bind _ (tells_of_confined (buildAttestation_confined (fun _ free => free) _))
      fun _ event _ _ => ?_
    refine .bind _ (tells_of_confined (.setContext _)) fun _ _ _ _ => .pure ?_
    rw [special]
    exact .attestation event
  · next ordinary => exact .pure (.arrived _ ordinary)

/-- Why a request gets by without a prompt. -/
def Waived (params : ValidatedParams) (decision : PermissionDecision) (account : SafeAccount)
    (authentication : Option AuthenticationRun) : Prop :=
  (∀ run, authentication = some run → run.consent ≠ none) ∧
    (authentication = none →
      decision ≠ .ask ∨ params.method ∉ KEY_METHODS ∨ account.type = .nip46)

theorem asks_tells (params : ValidatedParams) (decision : PermissionDecision) (originKey : String)
    (account : SafeAccount) (authentication : Option AuthenticationRun) :
    Tells (handleProtocol deps call validated) log
      (asks params decision originKey account authentication)
      fun _ asked => asked = false → Waived params decision account authentication := by
  unfold asks
  split
  · next run =>
    refine .pure fun known => ⟨fun other same => ?_, by simp⟩
    cases same
    simpa [Option.isSome_iff_ne_none] using known
  · split
    · unfold needsPrompt
      split
      · next relays =>
        have keyless : params.method ∉ KEY_METHODS := by simp [relays, KEY_METHODS]
        exact .pure fun _ => ⟨by simp, fun _ => .inr (.inl keyless)⟩
      · split
        · next remote =>
          exact .pure fun _ => ⟨by simp, fun _ => .inr (.inr (by simpa using remote.1))⟩
        · split
          · next identity =>
            have keyless : params.method ∉ KEY_METHODS := by simp [identity, KEY_METHODS]
            have waived : Waived params decision account none :=
              ⟨by simp, fun _ => .inr (.inl keyless)⟩
            refine .bind (fun _ _ => True) (.read fun _ => trivial) fun _ _ _ _ => ?_
            split
            · split
              · exact .pure fun _ => waived
              · exact .bind (fun _ _ => True) (.modify trivial) fun _ _ _ _ => .pure (by simp)
            · exact .pure (by simp)
          · exact .pure (by simp)
    · next decided => exact .pure fun _ => ⟨by simp, fun _ => .inl decided⟩

theorem track_tells {P : Protocol signerInterface} {input : TrackInput} {work : Work}
    {told : Log → work.Reply → Prop} (permitted : P.may log (.tracked call input.origin work))
    (holds : ∀ value, told (log ++ [⟨.tracked call input.origin work, .ok value⟩]) value) :
    Tells P log (track call input work) told := by
  have refused : ∀ error, Tells P log (raise (.signer error) : Task work.Reply) told :=
    fun _ => .throw
  have entered : Tells P log (ask (.tracked call input.origin work)) told :=
    .call permitted fun value _ => holds value
  intro core
  dsimp only
  split
  · exact refused _
  · exact entered

def Prompted (call : Nat) (validated : ValidatedRequest) (log : Log)
    (account : SafeAccount) (prepared : PreparedParams)
    (authentication : Option AuthenticationRun) : Prop :=
  ∃ context outcome, outcome.allow = true ∧
    Answered log (.tracked call (permissionOrigin validated.request.origin)
      (.present (disclosedRequest validated.request prepared) account context)) outcome ∧
    ∀ run, authentication = some run →
      ∃ shown scope, context = some shown ∧ outcome.authenticationScope = some scope ∧
        (scope = .once ∨ scope ∈ shown.scopes)

theorem promptUser_tells (rule : Asked) (account : SafeAccount) (prepared : PreparedParams)
    (authentication : Option AuthenticationRun) :
    Tells (handleProtocol deps call validated) log
      (promptUser deps call validated.request (permissionOrigin validated.request.origin) rule
        account validated.params prepared authentication)
      fun later _ => Prompted call validated later account prepared authentication := by
  unfold promptUser
  refine .bind (fun later outcome => Answered later (.tracked call
      (permissionOrigin validated.request.origin) (.present (disclosedRequest validated.request
        prepared) account (authentication.map fun run => ⟨run.auth, run.key, acceptedScopes deps run⟩)))
      outcome) (track_tells trivial fun _ => .last) fun later outcome _ answered => ?_
  split
  · exact .bind _ (tells_of_confined (.onlyIf (rememberRefusal_confined (fun _ free => free) _ _ _ _
      _))) fun _ _ _ _ => .throw
  · next allowed =>
    refine .bind (fun _ _ => ∀ run, authentication = some run → ∃ scope,
      outcome.authenticationScope = some scope ∧
        (scope = .once ∨ scope ∈ acceptedScopes deps run)) ?_ fun later' after extends_ offered => ?_
    · split
      · next run =>
        unfold promptedConsent
        refine .bind (fun _ _ => ∃ scope, outcome.authenticationScope = some scope ∧
          (scope = .once ∨ scope ∈ acceptedScopes deps run)) ?_ fun _ _ _ offered => ?_
        · split
          · next scope stated =>
            split
            · next chosen => exact .pure ⟨scope, stated, chosen⟩
            · exact .throw
          · exact .throw
        · refine .bind _ (tells_of_confined (.setContext _)) fun _ _ _ _ => .pure ?_
          intro other same
          cases same
          exact offered
      · exact .pure (by simp)
    · refine .bind _ (assertStillActive_tells account) fun active _ further _ => ?_
      refine .bind _ (tells_of_confined (.onlyIf (remember_confined (fun _ free => free) _ _ _ _ _)))
        fun _ _ furthest _ => ?_
      refine .bind (fun _ _ => True) (tells_onlyIf (.modify trivial) fun _ => trivial)
        fun _ _ last _ => .pure ⟨_, outcome, by simpa using allowed,
          answered.mono (extends_.trans (further.trans (furthest.trans last))), ?_⟩
      intro run same
      obtain ⟨scope, stated, chosen⟩ := offered run same
      exact ⟨⟨run.auth, run.key, acceptedScopes deps run⟩, scope, by simp [same], stated, chosen⟩

/-! ## The execute step -/

section Execute

variable {account : SafeAccount} {prepared : PreparedParams}

theorem inScope_tells {accessor : Accessor} {fn : Task α} (told : Log → α → Prop)
    (tells : Tells (handleProtocol deps call validated) log fn told) :
    Tells (handleProtocol deps call validated) log (inScope accessor fn) fun _ _ => True := by
  unfold inScope
  refine .bind (fun _ _ => True) (.tryCatch (.bind _ tells fun _ _ _ _ => .pure trivial)
    fun _ _ _ => .pure trivial) fun _ outcome _ _ => ?_
  refine .bind (fun _ _ => True) (.call trivial fun _ _ => trivial) fun _ _ _ _ => ?_
  split
  · exact .pure trivial
  · exact .throw

theorem withPqKeys_tells {fn : PqKeyScope → Task α} (told : Log → α → Prop)
    (tells : ∀ scope later, log <+: later →
      Tells (handleProtocol deps call validated) later (fn scope) told) :
    Tells (handleProtocol deps call validated) log (withPqKeys deps account fn)
      fun _ _ => True := by
  unfold withPqKeys
  split
  · exact .throw
  · refine .bind (fun _ _ => True) (.read fun _ => trivial) fun first _ toFirst _ => ?_
    split
    · exact .throw
    · refine .bind (fun _ _ => True) (.read fun _ => trivial) fun second _ toSecond _ => ?_
      have reached := toFirst.trans toSecond
      split
      · refine .bind (fun _ _ => True) (.call trivial fun _ _ => trivial) fun third _ toThird _ => ?_
        exact inScope_tells told (tells _ _ (reached.trans toThird))
      · refine .bind (fun _ _ => True) (.read fun _ => trivial) fun third _ toThird _ => ?_
        split
        · exact .throw
        · refine .bind (fun _ _ => True) (.call trivial fun _ _ => trivial)
            fun fourth phrase toFourth _ => ?_
          have held := (reached.trans toThird).trans toFourth
          refine inScope_tells (fun _ _ => True) ?_
          split
          · exact .throw
          · refine .bind (fun _ _ => True) (.call trivial fun _ _ => trivial)
              fun fifth _ toFifth _ => ?_
            exact inScope_tells told (tells _ _ (held.trans toFifth))

theorem liftExcept_tells {P : Protocol signerInterface} (value : Except Fault α) :
    Tells P log (liftExcept value) fun _ result => value = .ok result := by
  cases value with
  | ok value => exact .pure rfl
  | error fault => exact .throw

theorem execute_tells {key : String}
    (authorised : Authorised deps call validated log account prepared)
    (held : Answered log (.withPrivkey account.id) key)
    (checked : Answered log (.publicKey key) account.pubkey) :
    Tells (handleProtocol deps call validated) log (execute deps account key prepared)
      fun _ _ => True := by
  have computes : ∀ later computation, log <+: later → Computes prepared computation →
      Tells (handleProtocol deps call validated) later (ask (.compute key computation))
        fun _ _ => True := by
    intro later computation extends_ computed
    exact .call ⟨account, prepared, authorised.mono extends_, held.mono extends_,
      checked.mono extends_, computed⟩ fun _ _ => trivial
  unfold execute
  split
  · refine withPqKeys_tells (fun _ _ => True) fun scope later extends_ => ?_
    exact .bind _ (liftExcept_tells _) fun _ computation further lifted =>
      computes _ computation (extends_.trans further) (.inr ⟨scope.keys, lifted⟩)
  · refine .bind (fun _ _ => True) (.read fun _ => trivial) fun _ now extends_ _ => ?_
    exact .bind _ (liftExcept_tells _) fun _ computation further lifted =>
      computes _ computation (extends_.trans further) (.inl ⟨now, lifted⟩)

theorem signLocally_tells (authorised : Authorised deps call validated log account prepared)
    (owned : account.type ≠ .nip46) :
    Tells (handleProtocol deps call validated) log (signLocally deps account prepared)
      fun _ _ => True := by
  unfold signLocally
  refine .tryCatch ?_ fun _ fault _ => ?_
  · refine .bind (fun later key => Answered later (.withPrivkey account.id) key)
      (.call ⟨account, prepared, authorised, owned, rfl⟩ fun _ _ => .last)
      fun scope key toScope held => ?_
    refine inScope_tells (fun _ _ => True) ?_
    refine .bind (fun later pubkey => Answered later (.publicKey key) pubkey)
      (.call trivial fun _ _ => .last) fun checked pubkey toChecked answered => ?_
    split
    · exact .throw
    · next same =>
      have identity : pubkey = account.pubkey := by simpa using same
      subst identity
      unfold wrapCallback
      refine .tryCatch (execute_tells (authorised.mono (toScope.trans toChecked))
        (held.mono toChecked) answered) fun _ fault _ => ?_
      split
      · exact .throw
      · exact .bind (fun _ _ => True) (.read fun _ => trivial) fun _ _ _ _ => .throw
  · split <;> exact .throw

theorem executeFor_tells
    (authorised : validated.params.method ∈ KEY_METHODS →
      Authorised deps call validated log account prepared) :
    Tells (handleProtocol deps call validated) log
      (executeFor deps call account (decide (account.type = .nip46))
        (permissionOrigin validated.request.origin) validated.request validated.params prepared)
      fun _ _ => True := by
  unfold executeFor
  split
  · exact .pure trivial
  · split
    · exact .bind (fun _ _ => True) (.call trivial fun _ _ => trivial) fun _ _ _ _ => .pure trivial
    · exact .pure trivial
  · next method notIdentity notRelays =>
    have usesKey : validated.params.method ∈ KEY_METHODS := by
      revert notIdentity notRelays
      cases validated.params.method <;> simp [KEY_METHODS]
    split
    · next remote =>
      refine .bind (fun _ _ => True) (track_tells ⟨prepared, authorised usesKey,
        by simpa using remote, rfl, rfl⟩ fun _ => trivial) fun _ answer _ _ => ?_
      split
      · exact .mono (liftExcept_tells _) fun _ _ _ _ => trivial
      · exact .pure trivial
    · next owned => exact signLocally_tells (authorised usesKey) (by simpa using owned)

end Execute

/-! ## A whole request -/

variable {authentication : Option AuthenticationRun}

theorem finish_tells {revokedBefore : Nat} (authorised : validated.params.method ∈ KEY_METHODS →
      Authorised deps call validated log account prepared) :
    Tells (handleProtocol deps call validated) log
      (finish deps call validated.request (permissionOrigin validated.request.origin) account
        validated.params prepared authentication revokedBefore)
      fun later _ => StillActive later account := by
  unfold finish
  refine .bind _ (tells_of_confined (.onlyIf (openVault_confined (fun _ free => free) _ _ _)))
    fun opened _ toOpened _ => ?_
  refine .bind _ (assertStillActive_tells account) fun active _ toActive _ => ?_
  refine .bind _ (tells_of_confined (revalidateAuthentication_confined (fun _ free => free) _ _ _ _
    _)) fun checked _ toChecked _ => ?_
  refine .bind _ (tells_of_confined (saveConsent_confined (fun _ free => free) _ _))
    fun saved _ toSaved _ => ?_
  refine .bind _ (tells_of_confined (.setContext _)) fun ready _ toReady _ => ?_
  have extends_ := (((toOpened.trans toActive).trans toChecked).trans toSaved).trans toReady
  refine .bind _ (executeFor_tells fun usesKey => (authorised usesKey).mono extends_)
    fun executed result _ _ => ?_
  refine .bind _ (assertStillActive_tells account) fun _ _ _ active => ?_
  obtain ⟨current, rfl, id, pubkey⟩ := active
  refine .bind _ (tells_of_confined (revalidateAuthentication_confined (fun _ free => free) _ _ _ _
    _)) fun last _ _ added => .pure ?_
  obtain ⟨added, rfl, idle⟩ := added
  exact ⟨executed, current, added, by simp, id, pubkey, idle⟩

/-- What is known of the authentication of a request once the grant store was asked. -/
def Weighed (deps : SignerCoreDeps) (validated : ValidatedRequest) (log : Log)
    (account : SafeAccount) (authentication : Option AuthenticationRun) : Prop :=
  (∀ run, authentication = some run → Vouched deps validated run ∧ (run.consent = none ∨
    Answered log (.decisionFor account.id run.key run.auth) (some .allow))) ∧
  (authentication = none → isAuthenticationEvent validated.params = false)

theorem consultGrants_tells {parsed : Option AuthenticationRun}
    (vouched : ∀ run, parsed = some run → Vouched deps validated run ∧ run.consent = none)
    (ordinary : parsed = none → isAuthenticationEvent validated.params = false) :
    Tells (handleProtocol deps call validated) log (consultGrants deps call account parsed)
      fun later authentication => Weighed deps validated later account authentication := by
  cases parsed with
  | some run =>
    obtain ⟨vouched, unset⟩ := vouched run rfl
    refine .bind _ (storedConsent_tells vouched unset) fun stored run _ consented => ?_
    refine .bind _ (tells_of_confined (.setContext _)) fun _ _ extends_ _ =>
      .pure ⟨fun other same => ?_, by simp⟩
    cases same
    exact ⟨consented.1, consented.2.imp_right fun answered => answered.mono extends_⟩
  | none => exact .pure ⟨by simp, fun _ => ordinary rfl⟩

theorem Weighed.consented_of_waived (weighed : Weighed deps validated log account authentication)
    (notDenied : decision ≠ .deny)
    (waived : Waived validated.params decision account authentication)
    (usesKey : validated.params.method ∈ KEY_METHODS) :
    Consented deps call validated log account prepared decision := by
  cases authentication with
  | some run =>
    obtain ⟨vouched, consented⟩ := weighed.1 run rfl
    obtain ⟨event, requester, now, signs, -, parsed⟩ := vouched.parsed
    have granted := consented.resolve_left (waived.1 run rfl)
    exact .grant event requester run.key run.auth now signs parsed granted
  | none =>
    have ordinary := weighed.2 rfl
    rcases waived.2 rfl with decided | keyless | nip46
    · cases decision with
      | allow => exact .rule rfl ordinary
      | deny => contradiction
      | ask => contradiction
    · contradiction
    · exact .remote nip46 ordinary

theorem Prompted.consented (prompted : Prompted call validated log account prepared authentication)
    (ordinary : authentication = none → isAuthenticationEvent validated.params = false) :
    Consented deps call validated log account prepared decision := by
  obtain ⟨context, outcome, allowed, answered, offered⟩ := prompted
  refine .prompt context outcome allowed answered fun authenticates => ?_
  cases authentication with
  | some run => exact offered run rfl
  | none => simp [ordinary rfl] at authenticates

theorem run_tells :
    Tells (handleProtocol deps call validated) [] (run deps call validated false)
      fun later _ => ∃ account, later.head? = some ⟨.getActiveAccount, .ok (some account)⟩ ∧
        StillActive later account := by
  unfold run
  dsimp only
  refine .bind (fun later _ => later = []) (.read fun _ => rfl) fun _ revokedBefore _ empty => ?_
  subst empty
  refine .bind (fun later answer => later = [⟨.getActiveAccount, .ok answer⟩])
    (.call trivial fun _ _ => rfl) fun resolved answer _ same => ?_
  subst same
  split
  · exact .throw
  · next account _ =>
    refine .bind _ (tells_of_confined (.setContext _)) fun log1 _ to1 _ => ?_
    refine .bind (fun later decision => Answered later (.check
        (permissionOrigin validated.request.origin) (permissionRule validated.params) account.id)
        decision) (.call trivial fun _ _ => .last) fun log2 decision to2 answered => ?_
    split
    · exact .throw
    · next notDenied =>
      split
      · exact .throw
      · refine .bind _ (parseAuthenticationOf_tells account) fun log3 parsed to3 vouched => ?_
        refine .bind _ (tells_of_confined (.setContext _)) fun log4 _ to4 _ => ?_
        refine .bind _ (consultGrants_tells vouched.1 vouched.2) fun log5 authentication to5 weighed => ?_
        refine .bind _ (prepare_tells account) fun log6 prepared to6 prepares => ?_
        refine .bind _ (asks_tells _ _ _ _ _) fun log7 asked to7 waived => ?_
        have toAsked : log2 <+: log7 := ((to3.trans to4).trans (to5.trans to6)).trans to7
        have toResolved := (to1.trans to2).trans toAsked
        have authorised : ∀ later, log7 <+: later →
            Consented deps call validated later account prepared decision →
            Authorised deps call validated later account prepared := by
          intro later extends_ consented
          refine ⟨?_, prepares, decision, notDenied,
            answered.mono (toAsked.trans extends_), consented⟩
          exact List.singleton_prefix_iff_head?_eq_some.mp (toResolved.trans extends_)
        have finished : ∀ later run, log7 <+: later →
            (validated.params.method ∈ KEY_METHODS →
              Consented deps call validated later account prepared decision) →
            Tells (handleProtocol deps call validated) later
              (finish deps call validated.request (permissionOrigin validated.request.origin)
                account validated.params prepared run revokedBefore)
              fun later _ => ∃ account, later.head? =
                some ⟨.getActiveAccount, .ok (some account)⟩ ∧ StillActive later account := by
          intro later run extends_ consented
          refine .mono (finish_tells fun usesKey => authorised later extends_ (consented usesKey))
            fun last _ further active => ⟨account, ?_, active⟩
          exact List.singleton_prefix_iff_head?_eq_some.mp
            ((toResolved.trans extends_).trans further)
        split
        · refine .bind _ (promptUser_tells _ _ _ _) fun log8 run to8 prompted => ?_
          exact finished log8 run to8 fun _ => prompted.consented weighed.2
        · next skipped =>
          refine finished log7 _ List.prefix_rfl fun usesKey => ?_
          have weighed : Weighed deps validated log7 account authentication :=
            ⟨fun run same => ⟨(weighed.1 run same).1, (weighed.1 run same).2.imp_right
              fun granted => granted.mono (to6.trans to7)⟩, weighed.2⟩
          exact weighed.consented_of_waived notDenied (waived (by simpa using skipped)) usesKey

theorem StillActive.append {added : Log} (active : StillActive log account)
    (idle : ∀ exchange ∈ added, executes exchange.request = false) :
    StillActive (log ++ added) account := by
  obtain ⟨before, current, after, rfl, id, pubkey, quiet⟩ := active
  refine ⟨before, current, after ++ added, by simp, id, pubkey, fun exchange member => ?_⟩
  rcases List.mem_append.mp member with first | last
  · exact quiet exchange first
  · exact idle exchange last

/-- What a result of `handle` comes with. -/
def Returned (log : Log) : Prop :=
  ∃ account, log.head? = some ⟨.getActiveAccount, .ok (some account)⟩ ∧ StillActive log account

theorem Returned.append {added : Log} (returned : Returned log)
    (idle : ∀ exchange ∈ added, executes exchange.request = false) : Returned (log ++ added) := by
  obtain ⟨account, resolved, active⟩ := returned
  have first := List.singleton_prefix_iff_head?_eq_some.mpr resolved
  exact ⟨account, List.singleton_prefix_iff_head?_eq_some.mp (first.trans (List.prefix_append _ _)),
    active.append idle⟩

theorem record_tells {outcome : RecordedOutcome} :
    Tells (handleProtocol deps call validated) log
      (record call validated.request.id validated.request.origin validated.params 0 none outcome)
      fun later _ => ∃ added, later = log ++ added ∧
        ∀ exchange ∈ added, executes exchange.request = false :=
  tells_of_confined (record_confined (fun _ free => free) _ _ _ _ _ _)

theorem handle_tells :
    Tells (handleProtocol deps call validated) [] (handle deps call (.ok validated))
      fun later _ => Returned later := by
  unfold handle
  refine .bind (fun later _ => later = []) (.read fun _ => rfl) fun _ disposed _ empty => ?_
  subst empty
  split
  · exact .throw
  · unfold handleValidated
    refine .tryCatch ?_ fun later fault _ => ?_
    · refine .bind _ run_tells fun ran result _ returned => ?_
      refine .bind _ record_tells fun _ _ _ written => .pure ?_
      obtain ⟨added, rfl, idle⟩ := written
      exact Returned.append returned idle
    · refine .bind (fun _ _ => True) (.read fun _ => trivial) fun _ phase _ _ => ?_
      refine .bind _ (tells_of_confined (toSignerError_confined fault _)) fun _ refusal _ _ => ?_
      exact .bind _ record_tells fun _ _ _ _ => .throw

/-- The protocol of each operation; only `handle` is held to one here. -/
def consentProtocol (deps : SignerCoreDeps) (call : Nat) : SignerOperation → Protocol signerInterface
  | .handle (.ok validated) => handleProtocol deps call validated
  | .handle (.error _) => ⟨fun _ _ => True, fun _ _ => False⟩
  | _ => ⟨fun _ _ => True, fun _ _ => True⟩

def consentEnds : SignerOperation → Log → Except Fault SignerResult → Prop
  | .handle (.ok _), log, .ok _ => Returned log
  | .handle (.error _), _, .ok _ => False
  | _, _, _ => True

theorem method_keeps_consent (operation : SignerOperation) :
    ((signerSystem deps).method call operation).Traced (consentProtocol deps call operation)
      (consentEnds operation) [] := by
  have free : ∀ {β : Type} (task : Task β) (log : Log),
      task.Traced ⟨fun _ _ => True, fun _ _ => True⟩ (fun _ _ => True) log := by
    intro β task log
    induction task generalizing log with
    | finish => trivial
    | access change resume ih => exact fun memory => ih memory log
    | await request resume ih => exact ⟨trivial, fun answer _ => ih answer _⟩
  cases operation with
  | handle input =>
    cases input with
    | ok validated =>
      have wrapped : Tells (handleProtocol deps call validated) []
          (do return .value (← handle deps call (.ok validated)) : Task SignerResult)
          fun later _ => Returned later :=
        .bind _ handle_tells fun later value _ returned => .pure returned
      refine Traced.mono wrapped fun log outcome holds => ?_
      cases outcome with
      | ok value => exact holds.2 value rfl
      | error fault => trivial
    | error error =>
      intro core
      change Traced _ _ ((if core.disposed then refuse .shutdown "Signer shut down"
        else raise (.signer error) : Task Value) >>= _) _
      split <;> trivial
  | handleSelf input =>
    exact (free _ []).mono fun _ outcome _ => by cases outcome <;> trivial
  | handleBatch input =>
    exact (free _ []).mono fun _ outcome _ => by cases outcome <;> trivial

/-- A key is used for a request of `handle` only where its rule does not deny it
and there is a consent to what is executed, and a result is handed back only
while the account it was resolved against is active. -/
theorem handle_uses_key_with_consent {active : Option SafeAccount} {vault : VaultView} {now : Int}
    {config : Config (signerSystem deps)} {self : Nat} {process : Process (signerSystem deps)}
    {input : Boundary ValidatedRequest}
    (reaches : Config.Reaches (fun _ _ => True) (signerStart deps active vault now) config)
    (found : config.processes[self]? = some process) (called : process.operation = .handle input) :
    (∀ before request, process.Requests before request →
      ∃ validated, input = .ok validated ∧ MayUseKey deps self validated before request) ∧
    ∀ result, process.status = .settled (.ok result) →
      Returned (process.log.map Entry.exchange) := by
  have traced := reaches.traced (consentProtocol deps) (fun _ => consentEnds) (fun self operation => method_keeps_consent operation)
    (fun _ operation _ _ _ _ _ _ _ _ => by
      cases operation with
      | handle input => cases input <;> trivial
      | _ => trivial) rfl self process found
  rw [called] at traced
  cases input with
  | ok validated =>
    exact ⟨fun before request asked => ⟨validated, rfl, traced.requests asked⟩,
      fun result settled => traced.settled settled⟩
  | error error =>
    exact ⟨fun before request asked => (traced.requests asked).elim,
      fun result settled => (traced.settled settled).elim⟩

section Example

def hostless : SignerCoreDeps where
  verifyEvent _ := true
  buildAttestationTags _ _ := []
  derivePqKeys _ _ _ := ⟨"", "", "", ""⟩

def shownAccount : SafeAccount := { id := "account", type := .nsec, pubkey := "pubkey" }

def note : EventTemplateInput := { kind := 1, content := "hello", tags := [] }

def noteRequest : ValidatedRequest where
  request :=
    { id := "1", origin := { kind := .web, identifier := "https://a.example" }
      method := .signEvent, params := .event note }
  params := .signEvent note
  method_eq := rfl
  params_eq := rfl
  named := by decide

/-- The call `self` gets these answers, one after the other. -/
def answers (self : Nat) (exchanges : Log) : List (Move (signerSystem deps)) :=
  exchanges.flatMap fun exchange => [.serve self exchange, .deliver self]

def signsNote : List (Move (signerSystem hostless)) :=
  .start (.handle (.ok noteRequest)) :: answers 0
    [⟨.getActiveAccount, .ok none⟩,
      ⟨.check "https://a.example" ⟨.signEvent, some 1⟩ "account", .ok .ask⟩,
      ⟨.tracked 0 "https://a.example" (.present noteRequest.request shownAccount none),
        .ok { allow := true }⟩,
      ⟨.getActiveAccount, .ok none⟩, ⟨.getActiveAccount, .ok none⟩,
      ⟨.withPrivkey "account", .ok "key"⟩, ⟨.publicKey "key", .ok "pubkey"⟩,
      ⟨.compute "key" (.signEvent 1 "hello" [] 7), .ok (.text "signed")⟩,
      ⟨.leave .withPrivkey, .ok ()⟩, ⟨.getActiveAccount, .ok none⟩,
      ⟨.record ⟨"1", 7000, noteRequest.request.origin, .signEvent, some "account", some "pubkey",
        .allow, none, none, none, none, .event 1 (some note)⟩, .ok ()⟩]

def signed (process : Process (signerSystem hostless)) : Bool :=
  match process.operation, process.status with
  | .handle _, .settled (.ok (.value (.text text))) => text = "signed"
  | _, _ => false

theorem handle_uses_key_with_consent_noteRequest :
    ∃ config process input result,
      Config.Reaches (fun _ _ => True)
        (signerStart hostless (some shownAccount) { locked := false } 7000) config ∧
      config.processes[0]? = some process ∧ process.operation = .handle input ∧
      process.status = .settled (.ok result) ∧ Returned (process.log.map Entry.exchange) := by
  have runs : ((signerStart hostless (some shownAccount) { locked := false } 7000).execWhile
      (fun _ _ => True) signsNote).any (fun config => config.processes[0]?.any signed) = true := by
    decide +kernel
  simp only [Option.any_eq_true] at runs
  obtain ⟨config, executed, process, found, settled⟩ := runs
  unfold signed at settled
  split at settled
  · next operation input status text called answered =>
    have reaches := Config.Reaches.of_execWhile executed
    exact ⟨config, process, _, _, reaches, found, called, answered,
      (handle_uses_key_with_consent reaches found called).2 _ answered⟩
  · contradiction

end Example

end NostrWot.Signing
