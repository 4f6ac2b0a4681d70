import NostrWot.Signing.System

namespace NostrWot.Signing

open NostrWot.Data NostrWot.Permissions NostrWot.Async

/-! # What the steps of the pipeline leave alone

Between two awaits a call touches its own context, and the queue where it
enters it.  Only the execute step uses a key.
-/

/-- The requests of the execute step: the local key scope, the remote port and
the relay port. -/
def executes : SignerCall → Bool
  | .withPrivkey _ | .publicKey _ | .compute .. | .leave .withPrivkey | .getRelays _ => true
  | .tracked _ _ (.execute ..) => true
  | _ => false

/-- The vault hands out the material of a post-quantum scope, or takes it back. -/
def opensPqScope : SignerCall → Bool
  | .withImportedPqKeys _ | .withMnemonic _ | .withDerivedSecrets _ => true
  | .leave accessor => accessor ≠ .withPrivkey
  | _ => false

theorem not_executes_of_opensPqScope {request : SignerCall} (opens : opensPqScope request = true) :
    executes request = false := by
  cases request with
  | leave accessor => cases accessor <;> simp_all [opensPqScope, executes]
  | _ => simp_all [opensPqScope, executes]

/-- What a step of `call` leaves as it was. -/
structure Quiet (call : Nat) (before after : SignerCore) : Prop where
  cooldowns : after.cooldowns = before.cooldowns
  revocations : after.revocations = before.revocations
  serial : after.revocationSerial = before.revocationSerial
  disposed : after.disposed = before.disposed
  settled : after.queue.settled = before.queue.settled
  entries : ∀ key tracked, before.queue.entries.get key = some tracked →
    after.queue.entries.get key = some tracked
  history : ∃ shown, after.history = before.history ++ shown ∧
    ∀ happening ∈ shown, ∃ origin, happening = .presented origin call

variable {call : Nat} {allowed : SignerCall → Prop} {deps : SignerCoreDeps} {α : Type}

theorem Quiet.refl (core : SignerCore) : Quiet call core core where
  cooldowns := rfl
  revocations := rfl
  serial := rfl
  disposed := rfl
  settled := rfl
  entries _ _ present := present
  history := ⟨[], by simp⟩

/-- The task stays quiet and makes `allowed` requests only. -/
abbrev Confined (call : Nat) (allowed : SignerCall → Prop) (task : Task α) : Prop :=
  task.Within (Quiet call) allowed

namespace Confined

theorem ask {request : SignerCall} (permitted : allowed request) :
    Confined call allowed (Signing.ask request) := ⟨permitted, fun _ => trivial⟩

@[simp] theorem inspect (view : SignerCore → α) : Confined call allowed (Signing.inspect view) :=
  fun core => ⟨.refl core, trivial⟩

@[simp] theorem raise (fault : Fault) : Confined call allowed (Signing.raise fault : Task α) :=
  trivial

@[simp] theorem refuse (code : SignerErrorCode) (message : String) :
    Confined call allowed (Signing.refuse code message : Task α) := trivial

@[simp] theorem setContext (change : RunContext → RunContext) :
    Confined call allowed (Signing.setContext call change) := by
  intro core
  have same : Quiet call core core := .refl core
  exact ⟨{ same with }, trivial⟩

@[simp] theorem isLocked : Confined call allowed Signing.isLocked := inspect _

@[simp] theorem liftExcept (value : Except Fault α) :
    Confined call allowed (Signing.liftExcept value) := by
  cases value <;> trivial

theorem refusal_none {queue : ApprovalQueue} {input : TrackInput}
    (accepted : queue.refusal input = none) : queue.entries.get input.key = none := by
  unfold ApprovalQueue.refusal at accepted
  split at accepted
  · contradiction
  · split at accepted
    · contradiction
    · next absent => simpa [OrderedMap.has] using absent

theorem track {input : TrackInput} {work : Work}
    (permitted : allowed (.tracked call input.origin work)) :
    Confined call allowed (Signing.track call input work) := by
  intro core
  cases refused : core.queue.refusal input with
  | some error =>
    simp only [refused]
    exact ⟨.refl core, trivial⟩
  | none =>
    simp only [refused]
    have same : Quiet call core core := .refl core
    refine ⟨{ same with entries := ?_, history := ?_ }, permitted, fun _ => trivial⟩
    · intro key tracked present
      have fresh := refusal_none refused
      have other : key ≠ input.key := by
        intro same
        rw [same, fresh] at present
        contradiction
      simp [ApprovalQueue.enter, OrderedMap.get_set, other, present]
    · split
      · exact ⟨[.presented input.origin call], rfl, by simp⟩
      · exact ⟨[], by simp⟩

theorem bind {β : Type} {task : Task α} {next : α → Task β} (first : Confined call allowed task)
    (rest : ∀ value, Confined call allowed (next value)) : Confined call allowed (task >>= next) :=
  Program.Within.bind first rest

theorem tryCatch {task : Task α} {handler : Fault → Task α} (first : Confined call allowed task)
    (rest : ∀ fault, Confined call allowed (handler fault)) :
    Confined call allowed (Program.tryCatch task handler) :=
  Program.Within.tryCatch first rest

theorem onlyIf {condition : Prop} [Decidable condition] {task : Task Unit}
    (confined : Confined call allowed task) :
    Confined call allowed (Signing.onlyIf condition task) := by
  unfold Signing.onlyIf
  split
  · exact confined
  · simp

end Confined

/-! ## The steps before and after the execute step -/

section Steps

variable (free : ∀ request, executes request = false → allowed request)

include free

theorem assertStillActive_confined (shown : SafeAccount) :
    Confined call allowed (assertStillActive shown) := by
  unfold assertStillActive
  refine .bind (.ask (free _ rfl)) fun current => ?_
  split
  · split <;> simp
  · simp

theorem stillWanted_confined (shown : SafeAccount) (originKey : String) (revokedBefore : Nat) :
    Confined call allowed (stillWanted shown originKey revokedBefore) := by
  unfold stillWanted
  refine .bind (.ask (free _ rfl)) fun current => ?_
  split
  · split <;> simp
  · simp

variable (request : SignerRequest)

theorem openVault_confined (originKey : String) (account : SafeAccount) :
    Confined call allowed (openVault deps call request originKey account) := by
  unfold openVault
  refine .bind (by simp) fun locked => ?_
  split
  · simp
  · split
    · simp
    · refine .bind (.track (free _ rfl)) fun _ => .bind (by simp) fun still => ?_
      split <;> simp

theorem openVaultForBatch_confined (batch : SignerBatchRequest) (originKey : String)
    (account : SafeAccount) :
    Confined call allowed (openVaultForBatch deps call batch originKey account) := by
  unfold openVaultForBatch
  refine .bind (by simp) fun locked => ?_
  split
  · simp
  · split
    · simp
    · refine .bind (.track (free _ rfl)) fun _ => .bind (by simp) fun still => ?_
      split <;> simp

theorem resolveRequester_confined (account : SafeAccount) (self : Bool) :
    Confined call allowed (resolveRequester deps request account self) := by
  have attested : Confined call allowed (attestedRequester deps request account) := by
    unfold attestedRequester
    split
    · exact .bind (.ask (free _ rfl)) fun _ => by simp
    · exact .bind (.ask (free _ rfl)) fun _ => by simp
    · simp
  have keyed : ∀ requester, Confined call allowed (requesterKey requester) := by
    intro requester
    unfold requesterKey
    split
    · simp
    · split <;> simp
  unfold resolveRequester
  dsimp only
  split
  · split <;> simp
  · split
    · simp
    · refine .bind attested fun requester => .bind (keyed requester) fun key => ?_
      split <;> simp

omit free in
theorem validateAuthenticationEvent_confined (event : EventTemplateInput) (requester : Requester) :
    Confined call allowed (validateAuthenticationEvent deps event requester) := by
  unfold validateAuthenticationEvent
  refine .bind (by simp) fun now => ?_
  split <;> simp

theorem parseAuthenticationOf_confined (params : ValidatedParams) (account : SafeAccount)
    (self : Bool) :
    Confined call allowed (parseAuthenticationOf deps request params account self) := by
  unfold parseAuthenticationOf
  split
  · split
    · simp
    · refine .bind (resolveRequester_confined free request account self) fun resolved => ?_
      obtain ⟨requester, key⟩ := resolved
      refine .bind (validateAuthenticationEvent_confined _ requester) fun auth => ?_
      split
      · simp
      · exact .bind (.onlyIf (.ask (free _ rfl))) fun _ => by simp
  · simp

theorem revalidateAuthentication_confined (params : ValidatedParams) (account : SafeAccount)
    (prior : Option AuthenticationRun) (revokedBefore : Nat) :
    Confined call allowed
      (revalidateAuthentication deps request params account prior revokedBefore) := by
  have event : ∀ prior, Confined call allowed (recheckEvent deps params prior) := by
    intro prior
    unfold recheckEvent
    split
    · exact .bind (validateAuthenticationEvent_confined _ _) fun _ => by simp
    · simp
  have grant : ∀ prior, Confined call allowed (recheckGrant account prior) := by
    intro prior
    unfold recheckGrant
    refine .bind (.ask (free _ rfl)) fun stored => ?_
    split
    · simp
    · split <;> simp
  unfold revalidateAuthentication
  split
  · simp
  · next prior =>
    refine .bind (by simp) fun disposed => ?_
    split
    · simp
    · refine .bind (parseAuthenticationOf_confined free request params account prior.self)
        fun current => ?_
      split
      · simp
      · refine .bind (.ask (free _ rfl)) fun decision => ?_
        split
        · simp
        · refine .bind (stillWanted_confined free _ _ _) fun wanted => ?_
          split
          · simp
          · refine .bind (by simp) fun disposed => ?_
            split
            · simp
            · refine .bind (by simp) fun locked => ?_
              split
              · simp
              · exact .bind (.onlyIf (grant prior)) fun _ => event prior

theorem saveAuthenticationGrant_confined (run : AuthenticationRun) (scope : AuthenticationScope)
    (account : SafeAccount) (decision : GrantDecision) :
    Confined call allowed (saveAuthenticationGrant deps run scope account decision) := by
  unfold saveAuthenticationGrant
  split
  · simp
  · refine .tryCatch (.ask (free _ rfl)) fun fault => ?_
    split
    · simp
    · split <;> simp
    · simp

theorem rememberAuthenticationDeny_confined (run : AuthenticationRun) (account : SafeAccount) :
    Confined call allowed (rememberAuthenticationDeny deps run account) := by
  unfold rememberAuthenticationDeny
  refine .tryCatch (saveAuthenticationGrant_confined free _ _ _ _) fun fault => ?_
  split
  · split <;> simp
  · simp

variable (originKey : String)

theorem remember_confined (rule : Asked) (outcome : ApprovalDecision) (decision : GrantDecision)
    (account : SafeAccount) :
    Confined call allowed (remember originKey rule outcome decision account) := by
  unfold remember
  split
  · simp
  · exact .ask (free _ rfl)

theorem rememberEach_confined (outcome : ApprovalDecision) (decision : GrantDecision)
    (account : SafeAccount) (saved asked : List Asked) :
    Confined call allowed (rememberEach originKey outcome decision account saved asked) := by
  induction asked generalizing saved with
  | nil => simp [rememberEach]
  | cons rule rest ih =>
    unfold rememberEach
    split
    · exact ih saved
    · exact .bind (.ask (free _ rfl)) fun _ => ih _

omit free in
theorem inScope_confined {accessor : Accessor} {fn : Task α} (left : allowed (.leave accessor))
    (confined : Confined call allowed fn) : Confined call allowed (inScope accessor fn) := by
  unfold inScope
  refine .bind (.tryCatch (.bind confined fun _ => by simp) fun _ => by simp) fun outcome => ?_
  refine .bind (.ask left) fun _ => ?_
  split <;> simp

omit free in
theorem withPqKeys_confined {account : SafeAccount} {fn : PqKeyScope → Task α}
    (opens : ∀ request, opensPqScope request = true → allowed request)
    (confined : ∀ scope, Confined call allowed (fn scope)) :
    Confined call allowed (withPqKeys deps account fn) := by
  unfold withPqKeys
  split
  · simp
  · refine .bind (by simp) fun locked => ?_
    split
    · simp
    · refine .bind (by simp) fun imported => ?_
      split
      · exact .bind (.ask (opens _ rfl)) fun _ => inScope_confined (opens _ rfl) (confined _)
      · refine .bind (by simp) fun mnemonic => ?_
        split
        · simp
        · refine .bind (.ask (opens _ rfl)) fun phrase => inScope_confined (opens _ rfl) ?_
          split
          · simp
          · exact .bind (.ask (opens _ rfl)) fun _ => inScope_confined (opens _ rfl) (confined _)

omit free in
theorem wrapCallback_confined {body : Task α} (confined : Confined call allowed body) :
    Confined call allowed (wrapCallback body) := by
  unfold wrapCallback
  refine .tryCatch confined fun fault => ?_
  split
  · simp
  · exact .bind (by simp) fun _ => by simp

variable (account : SafeAccount)

theorem buildAttestation_confined :
    Confined call allowed (buildAttestation deps account) := by
  unfold buildAttestation
  refine wrapCallback_confined (withPqKeys_confined
    (fun request opens => free request (not_executes_of_opensPqScope opens)) fun scope => ?_)
  exact .bind (by simp) fun _ => by simp

theorem rememberRefusal_confined (rule : Asked) (outcome : ApprovalDecision) (account : SafeAccount)
    (authentication : Option AuthenticationRun) :
    Confined call allowed
      (rememberRefusal deps originKey rule outcome account authentication) := by
  unfold rememberRefusal
  split
  · split
    · simp
    · split
      · exact rememberAuthenticationDeny_confined free _ _
      · exact remember_confined free _ _ _ _ _
  · exact remember_confined free _ _ _ _ _

theorem saveConsent_confined (authentication : Option AuthenticationRun) :
    Confined call allowed (saveConsent deps account authentication) := by
  unfold saveConsent
  split
  · split
    · exact .onlyIf (saveAuthenticationGrant_confined free _ _ _ _)
    · simp
  · simp

omit free in
omit free in
theorem toSignerError_confined (fault : Fault) (phase : RunPhase) :
    Confined call allowed (toSignerError fault phase) := by
  unfold toSignerError
  split
  · simp
  · split <;> simp
  · split
    · refine .bind (by simp) fun locked => ?_
      split <;> simp
    · simp

theorem record_confined (id : String) (origin : RequestOrigin) (params : ValidatedParams)
    (index : Nat) (batchId : Option String) (outcome : RecordedOutcome) :
    Confined call allowed (record call id origin params index batchId outcome) := by
  unfold record
  refine .bind (by simp) fun read => ?_
  exact .tryCatch (.ask (free _ rfl)) fun _ => by simp

theorem consultRules_confined (originKey accountId : String) (consulted asked : List Asked)
    (items : List ValidatedBatchItem) :
    Confined call allowed (consultRules originKey accountId consulted asked items) := by
  induction items generalizing consulted asked with
  | nil => simp [consultRules]
  | cons item rest ih =>
    unfold consultRules
    dsimp only
    split
    · exact ih _ _
    · refine .bind (.ask (free _ rfl)) fun decision => ?_
      split
      · simp
      · exact ih _ _
      · exact ih _ _

theorem prepareBatch_confined (prepared : List PreparedParams) (items : List ValidatedBatchItem) :
    Confined call allowed (prepareBatch deps call account prepared items) := by
  induction items generalizing prepared with
  | nil => simp [prepareBatch]
  | cons item rest ih =>
    unfold prepareBatch
    refine .bind ?_ fun next => .bind (by simp) fun _ => ih _
    split
    · refine .bind (.onlyIf (.ask (free _ rfl))) fun _ => ?_
      exact .bind (buildAttestation_confined free account) fun _ => by simp
    · simp

theorem promptBatch_confined (request : SignerBatchRequest) (originKey : String)
    (account : SafeAccount) (asked : List Asked) (prepared : List PreparedParams) :
    Confined call allowed (promptBatch deps call request originKey account asked prepared) := by
  unfold promptBatch
  split
  · simp
  · split
    · simp
    · refine .bind (.track (free _ rfl)) fun outcome => ?_
      split
      · exact .bind (.onlyIf (rememberEach_confined free _ _ _ _ _ _)) fun _ => by simp
      · refine .bind (assertStillActive_confined free _) fun _ => ?_
        exact .onlyIf (rememberEach_confined free _ _ _ _ _ _)

end Steps

/-! ## The key scope -/

theorem execute_confined {account : SafeAccount} {key : String} {prepared : PreparedParams}
    (opens : ∀ request, opensPqScope request = true → allowed request)
    (computes : ∀ key computation, allowed (.compute key computation)) :
    Confined call allowed (execute deps account key prepared) := by
  unfold execute
  split
  · exact withPqKeys_confined opens fun scope => .bind (by simp) fun _ => .ask (computes _ _)
  · exact .bind (by simp) fun _ => .bind (by simp) fun _ => .ask (computes _ _)

theorem signLocally_confined {account : SafeAccount} {prepared : PreparedParams}
    (opens : ∀ request, opensPqScope request = true → allowed request)
    (computes : ∀ key computation, allowed (.compute key computation))
    (key : allowed (.withPrivkey account.id)) (reads : ∀ key, allowed (.publicKey key))
    (left : allowed (.leave .withPrivkey)) :
    Confined call allowed (signLocally deps account prepared) := by
  unfold signLocally
  refine .tryCatch (.bind (.ask key) fun key => inScope_confined left ?_) fun fault => ?_
  · refine .bind (.ask (reads key)) fun pubkey => ?_
    split
    · simp
    · exact wrapCallback_confined (execute_confined opens computes)
  · split <;> simp

end NostrWot.Signing
