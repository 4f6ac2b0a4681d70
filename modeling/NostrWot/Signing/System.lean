import NostrWot.Async.Trace
import NostrWot.Signing.Core

namespace NostrWot.Signing

open NostrWot.Data NostrWot.Permissions NostrWot.Async

/-! # The core and its host

The synchronous methods of `SignerCore`, which can run between any two awaits
of its pipeline, and the ports, which answer what they like.
-/

def canonicalOriginKey (key : String) : String :=
  let site := ((canonicalHttpOrigin key).orElse fun _ => canonicalHostname key).getD key
  match key.toList.span (· ≠ ':') with
  | (kind, _ :: identifier) =>
    if kind = "nip46".toList then String.ofList (kind ++ ':' :: toLowerCase identifier)
    else if kind ∈ ["nip55".toList, "lan".toList, "local".toList] then key
    else site
  | (_, []) => site

namespace SignerCore

def clearCooldown (core : SignerCore) (origin : String) : SignerCore :=
  let target := canonicalOriginKey origin
  { core with cooldowns := core.cooldowns.filter fun cooldown => !sameSite cooldown.1 target }

/-- Every key of the queue that names the site of `target`. -/
def rejectSite (queue : ApprovalQueue) (target reason : String) : ApprovalQueue :=
  ((queue.pending.map fun entry => entry.origin).dedup.filter (sameSite · target)).foldl
    (fun queue key => queue.rejectPendingForOrigin key reason) queue

def revokeOrigin (core : SignerCore) (origin reason : String) : SignerCore :=
  let target := canonicalOriginKey origin
  let core := core.clearCooldown target
  { core with
    revocationSerial := core.revocationSerial + 1
    revocations := core.revocations.set target ⟨core.revocationSerial + 1, reason⟩
    queue := rejectSite core.queue target reason
    history := core.history ++ [.revoked target reason] }

def dispose (core : SignerCore) : SignerCore :=
  { core with disposed := true, cooldowns := ∅, revocations := ∅, queue := core.queue.dispose }

def onActiveAccountChanged (core : SignerCore) (previousId nextId : Option String) : SignerCore :=
  let core := { core with cooldowns := ∅ }
  match previousId with
  | some previous =>
    if previous ≠ "" ∧ previousId ≠ nextId then
      { core with queue := core.queue.rejectPendingForAccount previous "Account switched" }
    else core
  | none => core

end SignerCore

structure SignerWorld where
  /-- Whom the identity port answers. -/
  active : Option SafeAccount := none

inductive SignerOperation where
  | handle (input : Boundary ValidatedRequest)
  | handleSelf (input : Boundary ValidatedRequest)
  | handleBatch (input : Boundary ValidatedBatch)

inductive SignerResult where
  | value (value : Value)
  | batch (result : BatchResult)
  deriving DecidableEq

/-- What can happen to a core outside every request. -/
inductive SignerEvent where
  | revokeOrigin (origin reason : String)
  | clearCooldown (origin : String)
  | cancel (origin requestId reason : String)
  | dispose
  | onActiveAccountChanged (previousId nextId : Option String)
  | expire (key : QueueKey)
  | activate (account : Option SafeAccount)
  /-- The vault's state as its synchronous methods answer it. -/
  | vault (view : VaultView)
  | clock (now : Int)

def occur : SignerEvent → SignerCore → SignerWorld → SignerCore × SignerWorld
  | .revokeOrigin origin reason, core, world => (core.revokeOrigin origin reason, world)
  | .clearCooldown origin, core, world => (core.clearCooldown origin, world)
  | .cancel origin requestId reason, core, world =>
    ({ core with queue := core.queue.reject origin requestId reason }, world)
  | .dispose, core, world => (core.dispose, world)
  | .onActiveAccountChanged previousId nextId, core, world =>
    (core.onActiveAccountChanged previousId nextId, world)
  | .expire key, core, world => ({ core with queue := core.queue.expire key }, world)
  | .activate account, core, world =>
    ({ core with history := core.history ++ [.answering account] }, { world with active := account })
  | .vault view, core, world => ({ core with vault := view }, world)
  | .clock now, core, world => ({ core with now }, world)

/-- Whether a prompt's answer is an approval. -/
def Work.approves : (work : Work) → Except Fault work.Reply → Bool
  | .present .., .ok decision | .presentBatch .., .ok decision => decision.allow
  | _, _ => false

/-- A port answers as it chooses; a promise that was settled from outside drops
what its work answers. -/
def answer : (request : SignerCall) → Except Fault request.Reply → SignerCore → SignerWorld →
    Except Fault request.Reply × SignerCore
  | .getActiveAccount, .ok _, core, world => (.ok world.active, core)
  | .yieldToHost, _, core, _ => (.ok (), core)
  | .tracked call origin work, reply, core, _ =>
    match core.queue.settled call with
    | some error => (.error (.signer error), { core with queue := core.queue.hear call })
    | none => (reply, { core with
        queue := core.queue.settle call
        history := if work.approves reply then core.history ++ [.approved origin call]
          else core.history })
  | _, reply, core, _ => (reply, core)

def signerSystem (deps : SignerCoreDeps) : System signerInterface where
  World := SignerWorld
  Choice := Exchange signerInterface
  Event := SignerEvent
  Operation := SignerOperation
  Result := SignerResult
  method call
    | .handle input => do return .value (← handle deps call input)
    | .handleSelf input => do return .value (← handleSelf deps call input)
    | .handleBatch input => do return .batch (← handleBatch deps call input)
  serve request choice core world :=
    if same : choice.request = request then
      let answered := answer request (same ▸ choice.answer) core world
      some (answered.1, answered.2, world)
    else none
  acknowledge _ _ _ world := world
  occur event core world := some (occur event core world)

/-- A core that nothing has happened to. -/
def signerStart (deps : SignerCoreDeps) (active : Option SafeAccount) (vault : VaultView)
    (now : Int) : Config (signerSystem deps) :=
  ⟨⟨{ vault, now }, ⟨active⟩⟩, []⟩

end NostrWot.Signing
