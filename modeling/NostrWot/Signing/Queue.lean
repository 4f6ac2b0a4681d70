import NostrWot.Data.OrderedMap
import NostrWot.Signing.Types

namespace NostrWot.Signing

open NostrWot.Data NostrWot.Permissions

/-! # The pending map

What is waiting, on whom, and when it stops waiting.
-/

inductive PendingKind where
  | approval
  | unlock
  | remote
  deriving DecidableEq, Repr

structure TrackInput where
  id : String
  kind : PendingKind
  origin : String
  accountId : String
  deriving DecidableEq

structure PendingEntry extends TrackInput where
  queuedAt : Int
  deriving DecidableEq

def PendingKind.name : PendingKind → String
  | .approval => "approval"
  | .unlock => "unlock"
  | .remote => "remote"

/-- What an entry is found under: its origin, kind and id in one string. -/
abbrev QueueKey : Type := String

def queueKey (origin id : String) (kind : PendingKind) : QueueKey :=
  origin ++ "\x00" ++ kind.name ++ "\x00" ++ id

def TrackInput.key (input : TrackInput) : QueueKey := queueKey input.origin input.id input.kind

/-- An entry, and the call whose promise it is. -/
structure Tracked where
  entry : PendingEntry
  owner : Nat
  deriving DecidableEq

def MAX_PENDING_PER_ORIGIN : Nat := 5

def MAX_IN_FLIGHT_PER_ORIGIN : Nat := 64

def MAX_IN_FLIGHT_GLOBAL : Nat := 256

structure QueueLimits where
  maxPendingPerOrigin : Nat := MAX_PENDING_PER_ORIGIN
  maxInFlightPerOrigin : Nat := MAX_IN_FLIGHT_PER_ORIGIN
  maxInFlightGlobal : Nat := MAX_IN_FLIGHT_GLOBAL

structure ApprovalQueue where
  limits : QueueLimits := {}
  entries : OrderedMap QueueKey Tracked := ∅
  disposed : Bool := false
  /-- Promises that were settled from outside, until their calls hear of it. -/
  settled : Nat → Option SignerError := fun _ => none

namespace ApprovalQueue

def pending (queue : ApprovalQueue) : List PendingEntry := queue.entries.values.map Tracked.entry

def originCount (queue : ApprovalQueue) (origin : String) : Nat :=
  (queue.pending.filter fun entry => entry.origin = origin).length

def actionableCount (queue : ApprovalQueue) (origin : String) : Nat :=
  (queue.pending.filter fun entry => entry.kind = .approval && entry.origin = origin).length

/-- Why `track` rejects before the work starts. -/
def refusal (queue : ApprovalQueue) (input : TrackInput) : Option SignerError :=
  if queue.disposed then some ⟨.shutdown, "Signer shut down"⟩
  else if queue.entries.has input.key then some ⟨.invalid_request, "Request is already pending"⟩
  else if input.kind = .approval ∧ queue.limits.maxPendingPerOrigin ≤ queue.actionableCount input.origin then
    some ⟨.too_many_pending, "Too many pending requests from this origin"⟩
  else if queue.limits.maxInFlightGlobal ≤ queue.entries.size ∨
      queue.limits.maxInFlightPerOrigin ≤ queue.originCount input.origin then
    some ⟨.too_many_pending, "Too many pending requests"⟩
  else none

/-- The entry that `track` sets once nothing is in the way. -/
def enter (queue : ApprovalQueue) (input : TrackInput) (owner : Nat) (now : Int) : ApprovalQueue :=
  { queue with entries := queue.entries.set input.key ⟨{ input with queuedAt := now }, owner⟩ }

/-- The work of `owner` has answered. -/
def settle (queue : ApprovalQueue) (owner : Nat) : ApprovalQueue :=
  { queue with entries := queue.entries.filter fun entry => entry.2.owner ≠ owner }

/-- The call of `owner` has heard how its promise was settled. -/
def hear (queue : ApprovalQueue) (owner : Nat) : ApprovalQueue :=
  { queue with settled := Function.update queue.settled owner none }

def rejectWhere (queue : ApprovalQueue) (matching : PendingEntry → Bool) (error : SignerError) :
    ApprovalQueue :=
  { queue with
    entries := queue.entries.filter fun entry => !matching entry.2.entry
    settled := fun owner =>
      if queue.entries.values.any fun tracked => tracked.owner = owner && matching tracked.entry then
        some error
      else queue.settled owner }

def reject (queue : ApprovalQueue) (origin requestId reason : String) : ApprovalQueue :=
  queue.rejectWhere (fun entry => entry.origin = origin && entry.id = requestId) ⟨.rejected, reason⟩

def rejectPendingForAccount (queue : ApprovalQueue) (accountId reason : String) : ApprovalQueue :=
  if accountId = "" then queue
  else queue.rejectWhere (fun entry => entry.accountId = accountId) ⟨.account_switched, reason⟩

def rejectPendingForOrigin (queue : ApprovalQueue) (origin reason : String) : ApprovalQueue :=
  if origin = "" then queue
  else queue.rejectWhere (fun entry => entry.origin = origin) ⟨.rejected, reason⟩

def expire (queue : ApprovalQueue) (key : QueueKey) : ApprovalQueue :=
  queue.rejectWhere (fun entry => entry.key = key) ⟨.timeout, "Request timed out"⟩

def dispose (queue : ApprovalQueue) : ApprovalQueue :=
  { queue with disposed := true }.rejectWhere (fun _ => true) ⟨.shutdown, "Signer shut down"⟩

end ApprovalQueue

end NostrWot.Signing
