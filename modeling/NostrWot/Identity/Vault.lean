import NostrWot.Data.Value

namespace NostrWot.Identity

open NostrWot.Data

/-! # The vault's session and its brute-force guard

The calls of one `Vault` take turns on its lane. A move starts a call or hands the call at the head
of the lane the answer it awaits; `lock` and the clock move at any time.
-/

/-! ## The guard -/

structure UnlockGuardState where
  failures : Nat
  lockedUntil : Nat
  deriving DecidableEq, Repr

def UNLOCK_FAILURES_PER_LOCKOUT : Nat := 5

def UNLOCK_LOCKOUT_STEPS_MS : List Nat := [60000, 300000, 900000, 1800000]

def emptyGuardState : UnlockGuardState := ⟨0, 0⟩

/-- The step that a number of failures starts, the last one for any larger number. -/
def lockoutStep (failures : Nat) : Nat :=
  UNLOCK_LOCKOUT_STEPS_MS.getD
    (min (failures / UNLOCK_FAILURES_PER_LOCKOUT - 1) (UNLOCK_LOCKOUT_STEPS_MS.length - 1)) 0

def nextGuardState (current : UnlockGuardState) (success : Bool) (now : Nat) : UnlockGuardState :=
  if success then emptyGuardState
  else
    let failures := current.failures + 1
    if failures % UNLOCK_FAILURES_PER_LOCKOUT ≠ 0 then ⟨failures, current.lockedUntil⟩
    else ⟨failures, now + lockoutStep failures⟩

def guardLockoutRemaining (state : UnlockGuardState) (now : Nat) : Nat := state.lockedUntil - now

/-! ## Records -/

def VAULT_PBKDF2_ITERATIONS : Nat := 600000

def LEGACY_VAULT_PBKDF2_ITERATIONS : Nat := 210000

def MIN_PASSWORD_LENGTH : Nat := 8

def iterationsFor (password : String) : Nat :=
  if 0 < utf16Length password then VAULT_PBKDF2_ITERATIONS else LEGACY_VAULT_PBKDF2_ITERATIONS

structure Opened (Payload : Type) where
  payload : Payload
  cacheKeyMinted : Bool

/-- The record format, which `record.ts` and `serialization.ts` own. -/
structure RecordFormat (Record Key Payload : Type) where
  /-- What `openRecord` checks before it derives. -/
  readable : Record → Bool
  iterations : Record → Nat
  /-- What `openRecord` makes of a derived key; `none` when it throws. -/
  decrypt : Record → Key → Option (Opened Payload)
  loadable : Payload → Bool
  /-- The new record with the passkeys that the old one registered. -/
  withPasskeys : Option Record → Record → Record
  isEmpty : Payload → Bool

/-! ## Calls -/

/-- Where a re-seal stands. -/
inductive Reseal (Record Key : Type) where
  | reading
  | deriving (previous : Option Record)
  | storing (record : Record) (key : Key)

/-- Where a save under the held key stands. -/
inductive Saving (Record : Type) where
  | reading
  | storing (record : Record)

/-- The await at which an unlock stands. -/
inductive UnlockPhase (Record Key : Type) where
  | queued
  | readingGuard
  | readingRecord (guard : UnlockGuardState)
  | deriving (guard : UnlockGuardState) (record : Record)
  | charging (guard : UnlockGuardState)
  | clearing (record : Record) (minted : Bool)
  | restoring (record : Record) (minted : Bool)
  | upgrading (stage : Reseal Record Key) (minted : Bool)
  | saving (stage : Saving Record)
  | notifying

inductive CreatePhase (Record Key : Type) where
  | queued
  | deriving
  | storing (record : Record) (key : Key)
  | clearing (key : Key)
  | restoring
  | notifying

inductive DestroyPhase where
  | queued
  | removing
  | clearing
  | notifying

/-- A call on the lane. An unlock that `changePassword` made carries the next password. -/
inductive Job (Record Key Payload : Type) where
  | unlock (password : String) (revision : Nat) (next : Option String)
      (phase : UnlockPhase Record Key)
  | reEncrypt (password : String) (revision : Nat) (stage : Option (Reseal Record Key))
  | create (password : String) (payload : Payload) (revision : Nat) (phase : CreatePhase Record Key)
  | destroy (onlyEmpty : Bool) (phase : DestroyPhase)

inductive Outcome where
  | value (result : Bool)
  | done
  | lockedOut (remaining : Nat)
  | threw (message : String)
  deriving DecidableEq

/-- Why a key is derived: to open the stored record, or to seal a new one. -/
inductive Purpose where
  | attempt
  | sealing
  deriving DecidableEq

/-- What an observer of the store and of the key derivation port sees. -/
inductive Note (Key : Type) where
  | began (purpose : Purpose) (now : Nat)
  | ended (key : Option Key) (now : Nat)
  | charged (guard : UnlockGuardState)
  | cleared

structure Session (Key Payload : Type) where
  payload : Payload
  key : Key

/-- One vault over its store. `trace` and `outcomes` are what an observer has seen, the latest
first. -/
structure Vault (Record Key Payload : Type) where
  now : Nat
  record : Option Record := none
  guard : Option UnlockGuardState := none
  sessionRevision : Nat := 0
  session : Option (Session Key Payload) := none
  lane : List (Job Record Key Payload) := []
  trace : List (Note Key) := []
  outcomes : List Outcome := []

/-- What the call at the head of the lane is answered. A write never fails. -/
inductive Reply (Record Key : Type) where
  | done
  | failed
  | key (key : Key)
  | sealed (record : Record) (key : Key)
  | rewritten (record : Record)

inductive Move (Record Key Payload : Type) where
  | unlock (password : String)
  | changePassword (current next : String)
  | reEncrypt (next : String)
  | create (password : String) (payload : Payload) (distinct : Bool)
  | destroy
  | destroyIfEmpty
  | lock
  | tick (elapsed : Nat)
  | answer (reply : Reply Record Key)

namespace Vault

variable {Record Key Payload : Type} (format : RecordFormat Record Key Payload)

/-- The call at the head of the lane goes on to another await. -/
def stand (vault : Vault Record Key Payload) (job : Job Record Key Payload) :
    Vault Record Key Payload :=
  { vault with lane := job :: vault.lane.tail }

/-- The call at the head of the lane is over. -/
def settle (vault : Vault Record Key Payload) (outcome : Outcome) : Vault Record Key Payload :=
  { vault with lane := vault.lane.tail, outcomes := outcome :: vault.outcomes }

def refuse (vault : Vault Record Key Payload) (message : String) : Vault Record Key Payload :=
  { vault with outcomes := .threw message :: vault.outcomes }

def enqueue (vault : Vault Record Key Payload) (job : Job Record Key Payload) :
    Vault Record Key Payload :=
  { vault with lane := vault.lane ++ [job] }

def note (vault : Vault Record Key Payload) (note : Note Key) : Vault Record Key Payload :=
  { vault with trace := note :: vault.trace }

def invalidateSession (vault : Vault Record Key Payload) : Vault Record Key Payload :=
  { vault with sessionRevision := vault.sessionRevision + 1 }

def lockNow (vault : Vault Record Key Payload) : Vault Record Key Payload :=
  { vault with session := none }

def lock (vault : Vault Record Key Payload) : Vault Record Key Payload :=
  vault.invalidateSession.lockNow

def passwordFault (password what : String) : Option String :=
  if 0 < utf16Length password ∧ utf16Length password < MIN_PASSWORD_LENGTH then
    some (what ++ " must be at least " ++ toString MIN_PASSWORD_LENGTH ++ " characters")
  else none

/-- What `changePassword` and `reEncrypt` refuse of a new password. -/
def nextPasswordFault (next : String) : Option String :=
  if utf16Length next = 0 then some "New password is required" else passwordFault next "Password"

/-! ## The re-seal -/

/-- How one step of a re-seal ends: it awaits again, or it is over, and completed or threw. -/
inductive Resealed (Record Key : Type) where
  | awaits (stage : Reseal Record Key)
  | over (completed : Bool)

def reseal (vault : Vault Record Key Payload) (revision : Nat) :
    Reseal Record Key → Reply Record Key → Option (Vault Record Key Payload × Resealed Record Key)
  | .reading, .done =>
    if revision ≠ vault.sessionRevision then some (vault, .over false)
    else some (vault.note (.began .sealing vault.now), .awaits (.deriving vault.record))
  | .reading, .failed => some (vault, .over false)
  | .deriving previous, .sealed record key =>
    let ended := vault.note (.ended (some key) vault.now)
    if revision ≠ vault.sessionRevision then some (ended, .over false)
    else some (ended, .awaits (.storing (format.withPasskeys previous record) key))
  | .deriving _, .failed => some (vault.note (.ended none vault.now), .over false)
  | .storing record key, .done =>
    let stored := { vault with record := some record }
    if revision ≠ vault.sessionRevision then some (stored, .over false)
    else some ({ stored with session := vault.session.map fun session =>
      { session with key := key } }, .over true)
  | _, _ => none

/-! ## Unlocking -/

/-- An unlock returns; a `changePassword` that made it goes on to `reEncrypt`. -/
def returnUnlock (vault : Vault Record Key Payload) (next : Option String) (result : Bool) :
    Vault Record Key Payload :=
  match next, result with
  | some password, true =>
    if vault.session.isSome then
      { vault with lane := vault.lane.tail ++
          [.reEncrypt password vault.sessionRevision none] }
    else vault.settle (.threw "Vault is locked")
  | _, _ => vault.settle (.value result)

/-- The last part of `unlock`: what listens is told. -/
def notifyUnlock (vault : Vault Record Key Payload) (password : String) (revision : Nat)
    (next : Option String) : Vault Record Key Payload :=
  if revision ≠ vault.sessionRevision then vault.returnUnlock next false
  else vault.stand (.unlock password revision next .notifying)

def saveFailed (vault : Vault Record Key Payload) (revision : Nat) (next : Option String)
    (message : String) : Vault Record Key Payload :=
  if revision ≠ vault.sessionRevision then vault.returnUnlock next false
  else vault.lock.settle (.threw message)

def saveMinted (vault : Vault Record Key Payload) (password : String) (revision : Nat)
    (next : Option String) (minted : Bool) : Vault Record Key Payload :=
  if !minted then vault.notifyUnlock password revision next
  else if revision ≠ vault.sessionRevision then
    vault.saveFailed revision next "Vault session changed"
  else if vault.session.isNone then vault.saveFailed revision next "Vault is locked"
  else vault.stand (.unlock password revision next (.saving .reading))

/-- The record is sealed again when it was sealed with less work. -/
def upgrade (vault : Vault Record Key Payload) (password : String) (revision : Nat)
    (next : Option String) (record : Record) (minted : Bool) : Vault Record Key Payload :=
  if revision ≠ vault.sessionRevision then vault.returnUnlock next false
  else if format.iterations record < iterationsFor password ∧ vault.session.isSome then
    vault.stand (.unlock password revision next (.upgrading .reading minted))
  else vault.saveMinted password revision next minted

def answerUnlock (vault : Vault Record Key Payload) (password : String) (revision : Nat)
    (next : Option String) : UnlockPhase Record Key → Reply Record Key →
    Option (Vault Record Key Payload)
  | .queued, .done =>
    if revision ≠ vault.sessionRevision then some (vault.returnUnlock next false)
    else some (vault.stand (.unlock password revision next .readingGuard))
  | .readingGuard, .done =>
    let guard := vault.guard.getD emptyGuardState
    let remaining := guardLockoutRemaining guard vault.now
    if 0 < remaining then some (vault.settle (.lockedOut remaining))
    else some (vault.stand (.unlock password revision next (.readingRecord guard)))
  | .readingGuard, .failed => some (vault.settle (.threw "The store could not be read"))
  | .readingRecord guard, .done =>
    match vault.record with
    | none => some (vault.settle (.threw "No vault found"))
    | some record =>
      if format.readable record then
        some ((vault.note (.began .attempt vault.now)).stand
          (.unlock password revision next (.deriving guard record)))
      else
        some (vault.stand
          (.unlock password revision next (.charging (nextGuardState guard false vault.now))))
  | .readingRecord _, .failed => some (vault.settle (.threw "The store could not be read"))
  | .deriving guard record, .key key =>
    let ended := vault.note (.ended (some key) vault.now)
    match format.decrypt record key with
    | none =>
      some (ended.stand
        (.unlock password revision next (.charging (nextGuardState guard false vault.now))))
    | some opened =>
      if revision ≠ vault.sessionRevision then some (ended.returnUnlock next false)
      else if format.loadable opened.payload then
        some ({ ended with session := some ⟨opened.payload, key⟩ }.stand
          (.unlock password revision next (.clearing record opened.cacheKeyMinted)))
      else some (ended.settle (.threw "The payload could not be read"))
  | .deriving guard _, .failed =>
    some ((vault.note (.ended none vault.now)).stand
      (.unlock password revision next (.charging (nextGuardState guard false vault.now))))
  | .charging guard, .done =>
    some (({ vault with guard := some guard }.note (.charged guard)).returnUnlock next false)
  | .clearing record minted, .done =>
    some (({ vault with guard := none }.note .cleared).stand
      (.unlock password revision next (.restoring record minted)))
  | .restoring record minted, .done =>
    some (vault.upgrade format password revision next record minted)
  | .restoring _ _, .failed => some (vault.settle (.threw "The store could not be read"))
  | .upgrading stage minted, reply =>
    (vault.reseal format revision stage reply).map fun step =>
      match step.2 with
      | .awaits stage => step.1.stand (.unlock password revision next (.upgrading stage minted))
      | .over _ => step.1.saveMinted password revision next minted
  | .saving .reading, .rewritten record =>
    if revision ≠ vault.sessionRevision then
      some (vault.saveFailed revision next "Vault session changed")
    else some (vault.stand (.unlock password revision next (.saving (.storing record))))
  | .saving .reading, .failed =>
    some (vault.saveFailed revision next "The record could not be saved")
  | .saving (.storing record), .done =>
    some ({ vault with record := some record }.notifyUnlock password revision next)
  | .notifying, .done => some (vault.returnUnlock next true)
  | _, _ => none

/-! ## The other calls -/

def answerReEncrypt (vault : Vault Record Key Payload) (password : String) (revision : Nat) :
    Option (Reseal Record Key) → Reply Record Key → Option (Vault Record Key Payload)
  | none, .done =>
    if revision ≠ vault.sessionRevision then some (vault.settle (.threw "Vault session changed"))
    else if vault.session.isNone then some (vault.settle (.threw "Vault is locked"))
    else some (vault.stand (.reEncrypt password revision (some .reading)))
  | none, _ => none
  | some stage, reply =>
    (vault.reseal format revision stage reply).map fun step =>
      match step.2 with
      | .awaits stage => step.1.stand (.reEncrypt password revision (some stage))
      | .over true => step.1.settle .done
      | .over false => step.1.settle (.threw "The vault could not be sealed")

def answerCreate (vault : Vault Record Key Payload) (password : String) (payload : Payload)
    (revision : Nat) : CreatePhase Record Key → Reply Record Key →
    Option (Vault Record Key Payload)
  | .queued, .done =>
    if revision ≠ vault.sessionRevision then some (vault.settle (.threw "Vault session changed"))
    else some ((vault.note (.began .sealing vault.now)).stand
      (.create password payload revision .deriving))
  | .deriving, .sealed record key =>
    let ended := vault.note (.ended (some key) vault.now)
    if revision ≠ vault.sessionRevision then some (ended.settle (.threw "Vault session changed"))
    else some (ended.stand (.create password payload revision (.storing record key)))
  | .deriving, .failed =>
    some ((vault.note (.ended none vault.now)).settle (.threw "The vault could not be sealed"))
  | .storing record key, .done =>
    some ({ vault with record := some record }.stand
      (.create password payload revision (.clearing key)))
  | .clearing key, .done =>
    let cleared := { vault with guard := none }.note .cleared
    if revision ≠ vault.sessionRevision then
      some (cleared.settle (.threw "Vault session changed"))
    else if format.loadable payload then
      some ({ cleared with session := some ⟨payload, key⟩ }.stand
        (.create password payload revision .restoring))
    else some (cleared.settle (.threw "The payload could not be read"))
  | .restoring, .done => some (vault.stand (.create password payload revision .notifying))
  | .restoring, .failed => some (vault.settle (.threw "The store could not be read"))
  | .notifying, .done => some (vault.settle .done)
  | _, _ => none

/-- What a destroy that is over returns: `destroyIfEmpty` tells that it destroyed. -/
def destroyed (onlyEmpty : Bool) : Outcome := if onlyEmpty then .value true else .done

def answerDestroy (vault : Vault Record Key Payload) (onlyEmpty : Bool) :
    DestroyPhase → Reply Record Key → Option (Vault Record Key Payload)
  | .queued, .done =>
    if !onlyEmpty then some (vault.stand (.destroy onlyEmpty .removing))
    else if vault.session.any fun session => format.isEmpty session.payload then
      some (vault.lock.stand (.destroy onlyEmpty .removing))
    else some (vault.settle (.value false))
  | .removing, .done => some ({ vault with record := none }.stand (.destroy onlyEmpty .clearing))
  | .clearing, .done =>
    some (({ vault with guard := none }.note .cleared).stand (.destroy onlyEmpty .notifying))
  | .notifying, .done => some (vault.lockNow.settle (destroyed onlyEmpty))
  | _, _ => none

def answer (vault : Vault Record Key Payload) (reply : Reply Record Key) :
    Option (Vault Record Key Payload) :=
  match vault.lane with
  | [] => none
  | .unlock password revision next phase :: _ =>
    vault.answerUnlock format password revision next phase reply
  | .reEncrypt password revision stage :: _ =>
    vault.answerReEncrypt format password revision stage reply
  | .create password payload revision phase :: _ =>
    vault.answerCreate format password payload revision phase reply
  | .destroy onlyEmpty phase :: _ => vault.answerDestroy format onlyEmpty phase reply

def step (vault : Vault Record Key Payload) : Move Record Key Payload →
    Option (Vault Record Key Payload)
  | .unlock password => some (vault.enqueue (.unlock password vault.sessionRevision none .queued))
  | .changePassword current next =>
    match nextPasswordFault next with
    | some message => some (vault.refuse message)
    | none => some (vault.enqueue (.unlock current vault.sessionRevision (some next) .queued))
  | .reEncrypt next =>
    match nextPasswordFault next with
    | some message => some (vault.refuse message)
    | none =>
      if vault.session.isNone then some (vault.refuse "Vault is locked")
      else some (vault.enqueue (.reEncrypt next vault.sessionRevision none))
  | .create password payload distinct =>
    match passwordFault password "Password" with
    | some message => some (vault.refuse message)
    | none =>
      if !distinct then some (vault.refuse "Account ids must be unique")
      else
        some (vault.invalidateSession.enqueue
          (.create password payload vault.invalidateSession.sessionRevision .queued))
  | .destroy => some (vault.lock.enqueue (.destroy false .queued))
  | .destroyIfEmpty => some (vault.enqueue (.destroy true .queued))
  | .lock => some vault.lock
  | .tick elapsed => some { vault with now := vault.now + elapsed }
  | .answer reply => vault.answer format reply

end Vault

end NostrWot.Identity
