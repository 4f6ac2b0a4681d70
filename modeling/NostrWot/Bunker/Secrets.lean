import Mathlib.Logic.Function.Basic
import NostrWot.Bunker.Types

namespace NostrWot.Bunker

open NostrWot.Data

/-! # Pairing secrets

A secret names a record that approvals in flight also hold: a record taken out
of the map is still theirs to count down.
-/

abbrev Ref : Type := Nat

structure Secrets where
  secrets : OrderedMap String Ref
  records : Ref → SecretState
  next : Ref
  /-- The earliest expiry among unclaimed secrets. -/
  nextSweepAt : Number

namespace SecretState

def bound (client : String) (record : SecretState) : SecretState :=
  { record with clientPubkey := some client, pending := record.pending + 1 }

/-- One approval fewer pending. -/
def settled (record : SecretState) : SecretState := { record with pending := record.pending - 1 }

/-- The last pending approval is gone, and none was ever confirmed. -/
def freed (record : SecretState) : SecretState :=
  { record with clientPubkey := none, pending := 0 }

def approved (relays : Option (List String)) (record : SecretState) : SecretState :=
  { record.settled with
    confirmed := true, relays := relays.getD record.relays, expiresAt := none }

end SecretState

namespace Secrets

def empty : Secrets where
  secrets := ∅
  records := fun _ => ⟨[], none, false, 0, .bunker, none⟩
  next := 0
  nextSweepAt := .infinity

def get (store : Secrets) (secret : String) : Option SecretState :=
  (store.secrets.get secret).map store.records

def lapsed (record : SecretState) (now : Rat) : Bool :=
  !record.confirmed && record.pending = 0 &&
    match record.expiresAt with
    | some expiresAt => expiresAt.le (.finite now)
    | none => false

def sweepAfter (now : Rat) (next : Number) (record : SecretState) : Number :=
  match record.expiresAt with
  | none => next
  | some expiresAt =>
    if record.confirmed || lapsed record now then next
    else if expiresAt.lt next then
      if record.pending = 0 then expiresAt else expiresAt.max (.finite (now + 1000))
    else next

/-- `#sweep`: drop unclaimed secrets past their expiry.  The snapshot it emits
sweeps again, and finds nothing left to drop. -/
def sweep (store : Secrets) (now : Rat) : Secrets :=
  if Number.lt (.finite now) store.nextSweepAt then store
  else { store with
    secrets := store.secrets.filter fun entry => !lapsed (store.records entry.2) now
    nextSweepAt := (store.secrets.values.map store.records).foldl (sweepAfter now) .infinity }

def scheduleSweep (store : Secrets) (expiresAt : Number) : Secrets :=
  if expiresAt.lt store.nextSweepAt then { store with nextSweepAt := expiresAt } else store

/-- A record rewritten in place. -/
def update (store : Secrets) (ref : Ref) (change : SecretState → SecretState) : Secrets :=
  { store with records := Function.update store.records ref (change (store.records ref)) }

/-- `#secrets.set(secret, record)` of a record made for it. -/
def insert (store : Secrets) (secret : String) (record : SecretState) : Secrets :=
  { store with
    secrets := store.secrets.set secret store.next
    records := Function.update store.records store.next record
    next := store.next + 1 }

def remove (store : Secrets) (secret : String) : Secrets :=
  { store with secrets := store.secrets.delete secret }

/-- One pending approval undone; a record made for a scan goes away with its last. -/
def unbind (store : Secrets) (ref : Ref) (secret : String) : Secrets :=
  let record := (store.records ref).settled
  if record.pending ≤ 0 ∧ record.confirmed = false then
    let freed := store.update ref fun _ => record.freed
    if record.origin = .nostrconnect ∧ store.secrets.get secret = some ref then freed.remove secret
    else freed
  else store.update ref SecretState.settled

/-! ## What stays -/

@[simp] theorem sweep_records (store : Secrets) (now : Rat) :
    (store.sweep now).records = store.records := by
  unfold sweep
  split <;> rfl

@[simp] theorem sweep_next (store : Secrets) (now : Rat) : (store.sweep now).next = store.next := by
  unfold sweep
  split <;> rfl

@[simp] theorem update_records_self (store : Secrets) (ref : Ref)
    (change : SecretState → SecretState) :
    (store.update ref change).records ref = change (store.records ref) :=
  Function.update_self ..

theorem sweep_sublist (store : Secrets) (now : Rat) :
    (store.sweep now).secrets.entries.Sublist store.secrets.entries := by
  unfold sweep
  split
  · exact .refl _
  · exact List.filter_sublist

theorem sweep_get {store : Secrets} {now : Rat} {secret : String} {ref : Ref}
    (found : (store.sweep now).secrets.get secret = some ref) :
    store.secrets.get secret = some ref := by
  rw [OrderedMap.get_eq_some] at found ⊢
  exact (sweep_sublist store now).subset found

@[simp] theorem scheduleSweep_secrets (store : Secrets) (expiresAt : Number) :
    (store.scheduleSweep expiresAt).secrets = store.secrets := by
  unfold scheduleSweep
  split <;> rfl

@[simp] theorem scheduleSweep_records (store : Secrets) (expiresAt : Number) :
    (store.scheduleSweep expiresAt).records = store.records := by
  unfold scheduleSweep
  split <;> rfl

@[simp] theorem scheduleSweep_next (store : Secrets) (expiresAt : Number) :
    (store.scheduleSweep expiresAt).next = store.next := by
  unfold scheduleSweep
  split <;> rfl

/-- The record an approval lets go of. -/
def released (record : SecretState) : SecretState :=
  if record.settled.pending ≤ 0 ∧ record.settled.confirmed = false then record.settled.freed
  else record.settled

theorem unbind_records (store : Secrets) (ref : Ref) (secret : String) :
    (store.unbind ref secret).records =
      Function.update store.records ref (released (store.records ref)) := by
  unfold unbind released
  dsimp only
  split
  · split <;> rfl
  · rfl

@[simp] theorem unbind_next (store : Secrets) (ref : Ref) (secret : String) :
    (store.unbind ref secret).next = store.next := by
  unfold unbind
  dsimp only
  split
  · split <;> rfl
  · rfl

theorem unbind_secrets (store : Secrets) (ref : Ref) (secret : String) :
    (store.unbind ref secret).secrets = store.secrets ∨
      (store.unbind ref secret).secrets = store.secrets.delete secret := by
  unfold unbind
  dsimp only
  split
  · split
    · exact .inr rfl
    · exact .inl rfl
  · exact .inl rfl

end Secrets

end NostrWot.Bunker
