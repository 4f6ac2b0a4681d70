import NostrWot.Identity.Vault
import NostrWot.Sync.Run

namespace NostrWot.Identity

open NostrWot.Data NostrWot.Sync

/-! # Lockouts

A derivation that checks a password begins only once the lockout that the failures before it
started is over. The guard is read and written under the lane, so what an observer has seen of the
store and of the derivations determines it.
-/

variable {Record Key Payload : Type}

/-! ## What an observer has seen -/

/-- The guard that the notes say is stored, the latest note first. -/
def standing (initial : UnlockGuardState) : List (Note Key) → UnlockGuardState
  | [] => initial
  | .charged guard :: _ => guard
  | .cleared :: _ => emptyGuardState
  | _ :: earlier => standing initial earlier

/-- The failures in a row, after the ones that were stored at first. -/
def consecutiveFailures (initial : Nat) : List (Note Key) → Nat
  | [] => initial
  | .charged _ :: earlier => consecutiveFailures initial earlier + 1
  | .cleared :: _ => 0
  | _ :: earlier => consecutiveFailures initial earlier

def lastEnd : List (Note Key) → Nat
  | [] => 0
  | .ended _ now :: _ => now
  | _ :: earlier => lastEnd earlier

/-- A guard that follows another one after a failure later than `ended`. -/
structure Charges (before after : UnlockGuardState) (ended : Nat) : Prop where
  failures : after.failures = before.failures + 1
  kept : before.lockedUntil ≤ after.lockedUntil
  started : after.failures % UNLOCK_FAILURES_PER_LOCKOUT = 0 →
    ended + lockoutStep after.failures ≤ after.lockedUntil

def Throttled (initial : UnlockGuardState) : List (Note Key) → Prop
  | [] => True
  | .began .attempt now :: earlier =>
    (standing initial earlier).lockedUntil ≤ now ∧ Throttled initial earlier
  | .charged guard :: earlier =>
    Charges (standing initial earlier) guard (lastEnd earlier) ∧ Throttled initial earlier
  | _ :: earlier => Throttled initial earlier

section Trace

variable {initial : UnlockGuardState} {trace : List (Note Key)}

theorem nextGuardState_charges {guard : UnlockGuardState} {now ended : Nat}
    (past : ended ≤ now) (passed : guard.lockedUntil ≤ now) :
    Charges guard (nextGuardState guard false now) ended := by
  unfold nextGuardState
  by_cases between : (guard.failures + 1) % UNLOCK_FAILURES_PER_LOCKOUT ≠ 0
  · simp only [Bool.false_eq_true, if_false, if_pos between]
    exact ⟨rfl, Nat.le_refl _, fun started => absurd started between⟩
  · simp only [Bool.false_eq_true, if_false, if_neg between]
    refine ⟨rfl, ?_, fun _ => ?_⟩
    · exact Nat.le_trans passed (Nat.le_add_right _ _)
    · exact Nat.add_le_add_right past _

theorem Throttled.tail {note : Note Key} (throttled : Throttled initial (note :: trace)) :
    Throttled initial trace := by
  cases note with
  | began purpose now =>
    cases purpose with
    | attempt => exact throttled.2
    | sealing => exact throttled
  | ended key now => exact throttled
  | charged guard => exact throttled.2
  | cleared => exact throttled

theorem Throttled.append {later : List (Note Key)} (throttled : Throttled initial (later ++ trace)) :
    Throttled initial trace := by
  induction later with
  | nil => exact throttled
  | cons note later ih => exact ih throttled.tail

theorem standing_failures (throttled : Throttled initial trace) :
    (standing initial trace).failures = consecutiveFailures initial.failures trace := by
  induction trace with
  | nil => rfl
  | cons note earlier ih =>
    have before := ih throttled.tail
    cases note with
    | charged guard =>
      obtain ⟨charges, -⟩ := throttled
      rw [consecutiveFailures, ← before]
      exact charges.failures
    | cleared => rfl
    | _ => exact before

/-- Until the guard is cleared a lockout only gets longer. -/
theorem standing_lockedUntil {later : List (Note Key)}
    (throttled : Throttled initial (later ++ trace)) (uncleared : ∀ note ∈ later, note ≠ .cleared) :
    (standing initial trace).lockedUntil ≤ (standing initial (later ++ trace)).lockedUntil := by
  induction later with
  | nil => exact Nat.le_refl _
  | cons note later ih =>
    have before := ih throttled.tail fun note member => uncleared note (.tail _ member)
    cases note with
    | charged guard =>
      obtain ⟨charges, -⟩ := throttled
      exact Nat.le_trans before charges.kept
    | cleared => exact absurd rfl (uncleared _ List.mem_cons_self)
    | _ => exact before

theorem Throttled.spaced {later middle earlier : List (Note Key)} {guard : UnlockGuardState}
    {began step : Nat}
    (throttled : Throttled initial
      (later ++ .began .attempt began :: (middle ++ .charged guard :: earlier)))
    (uncleared : ∀ note ∈ middle, note ≠ .cleared)
    (failures : consecutiveFailures initial.failures (.charged guard :: earlier) =
      step * UNLOCK_FAILURES_PER_LOCKOUT) :
    lastEnd earlier + lockoutStep (step * UNLOCK_FAILURES_PER_LOCKOUT) ≤ began := by
  obtain ⟨passed, before⟩ := throttled.append
  have charged := Throttled.append before
  have count : guard.failures = step * UNLOCK_FAILURES_PER_LOCKOUT :=
    (standing_failures charged).trans failures
  obtain ⟨charges, -⟩ := charged
  have started := charges.started (by rw [count, Nat.mul_mod_left])
  rw [count] at started
  exact Nat.le_trans started (Nat.le_trans (standing_lockedUntil before uncleared) passed)

end Trace

/-! ## What a vault keeps -/

section Vault

variable {format : RecordFormat Record Key Payload} {initial : UnlockGuardState}
  {vault after : Vault Record Key Payload}

/-- A call that waits for its turn. -/
def Job.Waits : Job Record Key Payload → Prop
  | .unlock _ _ _ .queued => True
  | .reEncrypt _ _ none => True
  | .create _ _ _ .queued => True
  | .destroy _ .queued => True
  | _ => False

def Vault.currentGuard (vault : Vault Record Key Payload) : UnlockGuardState :=
  vault.guard.getD emptyGuardState

/-- What the call at the head of the lane knows, from where it stands. -/
def Job.Knows (format : RecordFormat Record Key Payload) (vault : Vault Record Key Payload) :
    Job Record Key Payload → Prop
  | .unlock _ _ _ (.readingRecord guard) =>
    guard = vault.currentGuard ∧ guard.lockedUntil ≤ vault.now
  | .unlock _ _ _ (.deriving guard record) =>
    (guard = vault.currentGuard ∧ guard.lockedUntil ≤ vault.now) ∧ vault.record = some record
  | .unlock _ _ _ (.charging guard) => Charges vault.currentGuard guard (lastEnd vault.trace)
  | .unlock _ _ _ (.clearing record _) => vault.record = some record ∧
      ∃ key now earlier opened, vault.trace = .ended (some key) now :: earlier ∧
        format.decrypt record key = some opened
  | _ => True

/-- The guard is the one an observer expects. -/
structure Core (initial : UnlockGuardState) (vault : Vault Record Key Payload) : Prop where
  standing : standing initial vault.trace = vault.currentGuard
  throttled : Throttled initial vault.trace
  ended : lastEnd vault.trace ≤ vault.now

structure Sound (format : RecordFormat Record Key Payload) (initial : UnlockGuardState)
    (vault : Vault Record Key Payload) : Prop extends Core initial vault where
  lane : ∀ job rest, vault.lane = job :: rest → job.Knows format vault ∧ ∀ other ∈ rest, other.Waits

structure Free (initial : UnlockGuardState) (vault : Vault Record Key Payload) : Prop
    extends Core initial vault where
  others : ∀ other ∈ vault.lane.tail, other.Waits

variable {job : Job Record Key Payload}

theorem Job.Waits.knows (waits : job.Waits) :
    job.Knows format vault := by
  unfold Job.Waits at waits
  split at waits <;> trivial

theorem Sound.of_waiting (core : Core initial vault) (waiting : ∀ job ∈ vault.lane, job.Waits) :
    Sound format initial vault := by
  refine ⟨core, fun job rest lane => ?_⟩
  rw [lane] at waiting
  exact ⟨(waiting job List.mem_cons_self).knows, fun other member => waiting other (.tail _ member)⟩

variable {rest : List (Job Record Key Payload)}

theorem Free.of_lane (sound : Sound format initial vault) (lane : vault.lane = job :: rest) :
    Free initial vault := by
  refine ⟨sound.toCore, ?_⟩
  rw [lane]
  exact (sound.lane job rest lane).2

namespace Free

variable (free : Free initial vault)

include free

theorem stand (knows : job.Knows format (vault.stand job)) :
    Sound format initial (vault.stand job) := by
  refine ⟨⟨free.standing, free.throttled, free.ended⟩, fun head rest lane => ?_⟩
  obtain ⟨rfl, rfl⟩ := List.cons.inj lane
  exact ⟨knows, free.others⟩

theorem settle {outcome : Outcome} : Sound format initial (vault.settle outcome) :=
  .of_waiting ⟨free.standing, free.throttled, free.ended⟩ free.others

variable {next : Option String}

theorem returnUnlock {result : Bool} :
    Sound format initial (vault.returnUnlock next result) := by
  unfold Vault.returnUnlock
  split
  · split
    · refine .of_waiting ⟨free.standing, free.throttled, free.ended⟩ fun job member => ?_
      rcases List.mem_append.mp member with before | last
      · exact free.others job before
      · rw [List.mem_singleton.mp last]
        trivial
    · exact free.settle
  · exact free.settle

variable {password : String}

theorem notifyUnlock {revision : Nat} :
    Sound format initial (vault.notifyUnlock password revision next) := by
  unfold Vault.notifyUnlock
  split
  · exact free.returnUnlock
  · exact free.stand trivial

theorem lock : Free initial vault.lock := ⟨⟨free.standing, free.throttled, free.ended⟩, free.others⟩

theorem saveFailed {revision : Nat} {message : String} :
    Sound format initial (vault.saveFailed revision next message) := by
  unfold Vault.saveFailed
  split
  · exact free.returnUnlock
  · exact free.lock.settle

theorem saveMinted {revision : Nat} {minted : Bool} :
    Sound format initial (vault.saveMinted password revision next minted) := by
  unfold Vault.saveMinted
  split
  · exact free.notifyUnlock
  · split
    · exact free.saveFailed
    · split
      · exact free.saveFailed
      · exact free.stand trivial

theorem upgrade {revision : Nat} {record : Record} {minted : Bool} :
    Sound format initial (vault.upgrade format password revision next record minted) := by
  unfold Vault.upgrade
  split
  · exact free.returnUnlock
  · split
    · exact free.stand trivial
    · exact free.saveMinted

theorem began : Free initial (vault.note (.began .sealing vault.now)) :=
  ⟨⟨free.standing, free.throttled, free.ended⟩, free.others⟩

theorem attempted (passed : vault.currentGuard.lockedUntil ≤ vault.now) :
    Free initial (vault.note (.began .attempt vault.now)) := by
  refine ⟨⟨free.standing, ⟨?_, free.throttled⟩, free.ended⟩, free.others⟩
  rw [free.standing]
  exact passed

theorem derived {key : Option Key} : Free initial (vault.note (.ended key vault.now)) :=
  ⟨⟨free.standing, free.throttled, Nat.le_refl _⟩, free.others⟩

theorem charged {guard : UnlockGuardState}
    (charges : Charges vault.currentGuard guard (lastEnd vault.trace)) :
    Free initial ({ vault with guard := some guard }.note (.charged guard)) := by
  refine ⟨⟨rfl, ⟨?_, free.throttled⟩, free.ended⟩, free.others⟩
  rw [free.standing]
  exact charges

theorem cleared : Free initial ({ vault with guard := none }.note .cleared) :=
  ⟨⟨rfl, free.throttled, free.ended⟩, free.others⟩

theorem stored {record : Option Record} : Free initial { vault with record := record } :=
  ⟨⟨free.standing, free.throttled, free.ended⟩, free.others⟩

theorem adopted {session : Option (Session Key Payload)} :
    Free initial { vault with session := session } :=
  ⟨⟨free.standing, free.throttled, free.ended⟩, free.others⟩

theorem reseal {revision : Nat} {stage : Reseal Record Key} {reply : Reply Record Key}
    {result : Vault.Resealed Record Key}
    (resealed : vault.reseal format revision stage reply = some (after, result)) :
    Free initial after := by
  unfold Vault.reseal at resealed
  split at resealed
  · split at resealed <;> cases resealed
    · exact free
    · exact free.began
  · cases resealed
    exact free
  · simp only at resealed
    split at resealed <;> cases resealed <;> exact free.derived
  · cases resealed
    exact free.derived
  · simp only at resealed
    split at resealed <;> cases resealed
    · exact free.stored
    · exact ⟨⟨free.standing, free.throttled, free.ended⟩, free.others⟩
  · contradiction

end Free

variable {next : Option String} {reply : Reply Record Key}

theorem Sound.answerUnlock {password : String} {revision : Nat} {phase : UnlockPhase Record Key}
    (knows : (Job.unlock password revision next phase : Job Record Key Payload).Knows format vault)
    (free : Free initial vault)
    (answered : vault.answerUnlock format password revision next phase reply = some after) :
    Sound format initial after := by
  unfold Vault.answerUnlock at answered
  split at answered
  · split at answered <;> cases answered
    · exact free.returnUnlock
    · exact free.stand trivial
  · simp only at answered
    split at answered <;> cases answered
    · exact free.settle
    · next open_ =>
      refine free.stand ⟨rfl, ?_⟩
      unfold guardLockoutRemaining at open_
      exact Nat.sub_eq_zero_iff_le.mp (Nat.eq_zero_of_not_pos open_)
  · cases answered
    exact free.settle
  · obtain ⟨same, passed⟩ := knows
    split at answered
    · cases answered
      exact free.settle
    · next record held =>
      split at answered <;> cases answered
      · refine (free.attempted (same ▸ passed)).stand ⟨⟨same, passed⟩, held⟩
      · refine free.stand ?_
        rw [same] at passed ⊢
        exact nextGuardState_charges free.ended passed
  · cases answered
    exact free.settle
  · obtain ⟨⟨same, passed⟩, held⟩ := knows
    simp only at answered
    split at answered
    · cases answered
      refine free.derived.stand ?_
      rw [same] at passed ⊢
      exact nextGuardState_charges (Nat.le_refl _) passed
    · next opened decrypted =>
      split at answered
      · cases answered
        exact free.derived.returnUnlock
      · split at answered <;> cases answered
        · exact free.derived.adopted.stand ⟨held, _, _, _, _, rfl, decrypted⟩
        · exact free.derived.settle
  · obtain ⟨⟨same, passed⟩, -⟩ := knows
    cases answered
    refine free.derived.stand ?_
    rw [same] at passed ⊢
    exact nextGuardState_charges (Nat.le_refl _) passed
  · cases answered
    exact (free.charged knows).returnUnlock
  · cases answered
    exact free.cleared.stand trivial
  · cases answered
    exact free.upgrade
  · cases answered
    exact free.settle
  · obtain ⟨⟨resealed, result⟩, done, rfl⟩ := Option.map_eq_some_iff.mp answered
    have free := free.reseal done
    simp only
    split
    · exact free.stand trivial
    · exact free.saveMinted
  · split at answered <;> cases answered
    · exact free.saveFailed
    · exact free.stand trivial
  · cases answered
    exact free.saveFailed
  · cases answered
    exact free.stored.notifyUnlock
  · cases answered
    exact free.returnUnlock
  · contradiction

theorem Sound.answer (sound : Sound format initial vault)
    (answered : vault.answer format reply = some after) : Sound format initial after := by
  unfold Vault.answer at answered
  split at answered
  · contradiction
  · next lane => exact .answerUnlock (sound.lane _ _ lane).1 (.of_lane sound lane) answered
  · next lane =>
    have free := Free.of_lane sound lane
    unfold Vault.answerReEncrypt at answered
    split at answered
    · split at answered
      · cases answered
        exact free.settle
      · split at answered <;> cases answered
        · exact free.settle
        · exact free.stand trivial
    · contradiction
    · obtain ⟨⟨resealed, result⟩, done, rfl⟩ := Option.map_eq_some_iff.mp answered
      have free := free.reseal done
      simp only
      split
      · exact free.stand trivial
      · exact free.settle
      · exact free.settle
  · next lane =>
    have free := Free.of_lane sound lane
    unfold Vault.answerCreate at answered
    split at answered
    · split at answered <;> cases answered
      · exact free.settle
      · exact free.began.stand trivial
    · simp only at answered
      split at answered <;> cases answered
      · exact free.derived.settle
      · exact free.derived.stand trivial
    · cases answered
      exact free.derived.settle
    · cases answered
      exact free.stored.stand trivial
    · simp only at answered
      split at answered
      · cases answered
        exact free.cleared.settle
      · split at answered <;> cases answered
        · exact free.cleared.adopted.stand trivial
        · exact free.cleared.settle
    · cases answered
      exact free.stand trivial
    · cases answered
      exact free.settle
    · cases answered
      exact free.settle
    · contradiction
  · next lane =>
    have free := Free.of_lane sound lane
    unfold Vault.answerDestroy at answered
    split at answered
    · split at answered
      · cases answered
        exact free.stand trivial
      · split at answered <;> cases answered
        · exact free.lock.stand trivial
        · exact free.settle
    · cases answered
      exact free.stored.stand trivial
    · cases answered
      exact free.cleared.stand trivial
    · cases answered
      exact free.adopted.settle
    · contradiction

structure Later (vault after : Vault Record Key Payload) : Prop where
  now : vault.now ≤ after.now
  record : after.record = vault.record
  guard : after.guard = vault.guard
  trace : after.trace = vault.trace
  lane : ∃ arrived, (∀ job ∈ arrived, job.Waits) ∧ after.lane = vault.lane ++ arrived

theorem Job.Knows.later (knows : job.Knows format vault) (later : Later vault after) :
    job.Knows format after := by
  have guard : after.currentGuard = vault.currentGuard := by
    unfold Vault.currentGuard
    rw [later.guard]
  unfold Job.Knows at knows ⊢
  split at knows
  · exact ⟨knows.1.trans guard.symm, Nat.le_trans knows.2 later.now⟩
  · obtain ⟨⟨same, passed⟩, held⟩ := knows
    exact ⟨⟨same.trans guard.symm, Nat.le_trans passed later.now⟩, later.record.trans held⟩
  · simp only [guard, later.trace]
    exact knows
  · simp only [later.record, later.trace]
    exact knows
  · simp_all

theorem Sound.later (sound : Sound format initial vault) (later : Later vault after) :
    Sound format initial after := by
  have guard : after.currentGuard = vault.currentGuard := by
    unfold Vault.currentGuard
    rw [later.guard]
  have core : Core initial after := by
    refine ⟨?_, ?_, ?_⟩
    · rw [later.trace, guard]
      exact sound.standing
    · rw [later.trace]
      exact sound.throttled
    · rw [later.trace]
      exact Nat.le_trans sound.ended later.now
  obtain ⟨arrived, waiting, lane⟩ := later.lane
  cases before : vault.lane with
  | nil =>
    refine .of_waiting core ?_
    rw [lane, before]
    exact waiting
  | cons job rest =>
    obtain ⟨knows, others⟩ := sound.lane job rest before
    refine ⟨core, fun head tail same => ?_⟩
    rw [lane, before] at same
    obtain ⟨rfl, rfl⟩ := List.cons.inj same
    refine ⟨knows.later later, fun other member => ?_⟩
    rcases List.mem_append.mp member with earlier | last
    · exact others other earlier
    · exact waiting other last

theorem Later.refuse {message : String} : Later vault (vault.refuse message) :=
  ⟨Nat.le_refl _, rfl, rfl, rfl, [], nofun, (List.append_nil _).symm⟩

theorem Later.enqueue (waits : job.Waits) :
    Later vault (vault.enqueue job) :=
  ⟨Nat.le_refl _, rfl, rfl, rfl, [job], by simpa using waits, rfl⟩

theorem Later.lock : Later vault vault.lock :=
  ⟨Nat.le_refl _, rfl, rfl, rfl, [], nofun, (List.append_nil _).symm⟩

variable {move : Move Record Key Payload}

theorem step_later (stepped : vault.step format move = some after)
    (calls : ∀ reply, move ≠ .answer reply) : Later vault after := by
  cases move with
  | answer reply => exact absurd rfl (calls reply)
  | unlock password =>
    cases stepped
    exact .enqueue trivial
  | changePassword current next =>
    simp only [Vault.step] at stepped
    split at stepped <;> cases stepped
    · exact .refuse
    · exact .enqueue trivial
  | reEncrypt next =>
    simp only [Vault.step] at stepped
    split at stepped
    · cases stepped
      exact .refuse
    · split at stepped <;> cases stepped
      · exact .refuse
      · exact .enqueue trivial
  | create password payload distinct =>
    simp only [Vault.step] at stepped
    split at stepped
    · cases stepped
      exact .refuse
    · split at stepped <;> cases stepped
      · exact .refuse
      · exact ⟨Nat.le_refl _, rfl, rfl, rfl, [_], by simp [Job.Waits], rfl⟩
  | destroy =>
    cases stepped
    exact ⟨Nat.le_refl _, rfl, rfl, rfl, [_], by simp [Job.Waits], rfl⟩
  | destroyIfEmpty =>
    cases stepped
    exact .enqueue trivial
  | lock =>
    cases stepped
    exact .lock
  | tick elapsed =>
    cases stepped
    exact ⟨Nat.le_add_right _ _, rfl, rfl, rfl, [], nofun, (List.append_nil _).symm⟩

theorem Sound.step {move : Move Record Key Payload} (sound : Sound format initial vault)
    (stepped : vault.step format move = some after) : Sound format initial after := by
  cases move with
  | answer reply => exact sound.answer stepped
  | _ => exact sound.later (step_later stepped fun _ => nofun)

/-- A vault that has just been constructed over its store. -/
def Vault.opened (now : Nat) (record : Option Record) (guard : Option UnlockGuardState) :
    Vault Record Key Payload := { now, record, guard }

theorem Sound.opened (now : Nat) (record : Option Record) (guard : Option UnlockGuardState) :
    Sound format (guard.getD emptyGuardState)
      (Vault.opened now record guard : Vault Record Key Payload) :=
  .of_waiting ⟨rfl, trivial, Nat.zero_le _⟩ nofun

/-! ### What one answer does to the guard -/

/-- The guard is left alone, and no attempt is turned away. -/
structure Leaves (vault after : Vault Record Key Payload) : Prop where
  guard : after.guard = vault.guard
  admitted : ∀ remaining, after.outcomes ≠ .lockedOut remaining :: vault.outcomes

namespace Leaves

theorem same (guard : after.guard = vault.guard) (outcomes : after.outcomes = vault.outcomes) :
    Leaves vault after := by
  refine ⟨guard, fun remaining same => ?_⟩
  rw [outcomes] at same
  exact List.cons_ne_self _ _ same.symm

theorem settle {outcome : Outcome} (open_ : ∀ remaining, outcome ≠ .lockedOut remaining) :
    Leaves vault (vault.settle outcome) := by
  refine ⟨rfl, fun remaining same => ?_⟩
  exact open_ remaining (List.cons.inj same).1

variable {next : Option String}

theorem returnUnlock {result : Bool} :
    Leaves vault (vault.returnUnlock next result) := by
  unfold Vault.returnUnlock
  split
  · split
    · exact same rfl rfl
    · exact settle nofun
  · exact settle nofun

variable {password : String}

theorem notifyUnlock {revision : Nat} :
    Leaves vault (vault.notifyUnlock password revision next) := by
  unfold Vault.notifyUnlock
  split
  · exact returnUnlock
  · exact same rfl rfl

theorem saveFailed {revision : Nat} {message : String} :
    Leaves vault (vault.saveFailed revision next message) := by
  unfold Vault.saveFailed
  split
  · exact returnUnlock
  · have settled : Leaves vault.lock (vault.lock.settle (.threw message)) := settle nofun
    exact ⟨settled.guard, settled.admitted⟩

theorem saveMinted {revision : Nat} {minted : Bool} :
    Leaves vault (vault.saveMinted password revision next minted) := by
  unfold Vault.saveMinted
  split
  · exact notifyUnlock
  · split
    · exact saveFailed
    · split
      · exact saveFailed
      · exact same rfl rfl

theorem upgrade {revision : Nat} {record : Record} {minted : Bool} :
    Leaves vault (vault.upgrade format password revision next record minted) := by
  unfold Vault.upgrade
  split
  · exact returnUnlock
  · split
    · exact same rfl rfl
    · exact saveMinted

theorem behind {middle last : Vault Record Key Payload} (leaves : Leaves middle last)
    (guard : middle.guard = vault.guard) (outcomes : middle.outcomes = vault.outcomes) :
    Leaves vault last :=
  ⟨leaves.guard.trans guard, fun remaining => outcomes ▸ leaves.admitted remaining⟩

theorem reseal {revision : Nat} {stage : Reseal Record Key} {reply : Reply Record Key}
    {result : Vault.Resealed Record Key}
    (resealed : vault.reseal format revision stage reply = some (after, result)) :
    after.guard = vault.guard ∧ after.outcomes = vault.outcomes := by
  unfold Vault.reseal at resealed
  split at resealed
  · split at resealed <;> cases resealed <;> exact ⟨rfl, rfl⟩
  · cases resealed
    exact ⟨rfl, rfl⟩
  · simp only at resealed
    split at resealed <;> cases resealed <;> exact ⟨rfl, rfl⟩
  · cases resealed
    exact ⟨rfl, rfl⟩
  · simp only at resealed
    split at resealed <;> cases resealed <;> exact ⟨rfl, rfl⟩
  · contradiction

end Leaves

/-- What one answer does to the guard: nothing, or the head of the lane turns an attempt away,
charges a failure or clears the guard. -/
inductive Answered (format : RecordFormat Record Key Payload)
    (vault after : Vault Record Key Payload) : Prop
  | leaves (leaves : Leaves vault after)
  | refused {password : String} {revision : Nat} {next : Option String}
      {rest : List (Job Record Key Payload)}
      (lane : vault.lane = .unlock password revision next .readingGuard :: rest)
      (locked : 0 < guardLockoutRemaining vault.currentGuard vault.now)
      (settled : after = vault.settle
        (.lockedOut (guardLockoutRemaining vault.currentGuard vault.now)))
  | charged {guard : UnlockGuardState} (failures : vault.currentGuard.failures < guard.failures)
      (stored : after.guard = some guard)
      (admitted : ∀ remaining, after.outcomes ≠ .lockedOut remaining :: vault.outcomes)
  | cleared {job : Job Record Key Payload} {rest : List (Job Record Key Payload)}
      (lane : vault.lane = job :: rest)
      (cause : (∃ password revision next record minted,
          job = .unlock password revision next (.clearing record minted) ∧
          vault.record = some record ∧ ∃ key now earlier opened,
            vault.trace = .ended (some key) now :: earlier ∧
              format.decrypt record key = some opened) ∨
        (∃ password payload revision key, job = .create password payload revision (.clearing key)) ∨
        ∃ onlyEmpty, job = .destroy onlyEmpty .clearing)
      (admitted : ∀ remaining, after.outcomes ≠ .lockedOut remaining :: vault.outcomes)

open Leaves in
theorem answerUnlock_answered {password : String} {revision : Nat} {phase : UnlockPhase Record Key}
    (lane : vault.lane = .unlock password revision next phase :: rest)
    (knows : (Job.unlock password revision next phase : Job Record Key Payload).Knows format vault)
    (answered : vault.answerUnlock format password revision next phase reply = some after) :
    Answered format vault after := by
  unfold Vault.answerUnlock at answered
  split at answered
  · split at answered <;> cases answered
    · exact .leaves returnUnlock
    · exact .leaves (same rfl rfl)
  · simp only at answered
    split at answered <;> cases answered
    · next locked => exact .refused lane locked rfl
    · exact .leaves (same rfl rfl)
  · cases answered
    exact .leaves (settle nofun)
  · split at answered
    · cases answered
      exact .leaves (settle nofun)
    · split at answered <;> cases answered <;> exact .leaves (same rfl rfl)
  · cases answered
    exact .leaves (settle nofun)
  · simp only at answered
    split at answered
    · cases answered
      exact .leaves (same rfl rfl)
    · split at answered
      · cases answered
        exact .leaves (returnUnlock.behind rfl rfl)
      · split at answered <;> cases answered
        · exact .leaves (same rfl rfl)
        · refine .leaves ((settle ?_).behind rfl rfl)
          exact nofun
  · cases answered
    exact .leaves (same rfl rfl)
  · next guard =>
    cases answered
    let stored := { vault with guard := some guard }.note (.charged guard)
    have left : Leaves stored (stored.returnUnlock next false) := returnUnlock
    refine .charged ?_ left.guard left.admitted
    have charged : guard.failures = vault.currentGuard.failures + 1 := knows.failures
    omega
  · next record minted =>
    cases answered
    exact .cleared lane (.inl ⟨password, revision, next, record, minted, rfl, knows⟩)
      fun remaining same => List.cons_ne_self _ _ same.symm
  · cases answered
    exact .leaves upgrade
  · cases answered
    exact .leaves (settle nofun)
  · obtain ⟨⟨resealed, result⟩, done, rfl⟩ := Option.map_eq_some_iff.mp answered
    obtain ⟨guard, outcomes⟩ := Leaves.reseal done
    simp only
    split
    · exact .leaves (same guard outcomes)
    · exact .leaves (saveMinted.behind guard outcomes)
  · split at answered <;> cases answered
    · exact .leaves saveFailed
    · exact .leaves (same rfl rfl)
  · cases answered
    exact .leaves saveFailed
  · cases answered
    exact .leaves (notifyUnlock.behind rfl rfl)
  · cases answered
    exact .leaves returnUnlock
  · contradiction

open Leaves in
theorem Sound.answered (sound : Sound format initial vault)
    (answered : vault.answer format reply = some after) : Answered format vault after := by
  unfold Vault.answer at answered
  split at answered
  · contradiction
  · next lane => exact answerUnlock_answered lane (sound.lane _ _ lane).1 answered
  · unfold Vault.answerReEncrypt at answered
    split at answered
    · split at answered
      · cases answered
        exact .leaves (settle nofun)
      · split at answered <;> cases answered
        · exact .leaves (settle nofun)
        · exact .leaves (same rfl rfl)
    · contradiction
    · obtain ⟨⟨resealed, result⟩, done, rfl⟩ := Option.map_eq_some_iff.mp answered
      obtain ⟨guard, outcomes⟩ := Leaves.reseal done
      simp only
      split
      · exact .leaves (same guard outcomes)
      · refine .leaves ((settle ?_).behind guard outcomes)
        exact nofun
      · refine .leaves ((settle ?_).behind guard outcomes)
        exact nofun
  · next lane =>
    unfold Vault.answerCreate at answered
    split at answered
    · split at answered <;> cases answered
      · exact .leaves (settle nofun)
      · exact .leaves (same rfl rfl)
    · simp only at answered
      split at answered <;> cases answered
      · refine .leaves ((settle ?_).behind rfl rfl)
        exact nofun
      · exact .leaves (same rfl rfl)
    · cases answered
      refine .leaves ((settle ?_).behind rfl rfl)
      exact nofun
    · cases answered
      exact .leaves (same rfl rfl)
    · refine .cleared lane (.inr (.inl ⟨_, _, _, _, rfl⟩)) ?_
      simp only at answered
      split at answered
      · cases answered
        exact fun _ same => nomatch (List.cons.inj same).1
      · split at answered <;> cases answered
        · exact fun remaining same => List.cons_ne_self _ _ same.symm
        · exact fun _ same => nomatch (List.cons.inj same).1
    · cases answered
      exact .leaves (same rfl rfl)
    · cases answered
      exact .leaves (settle nofun)
    · cases answered
      exact .leaves (settle nofun)
    · contradiction
  · next onlyEmpty phase rest lane =>
    unfold Vault.answerDestroy at answered
    split at answered
    · split at answered
      · cases answered
        exact .leaves (same rfl rfl)
      · split at answered <;> cases answered
        · exact .leaves (same rfl rfl)
        · exact .leaves (settle nofun)
    · cases answered
      exact .leaves (same rfl rfl)
    · cases answered
      exact .cleared lane (.inr (.inr ⟨_, rfl⟩))
        fun remaining same => List.cons_ne_self _ _ same.symm
    · cases answered
      refine .leaves ((settle ?_).behind rfl rfl)
      cases onlyEmpty <;> exact nofun
    · contradiction

theorem step_leaves (stepped : vault.step format move = some after)
    (calls : ∀ reply, move ≠ .answer reply) : Leaves vault after := by
  refine ⟨(step_later stepped calls).guard, fun remaining refused => ?_⟩
  have told : after.outcomes = vault.outcomes ∨
      ∃ message, after.outcomes = .threw message :: vault.outcomes := by
    cases move with
    | answer reply => exact absurd rfl (calls reply)
    | changePassword current next =>
      simp only [Vault.step] at stepped
      split at stepped <;> cases stepped
      · exact .inr ⟨_, rfl⟩
      · exact .inl rfl
    | reEncrypt next =>
      simp only [Vault.step] at stepped
      split at stepped
      · cases stepped
        exact .inr ⟨_, rfl⟩
      · split at stepped <;> cases stepped
        · exact .inr ⟨_, rfl⟩
        · exact .inl rfl
    | create password payload distinct =>
      simp only [Vault.step] at stepped
      split at stepped
      · cases stepped
        exact .inr ⟨_, rfl⟩
      · split at stepped <;> cases stepped
        · exact .inr ⟨_, rfl⟩
        · exact .inl rfl
    | _ =>
      cases stepped
      exact .inl rfl
  rcases told with same | ⟨message, threw⟩
  · rw [same] at refused
    exact List.cons_ne_self _ _ refused.symm
  · rw [threw] at refused
    exact nomatch (List.cons.inj refused).1

/-! ## Lockouts hold in every run -/

/-- The session, the store and what an observer has seen are as before. -/
structure Untouched (vault after : Vault Record Key Payload) : Prop where
  record : after.record = vault.record
  guard : after.guard = vault.guard
  revision : after.sessionRevision = vault.sessionRevision
  session : after.session = vault.session
  trace : after.trace = vault.trace

/-- The moves of an attempt before it knows whether a lockout is running. -/
inductive Approaches (vault : Vault Record Key Payload) : Move Record Key Payload → Prop
  | unlock (password : String) : Approaches vault (.unlock password)
  | changePassword (current next : String) : Approaches vault (.changePassword current next)
  | waits {password : String} {revision : Nat} {next : Option String}
      {rest : List (Job Record Key Payload)} (reply : Reply Record Key)
      (lane : vault.lane = .unlock password revision next .queued :: rest) :
      Approaches vault (.answer reply)
  | asks {password : String} {revision : Nat} {next : Option String}
      {rest : List (Job Record Key Payload)} (reply : Reply Record Key)
      (lane : vault.lane = .unlock password revision next .readingGuard :: rest) :
      Approaches vault (.answer reply)

theorem returnUnlock_untouched {result : Bool} :
    Untouched vault (vault.returnUnlock next result) := by
  unfold Vault.returnUnlock
  split
  · split <;> exact ⟨rfl, rfl, rfl, rfl, rfl⟩
  · exact ⟨rfl, rfl, rfl, rfl, rfl⟩

theorem Approaches.untouched (approaches : Approaches vault move)
    (stepped : vault.step format move = some after) : Untouched vault after := by
  cases approaches with
  | unlock password =>
    cases stepped
    exact ⟨rfl, rfl, rfl, rfl, rfl⟩
  | changePassword current next =>
    simp only [Vault.step] at stepped
    split at stepped <;> cases stepped <;> exact ⟨rfl, rfl, rfl, rfl, rfl⟩
  | waits reply lane =>
    simp only [Vault.step, Vault.answer, lane] at stepped
    cases reply with
    | done =>
      simp only [Vault.answerUnlock] at stepped
      split at stepped <;> cases stepped
      · exact returnUnlock_untouched
      · exact ⟨rfl, rfl, rfl, rfl, rfl⟩
    | _ => contradiction
  | asks reply lane =>
    simp only [Vault.step, Vault.answer, lane] at stepped
    cases reply with
    | done =>
      simp only [Vault.answerUnlock] at stepped
      split at stepped <;> cases stepped <;> exact ⟨rfl, rfl, rfl, rfl, rfl⟩
    | failed =>
      cases stepped
      exact ⟨rfl, rfl, rfl, rfl, rfl⟩
    | _ => contradiction

/-- The moves of a run in which `unlock` and `changePassword` are only called with wrong
passwords. -/
def Guesses (format : RecordFormat Record Key Payload) (vault : Vault Record Key Payload) :
    Move Record Key Payload → Prop
  | .unlock _ | .changePassword _ _ | .lock | .tick _ => True
  | .answer (.key key) => ∀ password revision next guard record rest,
      vault.lane = .unlock password revision next (.deriving guard record) :: rest →
      format.decrypt record key = none
  | .answer _ => True
  | _ => False

/-- An attempt that has not succeeded. -/
def Job.Guessing : Job Record Key Payload → Prop
  | .unlock _ _ _ .queued => True
  | .unlock _ _ _ .readingGuard => True
  | .unlock _ _ _ (.readingRecord _) => True
  | .unlock _ _ _ (.deriving _ _) => True
  | .unlock _ _ _ (.charging _) => True
  | _ => False

structure OnlyGuessed (vault : Vault Record Key Payload) : Prop where
  lane : ∀ job ∈ vault.lane, job.Guessing
  derived : ∀ purpose began, .began purpose began ∈ vault.trace → purpose = .attempt

namespace OnlyGuessed

variable (only : OnlyGuessed vault)

include only

theorem enqueue (guessing : job.Guessing) :
    OnlyGuessed (vault.enqueue job) := by
  refine ⟨fun other member => ?_, only.derived⟩
  rcases List.mem_append.mp member with earlier | last
  · exact only.lane other earlier
  · rw [List.mem_singleton.mp last]
    exact guessing

theorem settle {outcome : Outcome} : OnlyGuessed (vault.settle outcome) :=
  ⟨fun job member => only.lane job (List.mem_of_mem_tail member), only.derived⟩

theorem stand (guessing : job.Guessing) :
    OnlyGuessed (vault.stand job) := by
  refine ⟨fun other member => ?_, only.derived⟩
  rcases List.mem_cons.mp member with rfl | later
  · exact guessing
  · exact only.lane other (List.mem_of_mem_tail later)

theorem note {note : Note Key} (attempt : ∀ purpose began, note = .began purpose began →
    purpose = .attempt) : OnlyGuessed (vault.note note) := by
  refine ⟨only.lane, fun purpose began member => ?_⟩
  rcases List.mem_cons.mp member with same | earlier
  · exact attempt purpose began same.symm
  · exact only.derived purpose began earlier

theorem returnUnlock : OnlyGuessed (vault.returnUnlock next false) := by
  unfold Vault.returnUnlock
  split
  · contradiction
  · exact only.settle

theorem answerUnlock {password : String} {revision : Nat} {phase : UnlockPhase Record Key}
    {reply : Reply Record Key}
    (guessing : (Job.unlock password revision next phase : Job Record Key Payload).Guessing)
    (wrong : ∀ guard record key, phase = .deriving guard record → reply = .key key →
      format.decrypt record key = none)
    (answered : vault.answerUnlock format password revision next phase reply = some after) :
    OnlyGuessed after := by
  unfold Vault.answerUnlock at answered
  split at answered
  · split at answered <;> cases answered
    · exact only.returnUnlock
    · exact only.stand trivial
  · simp only at answered
    split at answered <;> cases answered
    · exact only.settle
    · exact only.stand trivial
  · cases answered
    exact only.settle
  · split at answered
    · cases answered
      exact only.settle
    · split at answered <;> cases answered
      · refine (only.note ?_).stand trivial
        rintro purpose began ⟨⟩
        rfl
      · exact only.stand trivial
  · cases answered
    exact only.settle
  · next guard record key =>
    rw [wrong guard record key rfl rfl] at answered
    cases answered
    refine (only.note ?_).stand trivial
    simp
  · cases answered
    refine (only.note ?_).stand trivial
    simp
  · next guard =>
    cases answered
    have stored : OnlyGuessed { vault with guard := some guard } := ⟨only.lane, only.derived⟩
    refine (stored.note ?_).returnUnlock
    simp
  all_goals first | exact guessing.elim | contradiction

theorem step {move : Move Record Key Payload} (guesses : Guesses format vault move)
    (stepped : vault.step format move = some after) : OnlyGuessed after := by
  cases move with
  | unlock password =>
    cases stepped
    exact only.enqueue trivial
  | changePassword current next =>
    simp only [Vault.step] at stepped
    split at stepped <;> cases stepped
    · exact ⟨only.lane, only.derived⟩
    · exact only.enqueue trivial
  | lock =>
    cases stepped
    exact ⟨only.lane, only.derived⟩
  | tick elapsed =>
    cases stepped
    exact ⟨only.lane, only.derived⟩
  | answer reply =>
    simp only [Vault.step, Vault.answer] at stepped
    cases lane : vault.lane with
    | nil =>
      rw [lane] at stepped
      contradiction
    | cons job rest =>
      have guessing : job.Guessing := only.lane job (by simp [lane])
      rw [lane] at stepped
      cases job with
      | unlock password revision next phase =>
        refine only.answerUnlock guessing ?_ stepped
        rintro guard record key rfl rfl
        exact guesses password revision next guard record rest lane
      | _ => simp [Job.Guessing] at guessing
  | _ => exact guesses.elim

end OnlyGuessed

/-- From a vault that has just been constructed, in every run: an attempt begins only once the
lockout of every fifth failure is over; an attempt that is turned away derives nothing and touches
nothing; and only a password that opens the stored record, `create` and `destroy` lower the count. -/
theorem lockouts_hold {start : Vault Record Key Payload} {now : Nat} {record : Option Record}
    {guard : Option UnlockGuardState} (constructed : start = Vault.opened now record guard)
    {allowed : Vault Record Key Payload → Move Record Key Payload → Prop}
    (run : Reaches (Vault.step format) allowed start vault) :
    (∀ later middle earlier charged began step,
      vault.trace = later ++ .began .attempt began :: (middle ++ .charged charged :: earlier) →
      (∀ note ∈ middle, note ≠ .cleared) →
      consecutiveFailures start.currentGuard.failures (.charged charged :: earlier) =
        step * UNLOCK_FAILURES_PER_LOCKOUT →
      lastEnd earlier + lockoutStep (step * UNLOCK_FAILURES_PER_LOCKOUT) ≤ began) ∧
    ((∀ state move, allowed state move → Guesses format state move) →
      ∀ purpose began, .began purpose began ∈ vault.trace → purpose = .attempt) ∧
    (∀ move after, vault.step format move = some after →
      (Approaches vault move → Untouched vault after) ∧
      (∀ remaining, after.outcomes = .lockedOut remaining :: vault.outcomes →
        Approaches vault move ∧ 0 < remaining ∧
          remaining = guardLockoutRemaining vault.currentGuard vault.now) ∧
      (after.currentGuard.failures < vault.currentGuard.failures →
        ∃ job rest, vault.lane = job :: rest ∧
          ((∃ password revision next stored minted,
              job = .unlock password revision next (.clearing stored minted) ∧
              vault.record = some stored ∧ ∃ key ended earlier opened,
                vault.trace = .ended (some key) ended :: earlier ∧
                  format.decrypt stored key = some opened) ∨
            (∃ password payload revision key,
              job = .create password payload revision (.clearing key)) ∨
            ∃ onlyEmpty, job = .destroy onlyEmpty .clearing))) ∧
    (∀ password revision next rest after,
      vault.lane = .unlock password revision next .readingGuard :: rest →
      0 < guardLockoutRemaining vault.currentGuard vault.now →
      vault.step format (.answer .done) = some after →
      after = vault.settle (.lockedOut (guardLockoutRemaining vault.currentGuard vault.now))) := by
  have sound : Sound format start.currentGuard vault := by
    refine run.invariant ?_ fun state move next sound _ stepped => sound.step stepped
    rw [constructed]
    exact .opened now record guard
  refine ⟨?_, ?_, ?_, ?_⟩
  · intro later middle earlier charged began step seen uncleared failures
    have throttled := sound.throttled
    rw [seen] at throttled
    exact throttled.spaced uncleared failures
  · intro guesses
    have only : OnlyGuessed vault := by
      refine run.invariant ?_ fun state move next only permitted stepped =>
        only.step (guesses state move permitted) stepped
      rw [constructed]
      exact ⟨nofun, nofun⟩
    exact only.derived
  · intro move after stepped
    refine ⟨fun approaches => approaches.untouched stepped, ?_⟩
    by_cases calls : ∀ reply, move ≠ .answer reply
    · have leaves := step_leaves stepped calls
      refine ⟨fun remaining refused => absurd refused (leaves.admitted remaining), fun lowered => ?_⟩
      rw [Vault.currentGuard, leaves.guard] at lowered
      exact absurd lowered (Nat.lt_irrefl _)
    · simp only [not_forall, not_not] at calls
      obtain ⟨reply, rfl⟩ := calls
      cases sound.answered stepped with
      | leaves leaves =>
        refine ⟨fun remaining refused => absurd refused (leaves.admitted remaining),
          fun lowered => ?_⟩
        rw [Vault.currentGuard, leaves.guard] at lowered
        exact absurd lowered (Nat.lt_irrefl _)
      | refused lane locked settled =>
        rw [settled]
        refine ⟨fun remaining refused => ?_, fun lowered => absurd lowered (Nat.lt_irrefl _)⟩
        obtain rfl : _ = remaining := Outcome.lockedOut.inj (List.cons.inj refused).1
        exact ⟨.asks reply lane, locked, rfl⟩
      | charged failures stored admitted =>
        refine ⟨fun remaining refused => absurd refused (admitted remaining), fun lowered => ?_⟩
        rw [Vault.currentGuard, stored] at lowered
        exact absurd failures (Nat.not_lt_of_gt lowered)
      | cleared lane cause admitted =>
        exact ⟨fun remaining refused => absurd refused (admitted remaining),
          fun _ => ⟨_, _, lane, cause⟩⟩
  · intro password revision next rest after lane locked stepped
    simp only [Vault.step, Vault.answer, lane, Vault.answerUnlock] at stepped
    replace locked : 0 < guardLockoutRemaining (vault.guard.getD emptyGuardState) vault.now := locked
    rw [if_pos locked] at stepped
    exact (Option.some.inj stepped).symm

end Vault

section Example

/-- Records that open with one number and hold nothing. -/
def lockedBox : RecordFormat Nat Nat Unit where
  readable := fun _ => true
  iterations := fun _ => VAULT_PBKDF2_ITERATIONS
  decrypt := fun record key => if record = key then some ⟨(), false⟩ else none
  loadable := fun _ => true
  withPasskeys := fun _ record => record
  isEmpty := fun _ => true

def wrongPassword : List (Move Nat Nat Unit) :=
  [.unlock "guess", .answer .done, .answer .done, .answer .done, .tick 1000, .answer (.key 0),
    .answer .done]

def sixAttempts : List (Move Nat Nat Unit) :=
  (List.replicate 5 wrongPassword).flatten ++
    [.tick 60000, .unlock "guess", .answer .done, .answer .done, .answer .done]

/-- The sixth attempt begins a minute after the fifth one ended. -/
theorem lockouts_hold_sixth : ∃ vault earlier,
    exec (Vault.step lockedBox) (Vault.opened 0 (some 7) none) sixAttempts = some vault ∧
    vault.trace = .began .attempt 65000 :: .charged ⟨5, 65000⟩ :: earlier ∧
    lastEnd earlier + 60000 ≤ 65000 := by
  obtain ⟨vault, ran, earlier, seen, fifth⟩ : ∃ vault,
      exec (Vault.step lockedBox) (Vault.opened 0 (some 7) none) sixAttempts = some vault ∧
      ∃ earlier, vault.trace = .began .attempt 65000 :: .charged ⟨5, 65000⟩ :: earlier ∧
        consecutiveFailures 0 (.charged ⟨5, 65000⟩ :: earlier) = 5 := ⟨_, rfl, _, rfl, rfl⟩
  have spaced := (lockouts_hold rfl (.of_exec ran)).1 [] [] earlier ⟨5, 65000⟩ 65000 1 seen nofun fifth
  exact ⟨vault, earlier, ran, seen, spaced⟩

end Example

end NostrWot.Identity
