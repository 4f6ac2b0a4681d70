import NostrWot.Signing.Queue
import NostrWot.Signing.Schema

namespace NostrWot.Signing

open NostrWot.Data

/-! # Every request is settled once

The queue taken apart where a host can call back into it: a `fail` aborts its
work, then settles, then tells the host, and `#rejectWhere` fails one entry of
its snapshot after the other.  Any call may come between two of these steps.
-/

/-- How a promise of `track` was settled. -/
inductive Verdict where
  | resolved
  | thrown
  | rejected (error : SignerError)
  deriving DecidableEq

/-- A `fail` that is under way, before or after its `abort`. -/
structure Failing where
  call : Nat
  error : SignerError
  aborted : Bool := false
  deriving DecidableEq

/-- A queue and the calls of `track` that were made to it, numbered in order. -/
structure Desk where
  queue : ApprovalQueue := {}
  calls : List TrackInput := []
  /-- The `settled` flag of each call; a call refused up front has nothing left to settle. -/
  settled : Nat → Bool := fun _ => false
  verdicts : Nat → List Verdict := fun _ => []
  /-- The innermost one first. -/
  underway : List Failing := []

namespace Desk

def finish (desk : Desk) (call : Nat) (verdict : Verdict) : Desk :=
  { desk with
    settled := Function.update desk.settled call true
    verdicts := Function.update desk.verdicts call (desk.verdicts call ++ [verdict]) }

def settle (desk : Desk) (call : Nat) (input : TrackInput) (verdict : Verdict) : Desk :=
  if desk.settled call then desk
  else
    let entries := desk.queue.entries.delete input.key
    { desk with queue := { desk.queue with entries } }.finish call verdict

def track (desk : Desk) (input : TrackInput) (now : Int) : Desk :=
  let called := { desk with calls := desk.calls ++ [input] }
  match desk.queue.refusal input with
  | some error => called.finish desk.calls.length (.rejected error)
  | none => { called with queue := desk.queue.enter input desk.calls.length now }

def rejectWhere (desk : Desk) (matching : PendingEntry → Bool) (error : SignerError) : Desk :=
  let snapshot := desk.queue.entries.values.filter fun tracked => matching tracked.entry
  { desk with
    underway := snapshot.map (fun tracked => ⟨tracked.owner, error, false⟩) ++ desk.underway }

/-- The next step of the innermost `fail`. -/
def proceed (desk : Desk) : Option Desk :=
  match desk.underway with
  | [] => none
  | failing :: rest =>
    match desk.calls[failing.call]? with
    | none => none
    | some input =>
      if failing.aborted then
        some ({ desk with underway := rest }.settle failing.call input (.rejected failing.error))
      else if desk.settled failing.call then some { desk with underway := rest }
      else some { desk with underway := { failing with aborted := true } :: rest }

end Desk

inductive QueueMove where
  | track (input : TrackInput) (now : Int)
  | answer (call : Nat) (resolved : Bool)
  | expire (call : Nat)
  | reject (origin requestId reason : String)
  | rejectPendingForAccount (accountId reason : String)
  | rejectPendingForOrigin (origin reason : String)
  | dispose
  | proceed

namespace Desk

def step (desk : Desk) : QueueMove → Option Desk
  | .track input now => some (desk.track input now)
  | .answer call resolved =>
    (desk.calls[call]?).map fun input =>
      desk.settle call input (if resolved then .resolved else .thrown)
  | .expire call =>
    if call < desk.calls.length then
      some { desk with
        underway := ⟨call, ⟨.timeout, "Request timed out"⟩, false⟩ :: desk.underway }
    else none
  | .reject origin requestId reason =>
    some (desk.rejectWhere (fun entry => entry.origin = origin && entry.id = requestId)
      ⟨.rejected, reason⟩)
  | .rejectPendingForAccount accountId reason =>
    if accountId = "" then some desk
    else some (desk.rejectWhere (fun entry => entry.accountId = accountId)
      ⟨.account_switched, reason⟩)
  | .rejectPendingForOrigin origin reason =>
    if origin = "" then some desk
    else some (desk.rejectWhere (fun entry => entry.origin = origin) ⟨.rejected, reason⟩)
  | .dispose =>
    some ({ desk with queue := { desk.queue with disposed := true } }.rejectWhere (fun _ => true)
      ⟨.shutdown, "Signer shut down"⟩)
  | .proceed => desk.proceed

def run (desk : Desk) : List QueueMove → Option Desk
  | [] => some desk
  | move :: rest => (desk.step move).bind fun next => next.run rest

/-- A queue that nothing has been asked of. -/
def opened (limits : QueueLimits) : Desk := { queue := { limits } }

def Pends (desk : Desk) (call : Nat) : Prop :=
  call ∈ desk.queue.entries.values.map Tracked.owner

instance (desk : Desk) (call : Nat) : Decidable (desk.Pends call) :=
  inferInstanceAs (Decidable (_ ∈ _))

def unsettled (desk : Desk) : List Nat :=
  (List.range desk.calls.length).filter fun call => !desk.settled call

end Desk

/-! ## What the map and the flags say of each other -/

/-- The pending map holds the calls that are not settled, each under its own key,
and a call has a verdict once it is settled. -/
structure Coherent (desk : Desk) : Prop where
  kept : ∀ key tracked, desk.queue.entries.get key = some tracked →
    desk.calls[tracked.owner]? = some tracked.entry.toTrackInput ∧
      key = tracked.entry.key ∧ desk.settled tracked.owner = false
  waiting : ∀ call input, desk.calls[call]? = some input → desk.settled call = false →
    ∃ tracked, desk.queue.entries.get input.key = some tracked ∧ tracked.owner = call
  once : ∀ call, call < desk.calls.length →
    (desk.verdicts call).length = if desk.settled call then 1 else 0
  unborn : ∀ call, desk.calls.length ≤ call → desk.settled call = false ∧ desk.verdicts call = []
  known : ∀ failing ∈ desk.underway, failing.call < desk.calls.length

structure Capped (limits : QueueLimits) (queue : ApprovalQueue) : Prop where
  same : queue.limits = limits
  approvals : ∀ origin, queue.actionableCount origin ≤ limits.maxPendingPerOrigin
  origins : ∀ origin, queue.originCount origin ≤ limits.maxInFlightPerOrigin
  overall : queue.entries.size ≤ limits.maxInFlightGlobal

namespace Coherent

variable {desk : Desk} {limits : QueueLimits}

theorem opened (limits : QueueLimits) : Coherent (.opened limits) where
  kept := by
    intro key tracked found
    contradiction
  waiting := by
    intro call input found
    contradiction
  once := by
    intro call inside
    contradiction
  unborn := fun _ _ => ⟨rfl, rfl⟩
  known := by
    intro failing member
    contradiction

theorem settle (coherent : Coherent desk) {call : Nat} {input : TrackInput}
    (called : desk.calls[call]? = some input) (verdict : Verdict) :
    Coherent (desk.settle call input verdict) := by
  unfold Desk.settle
  cases flag : desk.settled call with
  | true => exact coherent
  | false =>
    have inside : call < desk.calls.length := (List.getElem?_eq_some_iff.mp called).1
    obtain ⟨own, found, owner⟩ := coherent.waiting call input called flag
    simp only [Desk.finish, Bool.false_eq_true, if_false]
    constructor
    · intro key tracked held
      simp only [OrderedMap.get_delete] at held
      split at held
      · contradiction
      · next other =>
        obtain ⟨known, keyed, open_⟩ := coherent.kept key tracked held
        have apart : tracked.owner ≠ call := by
          intro same
          rw [same, called] at known
          cases known
          exact other keyed
        simp only [Function.update_of_ne apart]
        exact ⟨known, keyed, open_⟩
    · intro other asked known open_
      have apart : other ≠ call := by
        intro same
        rw [same] at open_
        simp at open_
      simp only [Function.update_of_ne apart] at open_
      obtain ⟨tracked, held, owned⟩ := coherent.waiting other asked known open_
      refine ⟨tracked, ?_, owned⟩
      simp only [OrderedMap.get_delete]
      have elsewhere : asked.key ≠ input.key := by
        intro same
        rw [same, found] at held
        cases held
        exact apart (owned.symm.trans owner)
      rw [if_neg elsewhere]
      exact held
    · intro other below
      by_cases same : other = call
      · subst same
        have before := coherent.once other inside
        rw [flag] at before
        simp at before
        simp [before]
      · simp only [Function.update_of_ne same]
        exact coherent.once other below
    · intro other beyond
      have apart : other ≠ call := by
        intro same
        rw [same] at beyond
        exact absurd inside (Nat.not_lt.mpr beyond)
      simp only [Function.update_of_ne apart]
      exact coherent.unborn other beyond
    · exact coherent.known

theorem not_refused (queue : ApprovalQueue) {input : TrackInput}
    (accepted : queue.refusal input = none) :
    queue.entries.get input.key = none ∧
      (input.kind = .approval →
        queue.actionableCount input.origin < queue.limits.maxPendingPerOrigin) ∧
      queue.entries.size < queue.limits.maxInFlightGlobal ∧
      queue.originCount input.origin < queue.limits.maxInFlightPerOrigin := by
  unfold ApprovalQueue.refusal at accepted
  split at accepted
  · contradiction
  · split at accepted
    · contradiction
    · next absent =>
      split at accepted
      · contradiction
      · next roomy =>
        split at accepted
        · contradiction
        · next open_ =>
          refine ⟨by simpa [OrderedMap.has] using absent, ?_, by omega, by omega⟩
          intro approval
          exact Nat.lt_of_not_le fun full => roomy ⟨approval, full⟩

theorem track (coherent : Coherent desk) (input : TrackInput) (now : Int) :
    Coherent (desk.track input now) := by
  have fresh := coherent.unborn desk.calls.length (Nat.le_refl _)
  have older : ∀ (call : Nat) (asked : TrackInput), desk.calls[call]? = some asked →
      (desk.calls ++ [input])[call]? = some asked := by
    intro call asked found
    rw [List.getElem?_append_left (List.getElem?_eq_some_iff.mp found).1]
    exact found
  have either : ∀ (call : Nat) (asked : TrackInput), (desk.calls ++ [input])[call]? = some asked →
      desk.calls[call]? = some asked ∨ (call = desk.calls.length ∧ asked = input) := by
    intro call asked found
    rw [List.getElem?_append] at found
    split at found
    · exact .inl found
    · rw [List.getElem?_singleton] at found
      split at found
      · cases found
        exact .inr ⟨by omega, rfl⟩
      · contradiction
  unfold Desk.track
  cases refused : desk.queue.refusal input with
  | some error =>
    simp only [Desk.finish]
    constructor
    · intro key tracked held
      obtain ⟨known, keyed, open_⟩ := coherent.kept key tracked held
      have apart : tracked.owner ≠ desk.calls.length :=
        Nat.ne_of_lt (List.getElem?_eq_some_iff.mp known).1
      simp only [Function.update_of_ne apart]
      exact ⟨older _ _ known, keyed, open_⟩
    · intro call asked known open_
      rcases either call asked known with before | ⟨same, -⟩
      · have apart : call ≠ desk.calls.length :=
          Nat.ne_of_lt (List.getElem?_eq_some_iff.mp before).1
        simp only [Function.update_of_ne apart] at open_
        exact coherent.waiting call asked before open_
      · rw [same] at open_
        simp at open_
    · intro call below
      rw [List.length_append, List.length_singleton] at below
      by_cases same : call = desk.calls.length
      · subst same
        simp [fresh.2]
      · simp only [Function.update_of_ne same]
        exact coherent.once call (by omega)
    · intro call beyond
      rw [List.length_append, List.length_singleton] at beyond
      have apart : call ≠ desk.calls.length := by omega
      simp only [Function.update_of_ne apart]
      exact coherent.unborn call (by omega)
    · intro failing member
      rw [List.length_append]
      exact Nat.lt_add_right _ (coherent.known failing member)
  | none =>
    have absent := (not_refused desk.queue refused).1
    simp only [ApprovalQueue.enter]
    constructor
    · intro key tracked held
      simp only [OrderedMap.get_set] at held
      split at held
      · next same =>
        cases held
        exact ⟨by simp, same, fresh.1⟩
      · obtain ⟨known, keyed, open_⟩ := coherent.kept key tracked held
        exact ⟨older _ _ known, keyed, open_⟩
    · intro call asked known open_
      simp only [OrderedMap.get_set]
      rcases either call asked known with before | ⟨rfl, rfl⟩
      · obtain ⟨tracked, held, owned⟩ := coherent.waiting call asked before open_
        refine ⟨tracked, ?_, owned⟩
        have apart : asked.key ≠ input.key := by
          intro same
          rw [same, absent] at held
          contradiction
        rw [if_neg apart]
        exact held
      · exact ⟨_, by rw [if_pos rfl], rfl⟩
    · intro call below
      rw [List.length_append, List.length_singleton] at below
      by_cases same : call = desk.calls.length
      · subst same
        simp [fresh]
      · exact coherent.once call (by omega)
    · intro call beyond
      rw [List.length_append, List.length_singleton] at beyond
      exact coherent.unborn call (by omega)
    · intro failing member
      rw [List.length_append]
      exact Nat.lt_add_right _ (coherent.known failing member)

theorem owner_known (coherent : Coherent desk) {tracked : Tracked}
    (member : tracked ∈ desk.queue.entries.values) : tracked.owner < desk.calls.length := by
  obtain ⟨entry, held, same⟩ := List.mem_map.mp member
  subst same
  have found := OrderedMap.get_eq_some.mpr held
  exact (List.getElem?_eq_some_iff.mp (coherent.kept _ _ found).1).1

theorem rejectWhere (coherent : Coherent desk) (matching : PendingEntry → Bool)
    (error : SignerError) : Coherent (desk.rejectWhere matching error) := by
  refine { coherent with known := ?_ }
  intro failing member
  simp only [Desk.rejectWhere, List.mem_append, List.mem_map, List.mem_filter] at member
  rcases member with ⟨tracked, ⟨held, -⟩, rfl⟩ | before
  · exact coherent.owner_known held
  · exact coherent.known failing before

theorem proceed (coherent : Coherent desk) {next : Desk} (stepped : desk.proceed = some next) :
    Coherent next := by
  unfold Desk.proceed at stepped
  split at stepped
  · contradiction
  · next failing rest found =>
    have known : ∀ other ∈ failing :: rest, other.call < desk.calls.length := by
      rw [← found]
      exact coherent.known
    have others : Coherent { desk with underway := rest } :=
      { coherent with known := fun other member => known other (List.mem_cons_of_mem _ member) }
    split at stepped
    · contradiction
    · next input called =>
      split at stepped
      · cases stepped
        exact others.settle called _
      · split at stepped
        · cases stepped
          exact others
        · cases stepped
          refine { coherent with known := ?_ }
          intro other member
          rcases List.mem_cons.mp member with same | before
          · rw [same]
            exact known failing List.mem_cons_self
          · exact known other (List.mem_cons_of_mem _ before)

theorem step (coherent : Coherent desk) {move : QueueMove} {next : Desk}
    (stepped : desk.step move = some next) : Coherent next := by
  cases move with
  | track input now =>
    cases stepped
    exact coherent.track input now
  | answer call resolved =>
    obtain ⟨input, called, rfl⟩ := Option.map_eq_some_iff.mp stepped
    exact coherent.settle called _
  | expire call =>
    simp only [Desk.step] at stepped
    split at stepped
    · next below =>
      cases stepped
      refine { coherent with known := ?_ }
      intro failing member
      rcases List.mem_cons.mp member with same | before
      · rw [same]
        exact below
      · exact coherent.known failing before
    · contradiction
  | reject origin requestId reason =>
    cases stepped
    exact coherent.rejectWhere _ _
  | rejectPendingForAccount accountId reason =>
    simp only [Desk.step] at stepped
    split at stepped <;> cases stepped
    · exact coherent
    · exact coherent.rejectWhere _ _
  | rejectPendingForOrigin origin reason =>
    simp only [Desk.step] at stepped
    split at stepped <;> cases stepped
    · exact coherent
    · exact coherent.rejectWhere _ _
  | dispose =>
    cases stepped
    have disposed : Coherent { desk with queue := { desk.queue with disposed := true } } :=
      { coherent with }
    exact disposed.rejectWhere _ _
  | proceed => exact coherent.proceed stepped

end Coherent

/-! ## The caps -/

namespace Capped

variable {limits : QueueLimits} {queue : ApprovalQueue}

theorem opened (limits : QueueLimits) : Capped limits (Desk.opened limits).queue :=
  ⟨rfl, fun _ => Nat.zero_le _, fun _ => Nat.zero_le _, Nat.zero_le _⟩

theorem fewer (capped : Capped limits queue) {less : ApprovalQueue} (same : less.limits = limits)
    (sublist : less.entries.entries.Sublist queue.entries.entries) : Capped limits less := by
  have pending : less.pending.Sublist queue.pending := (sublist.map Prod.snd).map Tracked.entry
  refine ⟨same, fun origin => ?_, fun origin => ?_, ?_⟩
  · exact ((pending.filter _).length_le).trans (capped.approvals origin)
  · exact ((pending.filter _).length_le).trans (capped.origins origin)
  · exact sublist.length_le.trans capped.overall

theorem delete (capped : Capped limits queue) (key : QueueKey) :
    Capped limits { queue with entries := queue.entries.delete key } :=
  capped.fewer capped.same List.filter_sublist

theorem enter (capped : Capped limits queue) {input : TrackInput}
    (accepted : queue.refusal input = none) (owner : Nat) (now : Int) :
    Capped limits (queue.enter input owner now) := by
  obtain ⟨absent, approvals, overall, origins⟩ := Coherent.not_refused queue accepted
  rw [capped.same] at approvals overall origins
  have grown := OrderedMap.entries_set_of_none absent
    (⟨{ input with queuedAt := now }, owner⟩ : Tracked)
  have pending : (queue.enter input owner now).pending =
      queue.pending ++ [{ input with queuedAt := now }] := by
    simp only [ApprovalQueue.pending, ApprovalQueue.enter, OrderedMap.values, grown]
    simp
  refine ⟨capped.same, fun origin => ?_, fun origin => ?_, ?_⟩
  · unfold ApprovalQueue.actionableCount
    rw [pending, List.filter_append, List.length_append]
    by_cases counts : input.kind = .approval ∧ input.origin = origin
    · obtain ⟨approval, rfl⟩ := counts
      have room := approvals approval
      unfold ApprovalQueue.actionableCount at room
      simp [approval]
      omega
    · have skipped : ([{ input with queuedAt := now }] : List PendingEntry).filter
          (fun entry => entry.kind = .approval && entry.origin = origin) = [] := by
        simpa using counts
      rw [skipped]
      exact capped.approvals origin
  · unfold ApprovalQueue.originCount
    rw [pending, List.filter_append, List.length_append]
    by_cases same : input.origin = origin
    · subst same
      unfold ApprovalQueue.originCount at origins
      simp
      omega
    · have skipped : ([{ input with queuedAt := now }] : List PendingEntry).filter
          (fun entry => entry.origin = origin) = [] := by
        simpa using same
      rw [skipped]
      exact capped.origins origin
  · simp only [ApprovalQueue.enter, OrderedMap.size, grown, List.length_append,
      List.length_singleton]
    exact overall

theorem settle {desk : Desk} (capped : Capped limits desk.queue) (call : Nat) (input : TrackInput)
    (verdict : Verdict) : Capped limits (desk.settle call input verdict).queue := by
  unfold Desk.settle
  split
  · exact capped
  · exact capped.delete input.key

theorem step {desk next : Desk} (capped : Capped limits desk.queue) {move : QueueMove}
    (stepped : desk.step move = some next) : Capped limits next.queue := by
  cases move with
  | track input now =>
    cases stepped
    unfold Desk.track
    cases refused : desk.queue.refusal input with
    | some error => exact capped
    | none => exact capped.enter refused _ now
  | answer call resolved =>
    obtain ⟨input, called, rfl⟩ := Option.map_eq_some_iff.mp stepped
    exact capped.settle call input _
  | expire call =>
    simp only [Desk.step] at stepped
    split at stepped
    · cases stepped
      exact capped
    · contradiction
  | reject origin requestId reason =>
    cases stepped
    exact capped
  | rejectPendingForAccount accountId reason =>
    simp only [Desk.step] at stepped
    split at stepped <;> cases stepped <;> exact capped
  | rejectPendingForOrigin origin reason =>
    simp only [Desk.step] at stepped
    split at stepped <;> cases stepped <;> exact capped
  | dispose =>
    cases stepped
    exact capped.fewer capped.same (List.Sublist.refl _)
  | proceed =>
    simp only [Desk.step, Desk.proceed] at stepped
    split at stepped
    · contradiction
    · next failing rest found =>
      split at stepped
      · contradiction
      · next input called =>
        split at stepped
        · cases stepped
          have less : Capped limits ({ desk with underway := rest } : Desk).queue := capped
          exact less.settle _ _ _
        · split at stepped <;> cases stepped <;> exact capped

end Capped

/-! ## Requests apart -/

def SameRequest (first second : TrackInput) : Prop :=
  first.origin = second.origin ∧ first.kind = second.kind ∧ first.id = second.id

/-- The second origin is the first one, NUL and a text; that text, NUL and the
second kind and id spell the first kind and id. -/
def Continues (first second : TrackInput) : Prop :=
  ∃ gap : String, second.origin = first.origin ++ "\x00" ++ gap ∧
    first.kind.name ++ "\x00" ++ first.id =
      gap ++ "\x00" ++ second.kind.name ++ "\x00" ++ second.id

def Entangled (first second : TrackInput) : Prop := Continues first second ∨ Continues second first

theorem Continues.key_eq {first second : TrackInput} (continues : Continues first second) :
    first.key = second.key := by
  obtain ⟨gap, origin, rest⟩ := continues
  unfold TrackInput.key queueKey
  have left : first.origin ++ "\x00" ++ first.kind.name ++ "\x00" ++ first.id =
      first.origin ++ "\x00" ++ (first.kind.name ++ "\x00" ++ first.id) := by
    simp only [String.append_assoc]
  rw [left, rest, origin]
  simp only [String.append_assoc]

theorem kind_and_id {first second : TrackInput}
    (same : first.kind.name.toList ++ '\x00' :: first.id.toList =
      second.kind.name.toList ++ '\x00' :: second.id.toList) :
    first.kind = second.kind ∧ first.id = second.id := by
  have ids : ∀ left right : String, left.toList = right.toList → left = right :=
    fun _ _ => String.toList_inj.mp
  cases left : first.kind <;> cases right : second.kind <;>
    simp [left, right, PendingKind.name] at same ⊢
  all_goals exact ids _ _ same

theorem Continues.of_prefix {first second : TrackInput} {gap : List Char}
    (origin : second.origin.toList = first.origin.toList ++ '\x00' :: gap)
    (rest : first.kind.name.toList ++ '\x00' :: first.id.toList =
      gap ++ '\x00' :: (second.kind.name.toList ++ '\x00' :: second.id.toList)) :
    Continues first second := by
  refine ⟨String.ofList gap, String.toList_inj.mp ?_, String.toList_inj.mp ?_⟩
  · simpa using origin
  · simpa using rest

theorem key_eq_iff (first second : TrackInput) :
    first.key = second.key ↔ SameRequest first second ∨ Entangled first second := by
  constructor
  · intro same
    have spelled : first.origin.toList ++ '\x00' ::
          (first.kind.name.toList ++ '\x00' :: first.id.toList) =
        second.origin.toList ++ '\x00' ::
          (second.kind.name.toList ++ '\x00' :: second.id.toList) := by
      simpa [TrackInput.key, queueKey] using congrArg String.toList same
    rcases List.append_eq_append_iff.mp spelled with ⟨gap, origin, rest⟩ | ⟨gap, origin, rest⟩
    · cases gap with
      | nil =>
        rw [List.append_nil] at origin
        have tails := (List.cons.inj rest).2
        obtain ⟨kind, id⟩ := kind_and_id tails
        exact .inl ⟨(String.toList_inj.mp origin).symm, kind, id⟩
      | cons head gap =>
        rw [List.cons_append] at rest
        obtain ⟨nul, tail⟩ := List.cons.inj rest
        exact .inr (.inl (Continues.of_prefix (nul ▸ origin) tail))
    · cases gap with
      | nil =>
        rw [List.append_nil] at origin
        have tails := (List.cons.inj rest).2
        obtain ⟨kind, id⟩ := kind_and_id tails
        exact .inl ⟨String.toList_inj.mp origin, kind.symm, id.symm⟩
      | cons head gap =>
        rw [List.cons_append] at rest
        obtain ⟨nul, tail⟩ := List.cons.inj rest
        exact .inr (.inr (Continues.of_prefix (nul ▸ origin) tail))
  · rintro (⟨origin, kind, id⟩ | continues | continues)
    · rw [TrackInput.key, TrackInput.key, origin, kind, id]
    · exact continues.key_eq
    · exact continues.key_eq.symm

theorem Entangled.apart {first second : TrackInput} (entangled : Entangled first second) :
    ¬ SameRequest first second := by
  have longer : ∀ left right : TrackInput, Continues left right → left.origin ≠ right.origin := by
    rintro left right ⟨gap, origin, _⟩ same
    rw [same] at origin
    have lengths := congrArg String.length origin
    have nul : "\x00".length = 1 := rfl
    simp only [String.length_append] at lengths
    omega
  rintro ⟨origin, -, -⟩
  rcases entangled with continues | continues
  · exact longer _ _ continues origin
  · exact longer _ _ continues origin.symm

/-! ## Whole runs -/

structure Settling (limits : QueueLimits) (desk : Desk) : Prop where
  /-- A call has a verdict or waits for one. -/
  once : ∀ call < desk.calls.length,
    (desk.verdicts call).length + (if desk.Pends call then 1 else 0) = 1
  /-- What arrives for a settled call changes nothing. -/
  late : ∀ call < desk.calls.length, ¬ desk.Pends call → ∀ resolved,
    desk.step (.answer call resolved) = some desk ∧ desk.run [.expire call, .proceed] = some desk
  answered : ∀ call, desk.Pends call → ∀ resolved, ∃ next,
    desk.step (.answer call resolved) = some next ∧ ¬ next.Pends call
  timedOut : ∀ call, desk.Pends call → ∃ next,
    desk.run [.expire call, .proceed, .proceed] = some next ∧ ¬ next.Pends call
  capped : Capped limits desk.queue
  slots : desk.queue.entries.size = desk.unsettled.length

def Desk.Recognises (desk : Desk) (input : TrackInput) : Prop :=
  desk.queue.entries.has input.key = true →
    ∃ entry ∈ desk.queue.pending, SameRequest entry.toTrackInput input

namespace Coherent

variable {desk : Desk} {limits : QueueLimits}

theorem pends_iff (coherent : Coherent desk) (call : Nat) :
    desk.Pends call ↔ call < desk.calls.length ∧ desk.settled call = false := by
  constructor
  · intro pends
    obtain ⟨tracked, member, rfl⟩ := List.mem_map.mp pends
    obtain ⟨entry, held, rfl⟩ := List.mem_map.mp member
    have found := OrderedMap.get_eq_some.mpr held
    exact ⟨coherent.owner_known member, (coherent.kept _ _ found).2.2⟩
  · rintro ⟨below, open_⟩
    obtain ⟨tracked, held, owned⟩ :=
      coherent.waiting call _ (List.getElem?_eq_getElem below) open_
    have member := OrderedMap.get_eq_some.mp held
    exact List.mem_map.mpr ⟨tracked, List.mem_map.mpr ⟨_, member, rfl⟩, owned⟩

theorem settle_settled {call : Nat} {input : TrackInput} {verdict : Verdict} :
    (desk.settle call input verdict).settled call = true := by
  unfold Desk.settle
  split
  · assumption
  · simp [Desk.finish]

theorem not_pends_settle (coherent : Coherent desk) {call : Nat} {input : TrackInput}
    (called : desk.calls[call]? = some input) (verdict : Verdict) :
    ¬ (desk.settle call input verdict).Pends call := by
  rw [(coherent.settle called verdict).pends_iff, settle_settled]
  simp

theorem owners_nodup (coherent : Coherent desk) :
    (desk.queue.entries.values.map Tracked.owner).Nodup := by
  have distinct := desk.queue.entries.nodup
  rw [OrderedMap.values, List.map_map]
  rw [List.nodup_map_iff_inj_on distinct.of_map]
  rintro ⟨key, tracked⟩ member ⟨other, second⟩ among same
  have first := coherent.kept _ _ (OrderedMap.get_eq_some.mpr member)
  have last := coherent.kept _ _ (OrderedMap.get_eq_some.mpr among)
  have owners : tracked.owner = second.owner := same
  have inputs := first.1
  rw [owners, last.1] at inputs
  have keys : key = other := by
    rw [first.2.1, last.2.1, Option.some.inj inputs]
  subst keys
  have held := OrderedMap.get_eq_some.mpr member
  rw [OrderedMap.get_eq_some.mpr among] at held
  rw [Option.some.inj held]

theorem size_eq (coherent : Coherent desk) :
    desk.queue.entries.size = desk.unsettled.length := by
  have same : (desk.queue.entries.values.map Tracked.owner).Perm desk.unsettled := by
    refine (List.perm_ext_iff_of_nodup coherent.owners_nodup (List.nodup_range.filter _)).mpr ?_
    intro call
    have pends := coherent.pends_iff call
    unfold Desk.Pends at pends
    rw [pends]
    simp
  have lengths := same.length_eq
  simpa [OrderedMap.size, OrderedMap.values] using lengths

theorem settling (coherent : Coherent desk) (capped : Capped limits desk.queue) :
    Settling limits desk where
  once := by
    intro call below
    have pends := coherent.pends_iff call
    have once := coherent.once call below
    cases flag : desk.settled call <;> simp [pends, once, flag, below]
  late := by
    intro call below idle resolved
    have flag : desk.settled call = true := by
      by_contra open_
      exact idle ((coherent.pends_iff call).mpr ⟨below, by simpa using open_⟩)
    have called := List.getElem?_eq_getElem below
    constructor
    · simp [Desk.step, called, Desk.settle, flag]
    · simp [Desk.run, Desk.step, below, Desk.proceed, flag]
  answered := by
    intro call pends resolved
    have below := ((coherent.pends_iff call).mp pends).1
    have called := List.getElem?_eq_getElem below
    refine ⟨_, ?_, coherent.not_pends_settle called (if resolved then .resolved else .thrown)⟩
    simp only [Desk.step, called, Option.map_some]
  timedOut := by
    intro call pends
    obtain ⟨below, open_⟩ := (coherent.pends_iff call).mp pends
    have called := List.getElem?_eq_getElem below
    refine ⟨_, ?_, coherent.not_pends_settle called (.rejected ⟨.timeout, "Request timed out"⟩)⟩
    simp [Desk.run, Desk.step, below, Desk.proceed, open_]
  capped := capped
  slots := coherent.size_eq

theorem recognises_iff (coherent : Coherent desk) (input : TrackInput) :
    desk.Recognises input ↔ ∀ entry ∈ desk.queue.pending, ¬ Entangled entry.toTrackInput input := by
  have stored : ∀ entry ∈ desk.queue.pending, ∃ owner,
      desk.queue.entries.get entry.key = some ⟨entry, owner⟩ := by
    intro entry member
    obtain ⟨tracked, among, rfl⟩ := List.mem_map.mp member
    obtain ⟨pair, held, rfl⟩ := List.mem_map.mp among
    have found := OrderedMap.get_eq_some.mpr held
    have keyed := (coherent.kept _ _ found).2.1
    exact ⟨pair.2.owner, by rw [← keyed]; exact found⟩
  constructor
  · intro recognises entry member entangled
    have keys := (key_eq_iff _ _).mpr (.inr entangled)
    obtain ⟨owner, found⟩ := stored entry member
    have present : desk.queue.entries.has input.key = true := by
      rw [OrderedMap.has, ← keys, found, Option.isSome_some]
    obtain ⟨other, among, same⟩ := recognises present
    obtain ⟨second, held⟩ := stored other among
    rw [(key_eq_iff _ _).mpr (.inl same), ← keys, found] at held
    cases held
    exact entangled.apart same
  · intro apart present
    obtain ⟨tracked, held⟩ := Option.isSome_iff_exists.mp present
    have keyed := (coherent.kept _ _ held).2.1
    have member : tracked.entry ∈ desk.queue.pending :=
      List.mem_map.mpr ⟨tracked, List.mem_map.mpr ⟨_, OrderedMap.get_eq_some.mp held, rfl⟩, rfl⟩
    rcases (key_eq_iff tracked.entry.toTrackInput input).mp keyed.symm with same | entangled
    · exact ⟨tracked.entry, member, same⟩
    · exact absurd entangled (apart _ member)

theorem run (coherent : Coherent desk) (capped : Capped limits desk.queue)
    {moves : List QueueMove} {last : Desk} (ran : desk.run moves = some last) :
    Coherent last ∧ Capped limits last.queue := by
  induction moves generalizing desk with
  | nil =>
    cases ran
    exact ⟨coherent, capped⟩
  | cons move rest ih =>
    obtain ⟨next, stepped, others⟩ := Option.bind_eq_some_iff.mp ran
    exact ih (coherent.step stepped) (capped.step stepped) others

end Coherent

/-! ## Without callbacks

Where no callback of the host calls the queue, a cancellation settles its whole
snapshot at once, as `ApprovalQueue.rejectWhere` has it.
-/

section Uninterrupted

variable {desk : Desk}

end Uninterrupted

/-- Whatever is tracked, answered, cancelled and disposed of in whatever order,
requests are settled once and the caps hold; a request is taken for another one
exactly when it is entangled with one that is pending. -/
theorem requests_settle_once {limits : QueueLimits} {moves : List QueueMove} {desk : Desk}
    (ran : (Desk.opened limits).run moves = some desk) :
    Settling limits desk ∧ ∀ input, desk.Recognises input ↔
      ∀ entry ∈ desk.queue.pending, ¬ Entangled entry.toTrackInput input := by
  obtain ⟨coherent, capped⟩ := (Coherent.opened limits).run (Capped.opened limits) ran
  exact ⟨coherent.settling capped, coherent.recognises_iff⟩

section Example

def packageRequest (identifier id : String) : Data.Value :=
  .object [("id", .text id),
    ("origin", .object [("kind", .text "nip55"), ("identifier", .text identifier)])]

/-- The prompt of a request that the boundary lets through. -/
def Accepted (input : TrackInput) : Prop :=
  ∃ request origin, validateRequester request = .ok (input.id, origin) ∧
    input.origin = permissionOrigin origin

/-- The id spells the end of another package's key. -/
def spellingId : TrackInput :=
  { id := "x\x00approval\x001", kind := .approval, origin := "nip55:a", accountId := "account" }

def spelledPackage : TrackInput :=
  { id := "1", kind := .approval, origin := "nip55:a\x00approval\x00x", accountId := "account" }

theorem distinct_requests_may_collide :
    ¬ ∀ (moves : List QueueMove) (desk : Desk), (Desk.opened {}).run moves = some desk →
      (∀ entry ∈ desk.queue.pending, Accepted entry.toTrackInput) →
      ∀ input, Accepted input → desk.Recognises input := by
  intro claim
  have spelling : Accepted spellingId :=
    ⟨packageRequest "a" "x\x00approval\x001", ⟨.nip55, "a", none, none⟩, rfl, rfl⟩
  have spelled : Accepted spelledPackage :=
    ⟨packageRequest "a\x00approval\x00x" "1", ⟨.nip55, "a\x00approval\x00x", none, none⟩, rfl, rfl⟩
  have tracked : ((Desk.opened {}).track spellingId 0).queue.pending =
      [{ spellingId with queuedAt := 0 }] := rfl
  have taken : ((Desk.opened {}).track spellingId 0).queue.entries.has spelledPackage.key = true := by
    decide +kernel
  have recognises := claim [.track spellingId 0] _ rfl (by
    rw [tracked]
    intro entry member
    rw [List.mem_singleton.mp member]
    exact spelling) spelledPackage spelled taken
  obtain ⟨entry, member, origin, -⟩ := recognises
  rw [tracked, List.mem_singleton] at member
  rw [member] at origin
  exact absurd origin (by decide)

theorem requests_settle_once_timedOut :
    Settling {} ((((Desk.opened {}).track spellingId 0).settle 0 spellingId
        (.rejected ⟨.timeout, "Request timed out"⟩)).track spelledPackage 5) ∧
      ∀ input, ((((Desk.opened {}).track spellingId 0).settle 0 spellingId
          (.rejected ⟨.timeout, "Request timed out"⟩)).track spelledPackage 5).Recognises input ↔
        ∀ entry ∈ ((((Desk.opened {}).track spellingId 0).settle 0 spellingId
            (.rejected ⟨.timeout, "Request timed out"⟩)).track spelledPackage 5).queue.pending,
          ¬ Entangled entry.toTrackInput input :=
  @requests_settle_once {}
    [.track spellingId 0, .expire 0, .proceed, .proceed, .track spelledPackage 5] _ rfl

end Example

end NostrWot.Signing
