import Mathlib.Data.List.Perm.Basic
import NostrWot.Bunker.Edits

namespace NostrWot.Bunker

open NostrWot.Data NostrWot.Sync

/-! # Approvals and the records they hold

A record counts the approvals that hold it, and they are all of its client.
-/

def heldBy (approvals : List Approval) (ref : Ref) : Nat :=
  approvals.countP fun approval => approval.record = some ref

theorem heldBy_cons (approval : Approval) (approvals : List Approval) (ref : Ref) :
    heldBy (approval :: approvals) ref =
      heldBy approvals ref + if approval.record = some ref then 1 else 0 := by
  unfold heldBy
  rw [List.countP_cons]
  simp only [decide_eq_true_eq]

structure Ledger (secrets : Secrets) (approvals : List Approval) : Prop where
  count : ∀ ref, (secrets.records ref).pending = heldBy approvals ref
  bound : ∀ approval ∈ approvals, ∀ ref, approval.record = some ref →
    (secrets.records ref).clientPubkey = some approval.client
  given : ∀ secret ref, secrets.secrets.get secret = some ref → ref < secrets.next
  taken : ∀ approval ∈ approvals, ∀ ref, approval.record = some ref → ref < secrets.next
  distinct : ∀ left right ref, secrets.secrets.get left = some ref →
    secrets.secrets.get right = some ref → left = right
  named : ∀ approval ∈ approvals, ∀ ref secret, approval.record = some ref →
    secrets.secrets.get secret = some ref → secret = approval.secret
  claimed : ∀ ref, (secrets.records ref).confirmed = true →
    (secrets.records ref).clientPubkey.isSome

namespace Ledger

variable {host : Host} {secrets after : Secrets} {approvals others : List Approval}
  {approval : Approval} {ref : Ref}

theorem perm (ledger : Ledger secrets approvals) (same : approvals.Perm others) :
    Ledger secrets others where
  count := fun ref => by
    rw [ledger.count ref]
    exact congrArg Nat.cast (same.countP_eq _)
  bound := fun approval member => ledger.bound approval (same.mem_iff.mpr member)
  given := ledger.given
  taken := fun approval member => ledger.taken approval (same.mem_iff.mpr member)
  distinct := ledger.distinct
  named := fun approval member => ledger.named approval (same.mem_iff.mpr member)
  claimed := ledger.claimed

theorem fewer (ledger : Ledger secrets approvals) (records : after.records = secrets.records)
    (next : after.next = secrets.next)
    (names : ∀ secret ref, after.secrets.get secret = some ref →
      secrets.secrets.get secret = some ref) : Ledger after approvals where
  count := records ▸ ledger.count
  bound := records ▸ ledger.bound
  given := fun secret ref found => next ▸ ledger.given secret ref (names secret ref found)
  taken := next ▸ ledger.taken
  distinct := fun left right ref first second =>
    ledger.distinct left right ref (names left ref first) (names right ref second)
  named := fun approval member ref secret holds found =>
    ledger.named approval member ref secret holds (names secret ref found)
  claimed := records ▸ ledger.claimed

theorem remove (ledger : Ledger secrets approvals) (secret : String) :
    Ledger (secrets.remove secret) approvals := by
  refine ledger.fewer rfl rfl fun other ref found => ?_
  change (secrets.secrets.delete secret).get other = some ref at found
  rw [OrderedMap.get_delete] at found
  split at found
  · contradiction
  · exact found

theorem schedule (ledger : Ledger secrets approvals) (expiresAt : Number) :
    Ledger (secrets.scheduleSweep expiresAt) approvals := by
  refine ledger.fewer (secrets.scheduleSweep_records _) (secrets.scheduleSweep_next _) ?_
  intro secret ref found
  rwa [Secrets.scheduleSweep_secrets] at found

theorem rewrite (ledger : Ledger secrets approvals) {change : SecretState → SecretState}
    (pending : ∀ record, (change record).pending = record.pending)
    (client : ∀ record, (change record).clientPubkey = record.clientPubkey)
    (confirmed : ∀ record, (change record).confirmed = record.confirmed) :
    Ledger (secrets.update ref change) approvals := by
  have kept : ∀ other, ((secrets.update ref change).records other).pending =
      (secrets.records other).pending ∧ ((secrets.update ref change).records other).clientPubkey =
      (secrets.records other).clientPubkey ∧ ((secrets.update ref change).records other).confirmed =
      (secrets.records other).confirmed := by
    intro other
    unfold Secrets.update
    by_cases same : other = ref
    · subst same
      simp [pending, client, confirmed]
    · simp [Function.update_of_ne same]
  exact {
    count := fun other => (kept other).1.trans (ledger.count other)
    bound := fun approval member other holds =>
      (kept other).2.1.trans (ledger.bound approval member other holds)
    given := ledger.given
    taken := ledger.taken
    distinct := ledger.distinct
    named := ledger.named
    claimed := fun other settled => by
      rw [(kept other).2.1]
      exact ledger.claimed other ((kept other).2.2 ▸ settled) }

theorem insert (ledger : Ledger secrets approvals) {secret : String} {record : SecretState}
    (idle : record.pending = 0) (claimed : record.confirmed = true → record.clientPubkey.isSome) :
    Ledger (secrets.insert secret record) approvals := by
  have older : ∀ {other}, other < secrets.next → other ≠ secrets.next := fun less => Nat.ne_of_lt less
  have unheld : heldBy approvals secrets.next = 0 := by
    unfold heldBy
    rw [List.countP_eq_zero]
    intro approval member holds
    exact older (ledger.taken approval member _ (by simpa using holds)) rfl
  have names : ∀ other ref, (secrets.secrets.set secret secrets.next).get other = some ref →
      (other = secret ∧ ref = secrets.next) ∨ (secrets.secrets.get other = some ref) := by
    intro other ref found
    rw [OrderedMap.get_set] at found
    split at found
    · next same => exact .inl ⟨same, (Option.some.inj found).symm⟩
    · exact .inr found
  constructor
  · intro ref
    change (Function.update secrets.records secrets.next record ref).pending = _
    by_cases same : ref = secrets.next
    · subst same
      rw [Function.update_self, idle, unheld]
      rfl
    · rw [Function.update_of_ne same, ledger.count ref]
  · intro approval member ref holds
    change (Function.update secrets.records secrets.next record ref).clientPubkey = _
    rw [Function.update_of_ne (older (ledger.taken approval member ref holds))]
    exact ledger.bound approval member ref holds
  · intro other ref found
    change ref < secrets.next + 1
    rcases names other ref found with ⟨-, same⟩ | old
    · rw [same]
      exact Nat.lt_succ_self _
    · exact Nat.lt_succ_of_lt (ledger.given other ref old)
  · intro approval member ref holds
    exact Nat.lt_succ_of_lt (ledger.taken approval member ref holds)
  · intro left right ref first second
    rcases names left ref first with ⟨one, same⟩ | old
    · rcases names right ref second with ⟨two, -⟩ | other
      · rw [one, two]
      · exact absurd same (older (ledger.given right ref other))
    · rcases names right ref second with ⟨-, same⟩ | other
      · exact absurd same (older (ledger.given left ref old))
      · exact ledger.distinct left right ref old other
  · intro approval member ref other holds found
    rcases names other ref found with ⟨-, same⟩ | old
    · exact absurd same (older (ledger.taken approval member ref holds))
    · exact ledger.named approval member ref other holds old
  · intro ref settled
    change (Function.update secrets.records secrets.next record ref).confirmed = true at settled
    change (Function.update secrets.records secrets.next record ref).clientPubkey.isSome
    by_cases same : ref = secrets.next
    · subst same
      rw [Function.update_self] at settled ⊢
      exact claimed settled
    · rw [Function.update_of_ne same] at settled ⊢
      exact ledger.claimed ref settled

theorem hold (ledger : Ledger secrets approvals) (holds : approval.record = some ref)
    (found : secrets.secrets.get approval.secret = some ref)
    (free : ∀ other, (secrets.records ref).clientPubkey = some other → other = approval.client) :
    Ledger (secrets.update ref (.bound approval.client)) (approval :: approvals) := by
  have fresh := ledger.given approval.secret ref found
  constructor
  · intro other
    rw [heldBy_cons, holds]
    change (Function.update secrets.records ref ((secrets.records ref).bound approval.client)
      other).pending = _
    by_cases same : other = ref
    · subst same
      rw [Function.update_self, if_pos rfl]
      change (secrets.records other).pending + 1 = _
      rw [ledger.count other]
      rfl
    · rw [Function.update_of_ne same, if_neg fun equal => same (Option.some.inj equal).symm]
      exact ledger.count other
  · intro other member held same
    change (Function.update secrets.records ref ((secrets.records ref).bound approval.client)
      held).clientPubkey = _
    rcases List.mem_cons.mp member with first | old
    · subst first
      cases holds.symm.trans same
      rw [Function.update_self]
      rfl
    · by_cases mine : held = ref
      · subst mine
        rw [Function.update_self]
        exact congrArg some (free _ (ledger.bound other old held same)).symm
      · rw [Function.update_of_ne mine]
        exact ledger.bound other old held same
  · exact ledger.given
  · intro other member held same
    rcases List.mem_cons.mp member with first | old
    · subst first
      cases holds.symm.trans same
      exact fresh
    · exact ledger.taken other old held same
  · exact ledger.distinct
  · intro other member held secret same names
    rcases List.mem_cons.mp member with first | old
    · subst first
      cases holds.symm.trans same
      exact ledger.distinct secret _ _ names found
    · exact ledger.named other old held secret same names
  · intro other settled
    change (Function.update secrets.records ref ((secrets.records ref).bound approval.client)
      other).clientPubkey.isSome
    change (Function.update secrets.records ref ((secrets.records ref).bound approval.client)
      other).confirmed = true at settled
    by_cases same : other = ref
    · subst same
      rw [Function.update_self]
      rfl
    · rw [Function.update_of_ne same] at settled ⊢
      exact ledger.claimed other settled

theorem began {brought : Option (List String)} (ledger : Ledger secrets approvals)
    (holds : approval.record = some ref)
    (bound : Bound host secrets approval.secret approval.client brought ref after) :
    Ledger after (approval :: approvals) := by
  cases bound with
  | existing found free => exact ledger.hold holds found free
  | @fresh relays absent room =>
    refine hold (ledger.insert rfl ?_) holds ?_ ?_
    · intro confirmed
      contradiction
    · exact OrderedMap.get_set_self _ _ _
    · intro other client
      change (Function.update secrets.records secrets.next _ secrets.next).clientPubkey = _ at client
      rw [Function.update_self] at client
      contradiction

theorem unheld (ledger : Ledger secrets approvals) (holds : approval.record = none) :
    Ledger secrets (approval :: approvals) := by
  have older : ∀ other ∈ approval :: approvals, ∀ ref, other.record = some ref →
      other ∈ approvals := by
    intro other member ref same
    rcases List.mem_cons.mp member with first | old
    · subst first
      cases holds.symm.trans same
    · exact old
  exact {
    count := fun ref => by
      rw [heldBy_cons, holds]
      exact ledger.count ref
    bound := fun other member ref same => ledger.bound other (older other member ref same) ref same
    given := ledger.given
    taken := fun other member ref same => ledger.taken other (older other member ref same) ref same
    distinct := ledger.distinct
    named := fun other member ref secret same =>
      ledger.named other (older other member ref same) ref secret same
    claimed := ledger.claimed }

theorem tail (ledger : Ledger secrets (approval :: approvals)) (holds : approval.record = none) :
    Ledger secrets approvals where
  count := fun ref => by
    have count := ledger.count ref
    rw [heldBy_cons, holds] at count
    exact count
  bound := fun other member => ledger.bound other (List.mem_cons_of_mem _ member)
  given := ledger.given
  taken := fun other member => ledger.taken other (List.mem_cons_of_mem _ member)
  distinct := ledger.distinct
  named := fun other member => ledger.named other (List.mem_cons_of_mem _ member)
  claimed := ledger.claimed

/-- An approval lets go of its record, which keeps its client unless nobody else
holds it. -/
theorem release (ledger : Ledger secrets (approval :: approvals)) (holds : approval.record = some ref)
    {change : SecretState → SecretState}
    (pending : (change (secrets.records ref)).pending = heldBy approvals ref)
    (client : (change (secrets.records ref)).clientPubkey = (secrets.records ref).clientPubkey ∨
      (heldBy approvals ref = 0 ∧ (change (secrets.records ref)).confirmed = false)) :
    Ledger (secrets.update ref change) approvals := by
  have owner := ledger.bound approval (List.mem_cons_self ..) ref holds
  constructor
  · intro other
    change (Function.update secrets.records ref (change (secrets.records ref)) other).pending = _
    by_cases same : other = ref
    · subst same
      rw [Function.update_self]
      exact pending
    · have count := ledger.count other
      rw [heldBy_cons, holds, if_neg fun equal => same (Option.some.inj equal).symm] at count
      rw [Function.update_of_ne same]
      exact count
  · intro other member held same
    have before := ledger.bound other (List.mem_cons_of_mem _ member) held same
    change (Function.update secrets.records ref (change (secrets.records ref)) held).clientPubkey = _
    by_cases mine : held = ref
    · subst mine
      rw [Function.update_self]
      rcases client with kept | ⟨free, -⟩
      · rw [kept]
        exact before
      · unfold heldBy at free
        rw [List.countP_eq_zero] at free
        exact absurd (by simpa using same) (free other member)
    · rw [Function.update_of_ne mine]
      exact before
  · exact ledger.given
  · exact fun other member => ledger.taken other (List.mem_cons_of_mem _ member)
  · exact ledger.distinct
  · exact fun other member => ledger.named other (List.mem_cons_of_mem _ member)
  · intro other settled
    change (Function.update secrets.records ref (change (secrets.records ref)) other).clientPubkey.isSome
    change (Function.update secrets.records ref (change (secrets.records ref)) other).confirmed =
      true at settled
    by_cases same : other = ref
    · subst same
      rw [Function.update_self] at settled ⊢
      rcases client with kept | ⟨-, unconfirmed⟩
      · rw [kept, owner]
        rfl
      · rw [unconfirmed] at settled
        contradiction
    · rw [Function.update_of_ne same] at settled ⊢
      exact ledger.claimed other settled

theorem pending_pred (ledger : Ledger secrets (approval :: approvals))
    (holds : approval.record = some ref) :
    (secrets.records ref).pending - 1 = heldBy approvals ref := by
  have count := ledger.count ref
  rw [heldBy_cons, holds, if_pos rfl] at count
  omega

theorem unbind (ledger : Ledger secrets (approval :: approvals)) (holds : approval.record = some ref)
    (secret : String) : Ledger (secrets.unbind ref secret) approvals := by
  have fewer := ledger.pending_pred holds
  have released : Ledger (secrets.update ref Secrets.released) approvals := by
    refine ledger.release holds ?_ ?_
    · unfold Secrets.released
      split
      · next last =>
        have last : (secrets.records ref).pending - 1 ≤ 0 := last.1
        change (0 : Int) = _
        omega
      · exact fewer
    · unfold Secrets.released
      split
      · next last =>
        have none : (secrets.records ref).pending - 1 ≤ 0 := last.1
        exact .inr ⟨by omega, last.2⟩
      · exact .inl rfl
  refine released.fewer (secrets.unbind_records ref secret) (secrets.unbind_next ref secret) ?_
  intro other held found
  rcases secrets.unbind_secrets ref secret with same | gone
  · rw [same] at found
    exact found
  · rw [gone, OrderedMap.get_delete] at found
    split at found
    · contradiction
    · exact found

theorem discard (ledger : Ledger secrets (approval :: approvals)) (holds : approval.record = some ref) :
    Ledger (secrets.update ref .settled) approvals :=
  ledger.release holds (ledger.pending_pred holds) (.inl rfl)

theorem approve (ledger : Ledger secrets (approval :: approvals)) (holds : approval.record = some ref)
    (relays : Option (List String)) : Ledger (secrets.update ref (.approved relays)) approvals :=
  ledger.release holds (ledger.pending_pred holds) (.inl rfl)

end Ledger

/-! ## The approvals of a server -/

def Server.approvals (server : Server) : List Approval := server.frames.filterMap Frame.approval?

structure Accounted (host : Host) (server : Server) : Prop where
  ledger : Ledger server.secrets server.approvals
  total : server.pendingApprovals = server.approvals.length
  required : host.options.requireSecret = true → ∀ approval ∈ server.approvals,
    approval.record.isSome

section Accounted

variable {host : Host} {origin server after : Server} {move : Move} {index : Nat} {frame : Frame}
  {approval : Approval}

theorem approvals_erase (found : server.frames[index]? = some frame) :
    server.approvals.Perm
      (frame.approval?.toList ++ (server.frames.eraseIdx index).filterMap Frame.approval?) := by
  obtain ⟨inside, same⟩ := List.getElem?_eq_some_iff.mp found
  have split : (frame :: server.frames.eraseIdx index).Perm server.frames := by
    rw [← same]
    exact List.getElem_cons_eraseIdx_perm inside
  have mapped := split.symm.filterMap Frame.approval?
  cases under : frame.approval? with
  | none =>
    rw [List.filterMap_cons_none under] at mapped
    exact mapped
  | some approval =>
    rw [List.filterMap_cons_some under] at mapped
    exact mapped

theorem approvals_ended (found : server.frames[index]? = some frame)
    (under : frame.approval? = some approval) :
    server.approvals.Perm (approval :: (server.ended index approval).approvals) := by
  have erased := approvals_erase found
  rw [under] at erased
  exact erased

theorem Accounted.same (accounted : Accounted host server) (secrets : after.secrets = server.secrets)
    (pending : after.pendingApprovals = server.pendingApprovals)
    (approvals : after.approvals = server.approvals) : Accounted host after where
  ledger := secrets ▸ approvals ▸ accounted.ledger
  total := by rw [pending, approvals, accounted.total]
  required := by rw [approvals]; exact accounted.required

theorem Accounted.secrets (accounted : Accounted host server) {secrets : Secrets}
    (ledger : Ledger secrets server.approvals) : Accounted host { server with secrets } :=
  ⟨ledger, accounted.total, accounted.required⟩

theorem Accounted.ended (accounted : Accounted host origin)
    (found : origin.frames[index]? = some frame) (under : frame.approval? = some approval)
    {change : Secrets → Ref → Secrets}
    (lets : ∀ ref, approval.record = some ref →
      Ledger origin.secrets (approval :: (origin.ended index approval).approvals) →
      Ledger (change origin.secrets ref) (origin.ended index approval).approvals) :
    Accounted host ((origin.ended index approval).withHeld approval change) := by
  have split := approvals_ended found under
  have ledger := accounted.ledger.perm split
  constructor
  · change Ledger ((origin.ended index approval).withHeld approval change).secrets
      (origin.ended index approval).approvals
    unfold Server.withHeld
    cases held : approval.record with
    | none => exact ledger.tail held
    | some ref => exact lets ref held ledger
  · have total := accounted.total
    rw [split.length_eq, List.length_cons] at total
    change origin.pendingApprovals - 1 = ((origin.ended index approval).approvals.length : Int)
    omega
  · intro required other member
    exact accounted.required required other (split.mem_iff.mpr (List.mem_cons_of_mem _ member))

theorem minted_ledger {secrets : Secrets} {approvals : List Approval} (ledger : Ledger secrets approvals)
    (secret : String) (relays : List String) (ttl : Number) (now : Rat) :
    Ledger (Server.minted secrets secret relays ttl now) approvals := by
  unfold Server.minted
  split
  · split
    · exact ledger.rewrite (fun _ => rfl) (fun _ => rfl) fun _ => rfl
    · exact ledger
  · dsimp only
    split
    · refine (ledger.schedule _).insert rfl ?_
      intro confirmed
      contradiction
    · refine ledger.insert rfl ?_
      intro confirmed
      contradiction

theorem installed_ledger {secrets : Secrets} {approvals : List Approval}
    {entry : String × SecretState} (ledger : Ledger secrets approvals) (idle : entry.2.pending = 0)
    (claimed : entry.2.confirmed = true → entry.2.clientPubkey.isSome) :
    Ledger (Server.installSecret secrets entry) approvals := by
  have inserted : Ledger (secrets.insert entry.1 entry.2) approvals := ledger.insert idle claimed
  unfold Server.installSecret
  dsimp only
  split
  · split
    · exact inserted.schedule _
    · exact inserted
  · exact inserted

theorem Accounted.edit (edit : Edit host origin move server after) (start : Accounted host origin)
    (accounted : Accounted host server) : Accounted host after := by
  cases edit with
  | swept now =>
    exact accounted.secrets (accounted.ledger.fewer (Secrets.sweep_records _ now)
      (Secrets.sweep_next _ now) fun _ _ found => Secrets.sweep_get found)
  | dropped => exact accounted.secrets (accounted.ledger.remove _)
  | minted => exact accounted.secrets (minted_ledger accounted.ledger _ _ _ _)
  | revoked =>
    exact (accounted.secrets (accounted.ledger.remove _)).same rfl rfl rfl
  | evicted =>
    exact (accounted.secrets (accounted.ledger.remove _)).same rfl rfl rfl
  | installed moved room settled bound =>
    exact accounted.secrets (installed_ledger accounted.ledger settled bound)
  | @pushed _ frame idle keyed =>
    refine accounted.same rfl rfl ?_
    change (server.frames ++ [frame]).filterMap Frame.approval? = _
    rw [List.filterMap_append, List.filterMap_cons_none idle]
    exact List.append_nil _
  | @resumed index frame found idle =>
    have erased := approvals_erase found
    rw [idle] at erased
    refine ⟨accounted.ledger.perm erased, ?_, fun required other member => ?_⟩
    · exact accounted.total.trans (congrArg Nat.cast erased.length_eq)
    · exact accounted.required required other (erased.mem_iff.mpr member)
  | @seen _ pubkey key author curve =>
    obtain ⟨frames, -, secrets, -, pending⟩ := seen_frames host server pubkey key
    exact accounted.same secrets pending (congrArg (List.filterMap Frame.approval?) frames)
  | @began _ frame approval secrets admissions under keyed bound unbound fit =>
    have grown : server.approvals ++ [approval] =
        (server.frames ++ [frame]).filterMap Frame.approval? := by
      rw [List.filterMap_append, List.filterMap_cons_some under]
      rfl
    have moved : (approval :: server.approvals).Perm (server.approvals ++ [approval]) :=
      (List.perm_append_singleton approval server.approvals).symm
    rw [grown] at moved
    constructor
    · refine Ledger.perm ?_ moved
      cases held : approval.record with
      | none => exact (unbound held).1 ▸ accounted.ledger.unheld held
      | some ref => exact accounted.ledger.began held (bound ref held)
    · have length := moved.length_eq
      rw [List.length_cons] at length
      change server.pendingApprovals + 1 =
        (((server.frames ++ [frame]).filterMap Frame.approval?).length : Int)
      rw [accounted.total, ← length]
      rfl
    · intro required other member
      rcases List.mem_cons.mp (moved.mem_iff.mpr member) with first | old
      · subst first
        cases held : other.record with
        | none =>
          rw [(unbound held).2] at required
          contradiction
        | some ref => rfl
      · exact accounted.required required other old
  | unbound found under =>
    exact start.ended found under fun ref holds ledger => ledger.unbind holds _
  | discarded found under =>
    exact start.ended found under fun ref holds ledger => ledger.discard holds
  | @approved index frame approval text now relays key moved found under =>
    have settled : Accounted host ((origin.ended index approval).withApproved approval) :=
      start.ended found under fun ref holds ledger => ledger.approve holds _
    exact settled.same rfl rfl rfl
  | @unadmitted index frame approval text now strangers moved found under =>
    have settled : Accounted host ((origin.ended index approval).withApproved approval) :=
      start.ended found under fun ref holds ledger => ledger.approve holds _
    exact settled.same rfl rfl rfl
  | _ => exact accounted.same rfl rfl rfl

end Accounted

end NostrWot.Bunker
