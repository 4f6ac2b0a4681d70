import NostrWot.Bunker.Ledger

namespace NostrWot.Bunker

open NostrWot.Data NostrWot.Sync

/-! # Who pairs through a secret -/

variable {host : Host} {origin server after : Server} {move : Move}

/-! ## Records over time -/

/-- What time does to secrets: a confirmed record keeps its client, and no secret
comes to name an old record. -/
structure Evolves (before after : Secrets) : Prop where
  next : before.next ≤ after.next
  confirmed : ∀ ref, ref < before.next → (before.records ref).confirmed = true →
    (after.records ref).confirmed = true ∧
      (after.records ref).clientPubkey = (before.records ref).clientPubkey
  names : ∀ secret ref, after.secrets.get secret = some ref →
    before.secrets.get secret = some ref ∨ before.next ≤ ref

namespace Evolves

variable {before between after : Secrets}

variable (secrets : Secrets)

theorem refl : Evolves secrets secrets :=
  ⟨Nat.le_refl _, fun _ _ confirmed => ⟨confirmed, rfl⟩, fun _ _ found => .inl found⟩

theorem trans (first : Evolves before between) (second : Evolves between after) :
    Evolves before after where
  next := Nat.le_trans first.next second.next
  confirmed := fun ref old confirmed => by
    obtain ⟨still, client⟩ := first.confirmed ref old confirmed
    obtain ⟨last, same⟩ := second.confirmed ref (Nat.lt_of_lt_of_le old first.next) still
    exact ⟨last, same.trans client⟩
  names := fun secret ref found => by
    rcases second.names secret ref found with old | new
    · exact first.names secret ref old
    · exact .inr (Nat.le_trans first.next new)

theorem fewer (records : after.records = before.records) (next : after.next = before.next)
    (names : ∀ secret ref, after.secrets.get secret = some ref →
      before.secrets.get secret = some ref) : Evolves before after :=
  ⟨Nat.le_of_eq next.symm, fun _ _ confirmed => by rw [records]; exact ⟨confirmed, rfl⟩,
    fun secret ref found => .inl (names secret ref found)⟩

theorem remove (secret : String) : Evolves secrets (secrets.remove secret) := by
  refine fewer rfl rfl fun other ref found => ?_
  change (secrets.secrets.delete secret).get other = some ref at found
  rw [OrderedMap.get_delete] at found
  split at found
  · contradiction
  · exact found

/-- A record rewritten so that a confirmation stays, with its client. -/
theorem rewrite {secrets : Secrets} {ref : Ref} {change : SecretState → SecretState}
    (kept : (secrets.records ref).confirmed = true →
      (change (secrets.records ref)).confirmed = true ∧
        (change (secrets.records ref)).clientPubkey = (secrets.records ref).clientPubkey) :
    Evolves secrets (secrets.update ref change) := by
  refine ⟨Nat.le_refl _, fun other _ confirmed => ?_, fun _ _ found => .inl found⟩
  change (Function.update secrets.records ref (change (secrets.records ref)) other).confirmed = true ∧
    (Function.update secrets.records ref (change (secrets.records ref)) other).clientPubkey = _
  by_cases same : other = ref
  · subst same
    rw [Function.update_self]
    exact kept confirmed
  · rw [Function.update_of_ne same]
    exact ⟨confirmed, rfl⟩

theorem insert (secret : String) (record : SecretState) :
    Evolves secrets (secrets.insert secret record) := by
  refine ⟨Nat.le_succ _, fun other old confirmed => ?_, fun other ref found => ?_⟩
  · change (Function.update secrets.records secrets.next record other).confirmed = true ∧
      (Function.update secrets.records secrets.next record other).clientPubkey = _
    rw [Function.update_of_ne (Nat.ne_of_lt old)]
    exact ⟨confirmed, rfl⟩
  · change (secrets.secrets.set secret secrets.next).get other = some ref at found
    rw [OrderedMap.get_set] at found
    split at found
    · exact .inr (Nat.le_of_eq (Option.some.inj found))
    · exact .inl found

theorem schedule (expiresAt : Number) :
    Evolves secrets (secrets.scheduleSweep expiresAt) := by
  refine fewer (secrets.scheduleSweep_records _) (secrets.scheduleSweep_next _) ?_
  intro secret ref found
  rwa [Secrets.scheduleSweep_secrets] at found

theorem bound {secret client : String} {relays : Option (List String)} {ref : Ref}
    {secrets : Secrets} {approvals : List Approval} (ledger : Ledger secrets approvals)
    (bound : Bound host secrets secret client relays ref after) : Evolves secrets after := by
  cases bound with
  | existing found free =>
    refine rewrite fun confirmed => ⟨confirmed, ?_⟩
    obtain ⟨other, known⟩ := Option.isSome_iff_exists.mp (ledger.claimed ref confirmed)
    rw [known, free other known]
    rfl
  | fresh absent room =>
    refine (insert _ _ _).trans (rewrite fun confirmed => ?_)
    change (Function.update secrets.records secrets.next _ secrets.next).confirmed = true at confirmed
    rw [Function.update_self] at confirmed
    contradiction

theorem unbind (ref : Ref) (secret : String) :
    Evolves secrets (secrets.unbind ref secret) := by
  have released : Evolves secrets (secrets.update ref Secrets.released) := by
    refine rewrite fun confirmed => ?_
    unfold Secrets.released
    split
    · next last =>
      have unconfirmed : (secrets.records ref).confirmed = false := last.2
      rw [confirmed] at unconfirmed
      contradiction
    · exact ⟨confirmed, rfl⟩
  refine released.trans (fewer (secrets.unbind_records ref secret) (secrets.unbind_next ref secret) ?_)
  intro other held found
  rcases secrets.unbind_secrets ref secret with same | gone
  · rw [same] at found
    exact found
  · rw [gone, OrderedMap.get_delete] at found
    split at found
    · contradiction
    · exact found

theorem minted (secret : String) (relays : List String) (ttl : Number) (now : Rat) :
    Evolves secrets (Server.minted secrets secret relays ttl now) := by
  unfold Server.minted
  split
  · split
    · exact rewrite fun confirmed => ⟨confirmed, rfl⟩
    · exact refl _
  · dsimp only
    split
    · exact (schedule _ _).trans (insert _ _ _)
    · exact insert _ _ _

theorem installed (entry : String × SecretState) :
    Evolves secrets (Server.installSecret secrets entry) := by
  unfold Server.installSecret
  dsimp only
  split
  · split
    · exact (insert _ _ _).trans (schedule _ _)
    · exact insert _ _ _
  · exact insert _ _ _

end Evolves

variable {approval : Approval} {ref : Ref}

theorem withHeld_secrets {change : Secrets → Ref → Secrets} (held : approval.record = some ref) :
    (server.withHeld approval change).secrets = change server.secrets ref := by
  unfold Server.withHeld
  rw [held]

theorem withHeld_evolves (server : Server) (approval : Approval) {change : Secrets → Ref → Secrets}
    (evolves : ∀ ref, Evolves server.secrets (change server.secrets ref)) :
    Evolves server.secrets (server.withHeld approval change).secrets := by
  unfold Server.withHeld
  cases approval.record with
  | none => exact .refl _
  | some ref => exact evolves ref

theorem withApproved_evolves (server : Server) (approval : Approval) :
    Evolves server.secrets (server.withApproved approval).secrets :=
  withHeld_evolves server approval fun _ => .rewrite fun _ => ⟨rfl, rfl⟩

theorem edit_evolves (edit : Edit host origin move server after) (accounted : Accounted host server) :
    Evolves server.secrets after.secrets := by
  cases edit with
  | swept now =>
    exact .fewer (Secrets.sweep_records _ now) (Secrets.sweep_next _ now)
      fun _ _ found => Secrets.sweep_get found
  | dropped => exact .remove _ _
  | minted => exact .minted _ _ _ _ _
  | revoked => exact .remove _ _
  | evicted => exact .remove _ _
  | installed => exact .installed _ _
  | @seen _ pubkey key author curve =>
    rw [(seen_frames host server pubkey key).2.2.1]
    exact .refl _
  | @began _ frame approval secrets admissions under keyed bound unbound fit =>
    cases held : approval.record with
    | none => exact (unbound held).1 ▸ .refl _
    | some ref => exact .bound accounted.ledger (bound ref held)
  | @unbound index frame approval =>
    exact withHeld_evolves (origin.ended index approval) _ fun ref => .unbind _ ref _
  | @discarded index frame approval =>
    exact withHeld_evolves (origin.ended index approval) _ fun _ =>
      .rewrite fun confirmed => ⟨confirmed, rfl⟩
  | @approved index frame approval => exact withApproved_evolves (origin.ended index approval) approval
  | @unadmitted index frame approval => exact withApproved_evolves (origin.ended index approval) approval
  | _ => exact .refl _

/-! ## Admissions -/

/-- The client's own approval is answered while its record, if it holds one, is
the one its secret names. -/
structure Justified (origin : Server) (move : Move) (client : String) (record : Option Ref)
    (frame : Frame) (approval : Approval) : Prop where
  answered : ∃ index text now, move = .resume index (.ok text) now ∧
    origin.frames[index]? = some frame
  under : frame.approval? = some approval
  own : approval.client = client
  held : approval.record = record
  live : ∀ ref, record = some ref → origin.secrets.secrets.get approval.secret = some ref

theorem edit_notes (edit : Edit host origin move server after) :
    ∃ notes, after.history = server.history ++ notes ∧
      (∀ client record, .admitted client (.approved record) ∈ notes →
        ∃ frame approval, Justified origin move client record frame approval) ∧
      (∀ client, .admitted client .restored ∈ notes →
        ∃ state allowUnsigned now, move = .restore state allowUnsigned now) := by
  have quiet : ∀ notes : List Note, (∀ client admission, .admitted client admission ∉ notes) →
      (∀ client record, .admitted client (.approved record) ∈ notes →
        ∃ frame approval, Justified origin move client record frame approval) ∧
      (∀ client, .admitted client .restored ∈ notes →
        ∃ state allowUnsigned now, move = .restore state allowUnsigned now) :=
    fun notes none => ⟨fun client record member => absurd member (none client _),
      fun client member => absurd member (none client _)⟩
  cases edit with
  | @approved index frame approval text now relays key moved found under live =>
    refine ⟨[.admitted approval.client (.approved approval.record)], rfl, ?_, ?_⟩
    · intro client record member
      cases List.mem_singleton.mp member
      exact ⟨frame, approval, ⟨index, text, now, moved, found⟩, under, rfl, rfl, live⟩
    · intro client member
      cases List.mem_singleton.mp member
  | @readmitted _ state allowUnsigned now client restored moved =>
    refine ⟨[.admitted client .restored], rfl, ?_, ?_⟩
    · intro client record member
      cases List.mem_singleton.mp member
    · intro client member
      exact ⟨state, allowUnsigned, now, moved⟩
  | @seen _ pubkey key author curve =>
    obtain ⟨notes, kind, history⟩ := seen_notes host server pubkey key
    refine ⟨notes, history, quiet notes fun client admission member => ?_⟩
    rcases kind _ member with same | same <;> contradiction
  | handed => exact ⟨[_], rfl, quiet _ (by simp)⟩
  | published => exact ⟨[_], rfl, quiet _ (by simp)⟩
  | departed => exact ⟨[_], rfl, quiet _ (by simp)⟩
  | evicted => exact ⟨[_], rfl, quiet _ (by simp)⟩
  | _ => exact ⟨[], (List.append_nil _).symm, quiet _ (by simp)⟩

theorem edits_notes (edits : Edits host origin move server after) :
    ∃ notes, after.history = server.history ++ notes ∧
      (∀ client record, .admitted client (.approved record) ∈ notes →
        ∃ frame approval, Justified origin move client record frame approval) ∧
      (∀ client, .admitted client .restored ∈ notes →
        ∃ state allowUnsigned now, move = .restore state allowUnsigned now) := by
  induction edits with
  | refl => exact ⟨[], (List.append_nil _).symm, by simp, by simp⟩
  | tail _ edit ih =>
    obtain ⟨first, before, approvals, restores⟩ := ih
    obtain ⟨last, now, approved, restored⟩ := edit_notes edit
    refine ⟨first ++ last, by rw [now, before, List.append_assoc], ?_, ?_⟩
    · intro client record member
      rcases List.mem_append.mp member with old | new
      · exact approvals client record old
      · exact approved client record new
    · intro client member
      rcases List.mem_append.mp member with old | new
      · exact restores client old
      · exact restored client new

structure Paired (host : Host) (server : Server) : Prop where
  accounted : Accounted host server
  admitted : ∀ client ref, .admitted client (.approved (some ref)) ∈ server.history →
    ref < server.secrets.next ∧ (server.secrets.records ref).confirmed = true ∧
      (server.secrets.records ref).clientPubkey = some client

theorem Paired.edit (edit : Edit host origin move server after) (start : Paired host origin)
    (paired : Paired host server) : Paired host after := by
  have evolves := edit_evolves edit paired.accounted
  refine ⟨start.accounted.edit edit paired.accounted, fun client ref member => ?_⟩
  have older : .admitted client (.approved (some ref)) ∈ server.history →
      ref < after.secrets.next ∧ (after.secrets.records ref).confirmed = true ∧
        (after.secrets.records ref).clientPubkey = some client := by
    intro old
    obtain ⟨given, confirmed, owner⟩ := paired.admitted client ref old
    obtain ⟨still, same⟩ := evolves.confirmed ref given confirmed
    exact ⟨Nat.lt_of_lt_of_le given evolves.next, still, same.trans owner⟩
  cases edit with
  | @approved index frame approval text now relays key moved found under live =>
    rcases List.mem_append.mp member with old | new
    · exact older old
    · have same := List.mem_singleton.mp new
      simp only [Note.admitted.injEq, Admission.approved.injEq] at same
      obtain ⟨rfl, held⟩ := same
      have member : approval ∈ origin.approvals :=
        (approvals_ended found under).mem_iff.mpr (List.mem_cons_self ..)
      have owner := start.accounted.ledger.bound approval member ref held.symm
      have given := start.accounted.ledger.taken approval member ref held.symm
      have secrets : ((origin.ended index approval).withApproved approval).secrets =
          origin.secrets.update ref (.approved approval.brought) := withHeld_secrets held.symm
      change ref < ((origin.ended index approval).withApproved approval).secrets.next ∧
        (((origin.ended index approval).withApproved approval).secrets.records ref).confirmed = true ∧
        (((origin.ended index approval).withApproved approval).secrets.records ref).clientPubkey = _
      rw [secrets, Secrets.update_records_self]
      exact ⟨given, rfl, owner⟩
  | @readmitted _ state allowUnsigned now client restored moved =>
    rcases List.mem_append.mp member with old | new
    · exact older old
    · cases List.mem_singleton.mp new
  | @seen _ pubkey key author curve =>
    obtain ⟨notes, kind, history⟩ := seen_notes host server pubkey key
    rw [history] at member
    rcases List.mem_append.mp member with old | new
    · exact older old
    · rcases kind _ new with same | same <;> contradiction
  | handed => exact older (by simpa [Server.note] using member)
  | published => exact older (by simpa [Server.note] using member)
  | departed => exact older (by simpa [Server.note, Server.departed] using member)
  | evicted => exact older (by simpa [Server.note, Server.departed] using member)
  | _ => exact older member

/-! ## A rejected scan -/

structure Undone (server after : Server) (ref : Ref) (secret : String) : Prop where
  clients : after.clients = server.clients
  frames : after.frames = server.frames
  owners : server.network.SameOwners after.network
  records : after.secrets.records = (server.secrets.unbind ref secret).records
  names : ∀ other held, after.secrets.secrets.get other = some held →
    (server.secrets.unbind ref secret).secrets.get other = some held

variable {secret : String}

theorem Undone.emit (undone : Undone server after ref secret) (now : Rat) :
    Undone server (after.emit host now) ref secret where
  clients := undone.clients
  frames := undone.frames
  owners := undone.owners
  records := (emit_records now).trans undone.records
  names := fun other held found => by
    apply undone.names
    unfold Server.emit at found
    dsimp only at found
    split at found
    · exact Secrets.sweep_get found
    · exact found

theorem Undone.closeSockets (undone : Undone server after ref secret) (urls : List String) :
    Undone server (after.closeSockets urls) ref secret :=
  { undone with owners := undone.owners.trans (Network.closeAll_same _ urls) }

theorem unbind_undone (server : Server) (ref : Ref) (secret : String) (now : Rat) :
    Undone server (server.unbind host ref secret now) ref secret := by
  have undone : Undone server { server with secrets := server.secrets.unbind ref secret } ref secret :=
    ⟨rfl, rfl, .refl _, rfl, fun _ _ found => found⟩
  unfold Server.unbind
  dsimp only
  split
  · split
    · exact (undone.closeSockets _).emit now
    · exact undone.emit now
  · exact undone

/-- A record whose last approval is undone is nobody's, and one that a scan made
is no longer named. -/
theorem unbind_leaves {secrets : Secrets} {approvals : List Approval}
    (ledger : Ledger secrets (approval :: approvals)) (holds : approval.record = some ref)
    (unconfirmed : ((secrets.unbind ref approval.secret).records ref).confirmed = false)
    (last : ∀ other ∈ approvals, other.record ≠ some ref) :
    ((secrets.unbind ref approval.secret).records ref).clientPubkey = none ∧
      (((secrets.unbind ref approval.secret).records ref).origin = .nostrconnect →
        ∀ secret, (secrets.unbind ref approval.secret).secrets.get secret ≠ some ref) := by
  have fewer := ledger.pending_pred holds
  have free : heldBy approvals ref = 0 := by
    unfold heldBy
    rw [List.countP_eq_zero]
    intro other member held
    exact last other member (by simpa using held)
  have idle : (secrets.records ref).settled.pending ≤ 0 := by
    change (secrets.records ref).pending - 1 ≤ 0
    omega
  rw [secrets.unbind_records, Function.update_self] at unconfirmed ⊢
  have before : (secrets.records ref).settled.confirmed = false := by
    unfold Secrets.released at unconfirmed
    split at unconfirmed
    · next both => exact both.2
    · exact unconfirmed
  unfold Secrets.released
  rw [if_pos ⟨idle, before⟩]
  refine ⟨rfl, fun scan secret named => ?_⟩
  have scan : (secrets.records ref).settled.origin = .nostrconnect := scan
  unfold Secrets.unbind at named
  dsimp only at named
  rw [if_pos ⟨idle, before⟩] at named
  split at named
  · change (secrets.secrets.delete approval.secret).get secret = some ref at named
    rw [OrderedMap.get_delete] at named
    split at named
    · contradiction
    · next differs =>
      exact differs (ledger.named approval (List.mem_cons_self ..) ref secret holds named)
  · next apart =>
    have same := ledger.named approval (List.mem_cons_self ..) ref secret holds named
    subst same
    exact apart ⟨scan, named⟩

variable {now : Rat}

theorem rejected_scan {index : Nat} {parsed : NostrConnectUri} {requestId : String} {slot : Bool}
    {fault : Fault} {next : Server} (accounted : Accounted host server)
    (found : server.frames[index]? = some (.scanApproval parsed requestId ref slot))
    (stepped : server.step host (.resume index (.error fault) now) = some next) :
    next.clients = server.clients ∧
      (∀ owner url, next.network.Owns owner url ↔ server.network.Owns owner url) ∧
      ((next.secrets.records ref).confirmed = true ∨
        (∃ other ∈ next.approvals, other.record = some ref) ∨
        ((next.secrets.records ref).clientPubkey = none ∧
          ((next.secrets.records ref).origin = .nostrconnect →
            ∀ secret, next.secrets.secrets.get secret ≠ some ref))) := by
  let approval : Approval := {
    client := parsed.clientPubkey, secret := parsed.secret, record := some ref
    relays := parsed.relays, scanned := true, slot }
  have under : (Frame.scanApproval parsed requestId ref slot).approval? = some approval := rfl
  have ledger := accounted.ledger.perm (approvals_ended found under)
  obtain ⟨frame, same, resumed⟩ := Option.map_eq_some_iff.mp stepped
  rw [found] at same
  cases same
  have undone : Undone (server.ended index approval) next ref parsed.secret := by
    rw [← resumed]
    exact (unbind_undone _ ref parsed.secret now).closeSockets parsed.relays
  refine ⟨undone.clients, fun owner url => undone.owners.owns owner url, ?_⟩
  by_cases confirmed : (next.secrets.records ref).confirmed = true
  · exact .inl confirmed
  · by_cases held : ∃ other ∈ next.approvals, other.record = some ref
    · exact .inr (.inl held)
    · have unconfirmed := Bool.eq_false_of_not_eq_true confirmed
      rw [undone.records] at unconfirmed ⊢
      have left := unbind_leaves ledger rfl unconfirmed fun other member same =>
        held ⟨other, by unfold Server.approvals; rw [undone.frames]; exact member, same⟩
      refine .inr (.inr ⟨left.1, fun scan secret named => ?_⟩)
      exact left.2 scan secret (undone.names secret ref named)

/-! ## Pairings -/

theorem Paired.new (relays : List String) : Paired host (Server.new host relays) where
  accounted := {
    ledger := {
      count := fun _ => rfl
      bound := fun _ member => nomatch member
      given := fun _ _ found => nomatch found
      taken := fun _ member => nomatch member
      distinct := fun _ _ _ found => nomatch found
      named := fun _ member => nomatch member
      claimed := fun _ confirmed => nomatch confirmed }
    total := rfl
    required := fun _ _ member => nomatch member }
  admitted := fun _ _ member => nomatch member

theorem Paired.edits (start : Paired host origin) (edits : Edits host origin move origin server) :
    Paired host server :=
  edits.keep start fun _ _ edit paired => start.edit edit paired

variable {allowed : Server → Move → Prop}

theorem paired_of_run (run : Reaches (Server.step host) allowed origin server)
    (keyed : Keyed origin) (paired : Paired host origin) : Keyed server ∧ Paired host server :=
  run_invariant run keyed paired fun _ _ _ _ _ _ start edit _ before => start.edit edit before

theorem history_of_run (run : Reaches (Server.step host) allowed origin server)
    (keyed : Keyed origin) :
    ∃ notes, server.history = origin.history ++ notes := by
  let holds (server : Server) : Prop := ∃ notes, server.history = origin.history ++ notes
  have initially : holds origin := ⟨[], (List.append_nil _).symm⟩
  refine (run_invariant run keyed initially ?_).2
  intro first move server after _ _ _ edit _ before
  obtain ⟨notes, history⟩ := before
  obtain ⟨more, later, -⟩ := edit_notes edit
  exact ⟨notes ++ more, by rw [later, history, List.append_assoc]⟩

/-- A record that no secret names never is named again, and nobody is admitted
through it. -/
theorem unnamed_of_run (run : Reaches (Server.step host) allowed origin server)
    (keyed : Keyed origin) (paired : Paired host origin) (given : ref < origin.secrets.next)
    (unnamed : ∀ secret, origin.secrets.secrets.get secret ≠ some ref) :
    ∃ notes, server.history = origin.history ++ notes ∧
      ∀ client, .admitted client (.approved (some ref)) ∉ notes := by
  let holds (server : Server) : Prop :=
    Paired host server ∧ ref < server.secrets.next ∧
      (∀ secret, server.secrets.secrets.get secret ≠ some ref) ∧
      ∃ notes, server.history = origin.history ++ notes ∧
        ∀ client, .admitted client (.approved (some ref)) ∉ notes
  have initially : holds origin :=
    ⟨paired, given, unnamed, [], (List.append_nil _).symm, by simp⟩
  refine (run_invariant run keyed initially ?_).2.2.2.2
  intro first move server after _ _ ⟨start, _, free, _⟩ edit _ ⟨now, old, gone, notes, history, quiet⟩
  have evolves := edit_evolves edit now.accounted
  obtain ⟨more, later, approved, -⟩ := edit_notes edit
  refine ⟨start.edit edit now, Nat.lt_of_lt_of_le old evolves.next, fun secret named => ?_,
    notes ++ more, by rw [later, history, List.append_assoc], fun client member => ?_⟩
  · rcases evolves.names secret ref named with before | fresh
    · exact gone secret before
    · exact absurd old (Nat.not_lt.mpr fresh)
  · rcases List.mem_append.mp member with before | new
    · exact quiet client before
    · obtain ⟨frame, approval, justified⟩ := approved client _ new
      exact free approval.secret (justified.live ref rfl)

theorem emit_get (found : (server.emit host now).secrets.secrets.get secret = some ref) :
    server.secrets.secrets.get secret = some ref := by
  unfold Server.emit at found
  dsimp only at found
  split at found
  · exact Secrets.sweep_get found
  · exact found

variable {revoked : Server}

theorem revokeSecret_names {other : String}
    (revokes : server.revokeSecret host secret now = (true, revoked))
    (named : revoked.secrets.secrets.get other = some ref) :
    other ≠ secret ∧ server.secrets.secrets.get other = some ref := by
  have removed : (server.secrets.remove secret).secrets.get other = some ref := by
    unfold Server.revokeSecret at revokes
    split at revokes
    · cases revokes
    · cases revokes
      split at named
      · exact emit_get named
      · split at named
        · unfold Server.disconnectClient at named
          split at named
          · exact named
          · exact emit_get named
        · exact emit_get named
  change (server.secrets.secrets.delete secret).get other = some ref at removed
  rw [OrderedMap.get_delete] at removed
  split at removed
  · contradiction
  · next apart => exact ⟨apart, removed⟩

theorem revokeSecret_unnames (ledger : Ledger server.secrets server.approvals)
    (member : approval ∈ server.approvals) (under : approval.secret = secret)
    (holds : approval.record = some ref)
    (revokes : server.revokeSecret host secret now = (true, revoked)) (other : String) :
    revoked.secrets.secrets.get other ≠ some ref := by
  intro named
  obtain ⟨apart, before⟩ := revokeSecret_names revokes named
  exact apart ((ledger.named approval member ref other holds before).trans under)

theorem revokeSecret_next {answer : Bool}
    (revokes : server.revokeSecret host secret now = (answer, revoked))
    (paired : Paired host server) (keyed : Keyed server) :
    Keyed revoked ∧ Paired host revoked ∧ Evolves server.secrets revoked.secrets := by
  have edits : Edits host server (.revokeSecret secret now) server revoked := by
    have all : Edits host server (.revokeSecret secret now) server _ := edits_revokeSecret rfl
    rw [revokes] at all
    exact all
  refine ⟨keyed.edits edits, paired.edits edits, ?_⟩
  let holds (after : Server) : Prop := Paired host after ∧ Evolves server.secrets after.secrets
  have initially : holds server := ⟨paired, .refl _⟩
  refine (edits.keep initially fun before after edit now => ?_).2
  exact ⟨paired.edit edit now.1, now.2.trans (edit_evolves edit now.1.accounted)⟩

/-- Approvals pending under one record are its client's, and so is everybody
admitted through it; an approval admits while its record is the one its secret
names; what was pending under a revoked secret admits nobody; and a rejected scan
leaves nothing behind. -/
theorem pairings_are_exclusive {relays : List String}
    (run : Reaches (Server.step host) (fun _ _ => True) (Server.new host relays) server) :
    (∀ approval ∈ server.approvals, ∀ ref, approval.record = some ref →
      (server.secrets.records ref).clientPubkey = some approval.client) ∧
    (∀ left right ref, server.secrets.secrets.get left = some ref →
      server.secrets.secrets.get right = some ref → left = right) ∧
    (∀ left right ref, .admitted left (.approved (some ref)) ∈ server.history →
      .admitted right (.approved (some ref)) ∈ server.history → left = right) ∧
    (∀ move next, server.step host move = some next → ∃ notes, next.history = server.history ++ notes ∧
      (∀ client record, .admitted client (.approved record) ∈ notes →
        ∃ index text now frame approval, move = .resume index (.ok text) now ∧
          server.frames[index]? = some frame ∧ frame.approval? = some approval ∧
          approval.client = client ∧ approval.record = record ∧
          (host.options.requireSecret = true → record.isSome) ∧
          ∀ ref, record = some ref → server.secrets.secrets.get approval.secret = some ref ∧
            (server.secrets.records ref).clientPubkey = some client) ∧
      (∀ client, .admitted client .restored ∈ notes →
        ∃ state allowUnsigned now, move = .restore state allowUnsigned now)) ∧
    (∀ secret now revoked later, server.revokeSecret host secret now = (true, revoked) →
      Reaches (Server.step host) (fun _ _ => True) revoked later →
      ∃ notes, later.history = revoked.history ++ notes ∧
        ∀ approval ∈ server.approvals, ∀ ref, approval.secret = secret →
          approval.record = some ref → ∀ client, .admitted client (.approved (some ref)) ∉ notes) ∧
    (∀ index parsed requestId ref slot fault now next,
      server.frames[index]? = some (.scanApproval parsed requestId ref slot) →
      server.step host (.resume index (.error fault) now) = some next →
      next.clients = server.clients ∧
      (∀ owner url, next.network.Owns owner url ↔ server.network.Owns owner url) ∧
      ((next.secrets.records ref).confirmed = true ∨
        (∃ other ∈ next.approvals, other.record = some ref) ∨
        ((next.secrets.records ref).clientPubkey = none ∧
          ((next.secrets.records ref).origin = .nostrconnect →
            ∀ secret, next.secrets.secrets.get secret ≠ some ref)))) := by
  obtain ⟨keyed, paired⟩ := paired_of_run run (.new relays) (.new relays)
  have ledger := paired.accounted.ledger
  refine ⟨ledger.bound, ledger.distinct, ?_, ?_, ?_, ?_⟩
  · intro left right ref first second
    have one := (paired.admitted left ref first).2.2
    have two := (paired.admitted right ref second).2.2
    exact Option.some.inj (one.symm.trans two)
  · intro move next stepped
    obtain ⟨notes, history, approved, restored⟩ := edits_notes (step_edits keyed stepped)
    refine ⟨notes, history, fun client record member => ?_, restored⟩
    obtain ⟨frame, approval, justified⟩ := approved client record member
    obtain ⟨index, text, now, moved, found⟩ := justified.answered
    have pending : approval ∈ server.approvals :=
      (approvals_ended found justified.under).mem_iff.mpr (List.mem_cons_self ..)
    refine ⟨index, text, now, frame, approval, moved, found, justified.under, justified.own,
      justified.held, fun required => ?_, fun ref same => ⟨justified.live ref same, ?_⟩⟩
    · rw [← justified.held]
      exact paired.accounted.required required approval pending
    · rw [← justified.own]
      exact ledger.bound approval pending ref (justified.held.trans same)
  · intro secret now revoked later revokes rest
    obtain ⟨revokedKeyed, revokedPaired, evolves⟩ := revokeSecret_next revokes paired keyed
    obtain ⟨notes, history⟩ := history_of_run rest revokedKeyed
    refine ⟨notes, history, fun approval member ref under holds client noted => ?_⟩
    have given := Nat.lt_of_lt_of_le (ledger.taken approval member ref holds) evolves.next
    obtain ⟨others, same, quiet⟩ := unnamed_of_run rest revokedKeyed revokedPaired given
      (revokeSecret_unnames ledger member under holds revokes)
    rw [history] at same
    exact quiet client (List.append_cancel_left same ▸ noted)
  · intro index parsed requestId ref slot fault now next found stepped
    exact rejected_scan paired.accounted found stepped

/-- Two approvals of one client under one secret, of which the first admits it. -/
def pairedTwice : List Move :=
  let client := String.ofList (List.replicate 64 'a')
  [.createBunkerUri none (some "pairing") none (String.ofList (List.replicate 32 '0')) 0,
    .event (plainEvent client "1" "first") "wss://a.example/" 0,
    .event (plainEvent client "2" "second") "wss://a.example/" 0,
    .resume 0 (.ok "") 0]

/-- The second approval is still the client's the secret is bound to. -/
theorem pairings_are_exclusive_pairedTwice :
    let host := Host.plain (DEFAULTS ["wss://a.example/"]) fun content =>
      some (connectMessage content "pairing")
    ∃ server, exec (Server.step host) (Server.new host ["wss://a.example/"]) pairedTwice =
        some server ∧
      server.approvals.length = 1 ∧
      (∀ approval ∈ server.approvals, ∀ ref, approval.record = some ref →
        (server.secrets.records ref).clientPubkey = some approval.client) := by
  intro host
  have pending : ((exec (Server.step host) (Server.new host ["wss://a.example/"]) pairedTwice).map
      fun server => server.approvals.length) = some 1 := by decide +kernel
  obtain ⟨server, executed, one⟩ := Option.map_eq_some_iff.mp pending
  exact ⟨server, executed, one, (pairings_are_exclusive (.of_exec executed)).1⟩

/-- The counts of a server are the approvals in flight, and no expiry takes a secret that one of
them holds. -/
theorem approvals_are_counted {relays : List String}
    (run : Reaches (Server.step host) (fun _ _ => True) (Server.new host relays) server) :
    server.pendingApprovals = server.approvals.length ∧
    (∀ ref, (server.secrets.records ref).pending =
      server.approvals.countP fun approval => approval.record = some ref) ∧
    ∀ approval ∈ server.approvals, ∀ ref, approval.record = some ref → ∀ secret now,
      server.secrets.secrets.get secret = some ref →
      (server.secrets.sweep now).secrets.get secret = some ref := by
  have accounted := (paired_of_run run (.new relays) (.new relays)).2.accounted
  refine ⟨accounted.total, accounted.ledger.count, fun approval member ref holds secret now named => ?_⟩
  have held : 0 < heldBy server.approvals ref :=
    List.countP_pos_iff.mpr ⟨approval, member, decide_eq_true holds⟩
  have kept : Secrets.lapsed (server.secrets.records ref) now = false := by
    have busy : (server.secrets.records ref).pending ≠ 0 := by
      have count := accounted.ledger.count ref
      omega
    simp [Secrets.lapsed, busy]
  unfold Secrets.sweep
  split
  · exact named
  · rw [OrderedMap.get_filter, named]
    simp [kept]

theorem approvals_are_counted_pairedTwice :
    let host := Host.plain (DEFAULTS ["wss://a.example/"]) fun content =>
      some (connectMessage content "pairing")
    ∃ server, exec (Server.step host) (Server.new host ["wss://a.example/"]) pairedTwice =
        some server ∧ server.pendingApprovals = server.approvals.length := by
  intro host
  have ran : (exec (Server.step host) (Server.new host ["wss://a.example/"]) pairedTwice).isSome := by
    decide +kernel
  obtain ⟨server, executed⟩ := Option.isSome_iff_exists.mp ran
  exact ⟨server, executed, (approvals_are_counted (.of_exec executed)).1⟩

/-! ### Admitted without a secret -/

def openOptions : BunkerOptions := { DEFAULTS ["wss://a.example/"] with requireSecret := false }

theorem client_may_be_admitted_unpaired :
    let host := Host.plain openOptions fun content => some (connectMessage content "unknown")
    let client := String.ofList (List.replicate 64 'a')
    ∃ pending admitted,
      exec (Server.step host) (Server.new host ["wss://a.example/"])
        [.event (plainEvent client "1" "connect") "wss://a.example/" 0] = some pending ∧
      pending.approvals.map (fun approval => (approval.client, approval.secret)) =
        [(client, "unknown")] ∧
      pending.secrets.secrets.get "unknown" = none ∧
      pending.step host (.resume 0 (.ok "") 0) = some admitted ∧
      .admitted client (.approved none) ∈ admitted.history := by
  intro host client
  have known : (exec (Server.step host) (Server.new host ["wss://a.example/"])
      [.event (plainEvent client "1" "connect") "wss://a.example/" 0]).bind (fun pending =>
        (pending.step host (.resume 0 (.ok "") 0)).map fun admitted =>
          (pending.approvals.map fun approval => (approval.client, approval.secret),
            pending.secrets.secrets.get "unknown", admitted.history.getLast?)) =
      some ([(client, "unknown")], none, some (.admitted client (.approved none))) := by
    decide +kernel
  obtain ⟨pending, executed, known⟩ := Option.bind_eq_some_iff.mp known
  obtain ⟨admitted, stepped, known⟩ := Option.map_eq_some_iff.mp known
  obtain ⟨waiting, known⟩ := Prod.mk.inj known
  obtain ⟨absent, last⟩ := Prod.mk.inj known
  exact ⟨pending, admitted, executed, waiting, absent, stepped, List.mem_of_getLast? last⟩

end NostrWot.Bunker
