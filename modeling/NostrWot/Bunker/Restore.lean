import NostrWot.Bunker.Edits

namespace NostrWot.Bunker

open NostrWot.Data NostrWot.Sync

/-! # Restoring, and the ceilings -/

variable {host : Host} {origin server after : Server} {move : Move}

/-! ## The ceilings -/

structure Roomy (host : Host) (server : Server) : Prop where
  clients : server.clients.size ≤ host.options.maxClients
  secrets : server.secrets.secrets.size ≤ host.options.maxSecrets

theorem sweep_size_le (store : Secrets) (now : Rat) :
    (store.sweep now).secrets.size ≤ store.secrets.size :=
  (Secrets.sweep_sublist store now).length_le

theorem unbind_size_le (store : Secrets) (ref : Ref) (secret : String) :
    (store.unbind ref secret).secrets.size ≤ store.secrets.size := by
  rcases store.unbind_secrets ref secret with same | gone
  · rw [same]
  · rw [gone]
    exact OrderedMap.size_delete_le _ _

theorem set_size_le {α : Type} {map : OrderedMap String α} {limit : Nat} {key : String} {value : α}
    (held : map.size ≤ limit) (room : map.has key = true ∨ map.size < limit) :
    (map.set key value).size ≤ limit := by
  rw [OrderedMap.size_set]
  split
  · exact held
  · next absent =>
    have room := room.resolve_left absent
    omega

theorem Bound.size_le {secrets after : Secrets} {secret client : String}
    {relays : Option (List String)} {ref : Ref} (bound : Bound host secrets secret client relays ref after)
    (held : secrets.secrets.size ≤ host.options.maxSecrets) :
    after.secrets.size ≤ host.options.maxSecrets := by
  cases bound with
  | existing => exact held
  | fresh absent room => exact set_size_le held (.inr room)

theorem minted_size_le {secrets : Secrets} {secret : String} {relays : List String} {ttl : Number}
    {now : Rat} {limit : Nat} (held : secrets.secrets.size ≤ limit)
    (room : (secrets.secrets.get secret).isSome ∨ secrets.secrets.size < limit) :
    (Server.minted secrets secret relays ttl now).secrets.size ≤ limit := by
  unfold Server.minted
  split
  · split <;> exact held
  · dsimp only
    split
    · refine set_size_le ?_ ?_
      · rw [Secrets.scheduleSweep_secrets]
        exact held
      · rw [Secrets.scheduleSweep_secrets]
        exact room
    · exact set_size_le held room

theorem seen_size (host : Host) (server : Server) (pubkey key : String) :
    (server.seen host pubkey key).2.clients.size = server.clients.size := by
  unfold Server.seen Server.noteNew
  split
  · next client found =>
    have same : (server.clients.set pubkey { client with
        seen := (client.seen.addIfNew key).2 }).size = server.clients.size := by
      rw [OrderedMap.size_set, OrderedMap.has, found]
      rfl
    dsimp only
    split <;> exact same
  · unfold Server.opened
    dsimp only
    split <;> split <;> rfl

theorem withHeld_size_le (server : Server) (approval : Approval) (change : Secrets → Ref → Secrets)
    (fewer : ∀ ref, (change server.secrets ref).secrets.size ≤ server.secrets.secrets.size) :
    (server.withHeld approval change).secrets.secrets.size ≤ server.secrets.secrets.size := by
  unfold Server.withHeld
  cases approval.record with
  | none => exact Nat.le_refl _
  | some ref => exact fewer ref

theorem withApproved_size_le (server : Server) (approval : Approval) :
    (server.withApproved approval).secrets.secrets.size ≤ server.secrets.secrets.size :=
  withHeld_size_le server approval _ fun _ => Nat.le_refl _

theorem Roomy.edit (edit : Edit host origin move server after) (roomy : Roomy host server) :
    Roomy host after := by
  have deleted : ∀ secret, (server.secrets.remove secret).secrets.size ≤ host.options.maxSecrets :=
    fun secret => Nat.le_trans (OrderedMap.size_delete_le _ _) roomy.secrets
  have left : ∀ client, (server.clients.delete client).size ≤ host.options.maxClients :=
    fun client => Nat.le_trans (OrderedMap.size_delete_le _ _) roomy.clients
  cases edit with
  | swept now => exact ⟨roomy.clients, Nat.le_trans (sweep_size_le _ now) roomy.secrets⟩
  | dropped => exact ⟨roomy.clients, deleted _⟩
  | minted moved random normalized room => exact ⟨roomy.clients, minted_size_le roomy.secrets room⟩
  | installed moved room =>
    refine ⟨roomy.clients, ?_⟩
    change (Server.installSecret server.secrets _).secrets.size ≤ _
    rw [installSecret_secrets]
    exact set_size_le roomy.secrets room
  | revoked => exact ⟨roomy.clients, deleted _⟩
  | evicted => exact ⟨left _, deleted _⟩
  | departed => exact ⟨left _, roomy.secrets⟩
  | readmitted moved keyed room => exact ⟨set_size_le roomy.clients (.inr room), roomy.secrets⟩
  | @seen _ pubkey key author curve =>
    obtain ⟨-, -, secrets, -⟩ := seen_frames host server pubkey key
    exact ⟨seen_size host server pubkey key ▸ roomy.clients, secrets ▸ roomy.secrets⟩
  | @began _ frame approval secrets admissions under keyed bound unbound fit =>
    refine ⟨roomy.clients, ?_⟩
    cases held : approval.record with
    | none => exact (unbound held).1 ▸ roomy.secrets
    | some ref => exact (bound ref held).size_le roomy.secrets
  | @unbound index frame approval =>
    refine ⟨roomy.clients, Nat.le_trans ?_ roomy.secrets⟩
    apply withHeld_size_le (origin.ended index approval)
    exact fun ref => unbind_size_le _ ref _
  | @discarded index frame approval =>
    refine ⟨roomy.clients, Nat.le_trans ?_ roomy.secrets⟩
    apply withHeld_size_le (origin.ended index approval)
    exact fun ref => Nat.le_refl _
  | @unadmitted index frame approval =>
    exact ⟨roomy.clients,
      Nat.le_trans (withApproved_size_le (origin.ended index approval) approval) roomy.secrets⟩
  | @approved index frame approval text now relays key moved found under live room =>
    unfold Server.roomFor at room
    rw [Bool.or_eq_true, decide_eq_true_eq] at room
    exact ⟨set_size_le roomy.clients room,
      Nat.le_trans (withApproved_size_le (origin.ended index approval) approval) roomy.secrets⟩
  | _ => exact ⟨roomy.clients, roomy.secrets⟩

/-! ## Generations -/

/-- The moves that keep a restored state safe: no admission of a restored client
fails, and a revocation finds a generation that it can still count up. -/
def Steady (server : Server) : Move → Prop
  | .resume index (.error _) _ => ∀ frame, server.frames[index]? = some frame → frame ≠ .restoring
  | .revokeSecret _ _ => server.generation < 2 ^ 53
  | _ => True

/-- The moves in which a `restore` rejects. -/
def Rejects (host : Host) (server : Server) : Move → Prop
  | .restore state allowUnsigned now => ∃ fault,
      (Server.restore host state allowUnsigned now server).1 = .error fault
  | .resume index (.error _) _ => server.frames[index]? = some .restoring
  | _ => False

theorem generation_le (edit : Edit host origin move server after) (steady : Steady origin move) :
    server.generation ≤ after.generation := by
  cases edit with
  | revoked moved current =>
    subst moved
    have small : server.generation < 2 ^ 53 := current ▸ steady
    change server.generation ≤ nearestDouble (server.generation + 1)
    rw [nearestDouble_of_le small]
    exact Nat.le_succ _
  | evicted moved current =>
    subst moved
    have small : server.generation < 2 ^ 53 := current ▸ steady
    change server.generation ≤ nearestDouble (server.generation + 1)
    rw [nearestDouble_of_le small]
    exact Nat.le_succ _
  | adopted generation moved ahead => exact ahead
  | @seen _ pubkey key author curve => exact Nat.le_of_eq (seen_frames host server pubkey key).2.2.2.1.symm
  | _ => exact Nat.le_refl _

theorem generation_le_of_run (run : Reaches (Server.step host) Steady origin server)
    (keyed : Keyed origin) : origin.generation ≤ server.generation := by
  let holds (server : Server) : Prop := origin.generation ≤ server.generation
  have initially : holds origin := Nat.le_refl _
  refine (run_invariant run keyed initially ?_).2
  intro first move server after steady _ _ edit _ before
  exact Nat.le_trans before (generation_le edit steady)

theorem revokeSecret_generation {secret : String} {now : Rat} {revoked : Server}
    (revokes : server.revokeSecret host secret now = (true, revoked)) :
    revoked.generation = nearestDouble (server.generation + 1) := by
  unfold Server.revokeSecret at revokes
  split at revokes
  · cases revokes
  · cases revokes
    split
    · rfl
    · split
      · unfold Server.disconnectClient
        split <;> rfl
      · rfl

/-! ## Exports that are behind -/

section Exported

variable (host : Host) (server : Server) (now : Rat)

/-- The state `exportState` returns. -/
abbrev exported : Value := (server.exportState host now).1

theorem exported_isObject : (exported host server now).isObject = true := rfl

theorem exported_version : (exported host server now).field "version" = .number STATE_VERSION := rfl

theorem exported_generation :
    (exported host server now).field "generation" = .number (.finite server.generation) := rfl

theorem generationOf_nat (generation : Nat) :
    Server.generationOf (.number (.finite generation)) = .ok (generation : Rat) := by
  unfold Server.generationOf
  dsimp only
  rw [if_pos ⟨Rat.den_natCast generation, Rat.natCast_nonneg⟩]

end Exported

theorem admissibleGeneration_exported {other : Host} {allowUnsigned : Bool} {now generation : Rat}
    (admissible : Server.admissibleGeneration other (exported host server now) allowUnsigned =
      .ok generation) : generation = server.generation := by
  have current : (!(Value.number STATE_VERSION).isDefined ||
      Server.isNumber (.number STATE_VERSION) 1) = false := by decide
  have signed : Server.isNumber (.number STATE_VERSION) STATE_VERSION = true := by decide
  unfold Server.admissibleGeneration at admissible
  dsimp only at admissible
  rw [exported_isObject, exported_version, exported_generation, current, signed,
    generationOf_nat] at admissible
  split at admissible
  · contradiction
  · split at admissible
    · contradiction
    · split at admissible
      · split at admissible
        · contradiction
        · split at admissible
          · contradiction
          · exact (Except.ok.inj admissible).symm
      · contradiction

theorem restore_behind {other : Host} {fresh : Server} (now : Rat)
    (behind : server.generation < fresh.generation) (allowUnsigned : Bool) (restoredAt : Rat) :
    ∃ fault, Server.restore other (exported host server now) allowUnsigned restoredAt fresh =
      (.error fault, fresh) := by
  cases decided : fresh.planRestore other (exported host server now) allowUnsigned restoredAt with
  | error fault => exact ⟨fault, Server.restore_refused decided⟩
  | ok plan =>
    unfold Server.planRestore at decided
    obtain ⟨generation, admissible, decided⟩ := bind_ok decided
    obtain ⟨-, -, decided⟩ := bind_ok decided
    obtain ⟨⟨⟩, current, -⟩ := bind_ok decided
    have current := refuseIf_ok current
    rw [admissibleGeneration_exported admissible, decide_eq_false_iff_not] at current
    exact absurd (by exact_mod_cast behind) current

/-- A `restore` that rejects changes nothing, unless an admission fails once it
was applied; a state from before a revocation stays refused; and the ceilings hold. -/
theorem restore_is_safe {relays : List String}
    (run : Reaches (Server.step host) Steady (Server.new host relays) server) :
    (∀ move next, Steady server move → Rejects host server move →
      server.step host move = some next → next.clients = server.clients ∧
        next.secrets = server.secrets ∧ next.network = server.network ∧
        next.generation = server.generation) ∧
    (∀ exportedAt later secret revokedAt revoked,
      Reaches (Server.step host) Steady (server.exportState host exportedAt).2 later →
      Steady later (.revokeSecret secret revokedAt) →
      later.revokeSecret host secret revokedAt = (true, revoked) →
      ∀ (other : Host) (fresh : Server) (allowUnsigned : Bool) (restoredAt : Rat),
        revoked.generation ≤ fresh.generation →
        ∃ fault, Server.restore other (server.exportState host exportedAt).1 allowUnsigned restoredAt
          fresh = (.error fault, fresh)) ∧
    server.clients.size ≤ host.options.maxClients ∧
    server.secrets.secrets.size ≤ host.options.maxSecrets := by
  have initially : Roomy host (Server.new host relays) := ⟨Nat.zero_le _, Nat.zero_le _⟩
  have reached : Keyed server ∧ Roomy host server := by
    refine run_invariant run (.new relays) initially ?_
    intro origin move before after _ _ _ edit _ roomy
    exact roomy.edit edit
  obtain ⟨keyed, roomy⟩ := reached
  refine ⟨?_, ?_, roomy.clients, roomy.secrets⟩
  · intro move next steady rejects stepped
    cases move with
    | restore state allowUnsigned now =>
      obtain ⟨fault, refused⟩ := rejects
      cases stepped
      unfold Server.restoreCall
      cases decided : server.planRestore host state allowUnsigned now with
      | error fault =>
        rw [Server.restore_refused decided]
        exact ⟨rfl, rfl, rfl, rfl⟩
      | ok plan =>
        rw [Server.restore_applied decided] at refused
        contradiction
    | resume index outcome now =>
      cases outcome with
      | ok text => exact rejects.elim
      | error fault => exact absurd rfl (steady _ rejects)
    | _ => exact rejects.elim
  · intro exportedAt later secret revokedAt revoked between steady revokes other fresh allowUnsigned
      restoredAt ahead
    have exportedKeyed : Keyed (server.exportState host exportedAt).2 :=
      keyed.edits (edits_exportState exportedAt : Edits host server .start server _)
    have held : (server.exportState host exportedAt).2.generation ≤ later.generation :=
      generation_le_of_run between exportedKeyed
    replace held : server.generation ≤ later.generation := held
    have left := revokeSecret_generation revokes
    rw [nearestDouble_of_le steady] at left
    exact restore_behind exportedAt (by omega) allowUnsigned restoredAt

/-- The state from before a revocation is refused by the server that revoked. -/
theorem restore_is_safe_revoked :
    let host := Host.plain (DEFAULTS ["wss://a.example/"]) fun _ => none
    let minting : Move := .createBunkerUri none (some "pairing") none
      (String.ofList (List.replicate 32 '0')) 0
    ∃ server revoked fault,
      (Server.new host ["wss://a.example/"]).step host minting = some server ∧
      (server.exportState host 0).2.revokeSecret host "pairing" 0 = (true, revoked) ∧
      Server.restore host (server.exportState host 0).1 false 0 revoked = (.error fault, revoked) := by
  intro host minting
  obtain ⟨server, stepped, revokes⟩ : ∃ server,
      (Server.new host ["wss://a.example/"]).step host minting = some server ∧
      ((server.exportState host 0).2.revokeSecret host "pairing" 0).1 = true ∧
      (server.exportState host 0).2.generation < 2 ^ 53 := by
    have known : (((Server.new host ["wss://a.example/"]).step host minting).map fun server =>
        (((server.exportState host 0).2.revokeSecret host "pairing" 0).1 = true ∧
          (server.exportState host 0).2.generation < 2 ^ 53 : Bool)) = some true := by
      decide +kernel
    obtain ⟨server, stepped, known⟩ := Option.map_eq_some_iff.mp known
    exact ⟨server, stepped, by simpa using known⟩
  have run : Reaches (Server.step host) Steady (Server.new host ["wss://a.example/"]) server :=
    .step minting .refl trivial stepped
  have behind := (restore_is_safe run).2.1 0 _ "pairing" 0 _ .refl revokes.2
    (Prod.ext revokes.1 rfl) host _ false 0 (Nat.le_refl _)
  obtain ⟨fault, refused⟩ := behind
  exact ⟨server, _, fault, stepped, Prod.ext revokes.1 rfl, refused⟩

/-! ### A restore that rejects after it was applied -/

/-- A pool without `ensureRelay` that throws when it is asked to subscribe. -/
def throwingHost : Host :=
  { Host.plain (DEFAULTS ["wss://a.example/"]) (fun _ => some (connectMessage "request" "pairing")) with
    hasEnsureRelay := false
    subscribeThrows := fun _ => true }

def pairedState : Value :=
  let client := String.ofList (List.replicate 64 'a')
  ((exec (Server.step throwingHost) (Server.new throwingHost ["wss://a.example/"])
    [.createBunkerUri none (some "pairing") none (String.ofList (List.replicate 32 '0')) 0,
      .event (plainEvent client "1" "connect") "wss://a.example/" 0,
      .resume 0 (.ok "") 0]).map fun server => (server.exportState throwingHost 0).1).getD .null

theorem restore_may_reject_applied :
    ∃ before applied rejected,
      (Server.new throwingHost ["wss://a.example/"]).step throwingHost .start = some before ∧
      before.step throwingHost (.restore pairedState false 0) = some applied ∧
      Rejects throwingHost applied (.resume 0 (.error (error "subscribe threw")) 0) ∧
      applied.step throwingHost (.resume 0 (.error (error "subscribe threw")) 0) = some rejected ∧
      rejected.clients ≠ before.clients := by
  have known : ((Server.new throwingHost ["wss://a.example/"]).step throwingHost .start).bind
      (fun before => (before.step throwingHost (.restore pairedState false 0)).bind fun applied =>
        (applied.step throwingHost (.resume 0 (.error (error "subscribe threw")) 0)).map
          fun rejected => (before.clients.size, applied.frames[0]?.map Frame.client,
            rejected.clients.size)) = some (0, some none, 1) := by decide +kernel
  obtain ⟨before, started, known⟩ := Option.bind_eq_some_iff.mp known
  obtain ⟨applied, restored, known⟩ := Option.bind_eq_some_iff.mp known
  obtain ⟨rejected, resumed, known⟩ := Option.map_eq_some_iff.mp known
  obtain ⟨none, known⟩ := Prod.mk.inj known
  obtain ⟨waits, one⟩ := Prod.mk.inj known
  have waiting : applied.frames[0]? = some .restoring := by
    obtain ⟨frame, found, about⟩ := Option.map_eq_some_iff.mp waits
    cases frame <;> first | exact found | contradiction
  refine ⟨before, applied, rejected, started, restored, waiting, resumed, fun same => ?_⟩
  rw [same, none] at one
  contradiction

end NostrWot.Bunker
