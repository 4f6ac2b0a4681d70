import NostrWot.Signing.Consent

namespace NostrWot.Signing

open NostrWot.Data NostrWot.Permissions NostrWot.Async NostrWot.Async.Program

/-! # What a batch reports

Once a batch signs, its result and the activity log tell of every item what
became of it, unless the identity port rejects between two items.
-/

/-- A port may answer anything; a timer's promise is never rejected. -/
def given : (request : SignerCall) → Except Fault request.Reply → Prop
  | .yieldToHost, .error _ => False
  | _, _ => True

/-- The key was handed out for an item, or refused. -/
def Attempted (log : Log) : Prop :=
  ∃ exchange ∈ log, ∃ accountId, exchange.request = .withPrivkey accountId

def identityRejection (fault : Fault) : Exchange signerInterface :=
  ⟨.getActiveAccount, .error fault⟩

/-- The identity port rejected after the key was handed out for the first item. -/
def IdentityRejected (log : Log) : Prop :=
  ∃ before fault after, log = before ++ identityRejection fault :: after ∧ Attempted before

/-- The backend computed `value` for the item, and no scope around it was voided. -/
def Produced (prepared : PreparedParams) (turn : Log) (value : Value) : Prop :=
  (∃ key computation, Computes prepared computation ∧
    (⟨.compute key computation, .ok value⟩ : Exchange signerInterface) ∈ turn) ∧
  ∀ accessor fault, (⟨.leave accessor, .error fault⟩ : Exchange signerInterface) ∉ turn

def BatchItemOutcome.id : BatchItemOutcome → String
  | .ok id _ => id
  | .refused id _ _ => id

structure ItemReport where
  item : ValidatedBatchItem
  prepared : PreparedParams
  turn : Log
  outcome : BatchItemOutcome
  entry : ActivityEntry
  written : Except Fault Unit

structure ItemReport.Truthful (batchId : String) (report : ItemReport) : Prop where
  prepares : Prepares report.item.params report.prepared
  id : report.outcome.id = report.item.id
  produced : ∀ value,
    report.outcome = .ok report.item.id value ↔ Produced report.prepared report.turn value
  logged : report.entry.requestId = report.item.id ∧ report.entry.batchId = some batchId
  decision : report.entry.decision = .allow ↔ ∃ value, report.outcome = .ok report.item.id value

def Reported (validated : ValidatedBatch) (log : Log) (result : BatchResult) : Prop :=
  ∃ (before : Log) (reports : List ItemReport),
    reports.map ItemReport.item = validated.items ∧
    result = ⟨validated.request.id, reports.map ItemReport.outcome⟩ ∧
    log = before ++ reports.flatMap ItemReport.turn ++
      reports.map (fun report => ⟨.record report.entry, report.written⟩) ∧
    (∀ exchange ∈ before, executes exchange.request = false) ∧
    ∀ report ∈ reports, report.Truthful validated.request.id

variable {deps : SignerCoreDeps} {call : Nat} {α β : Type} {log : Log}

theorem runs_inspect {view : SignerCore → α} {outcome : Except Fault α} :
    (inspect view).Runs given log outcome ↔ log = [] ∧ ∃ core, outcome = .ok (view core) :=
  Program.runs_read

theorem runs_ask {request : SignerCall} {outcome : Except Fault request.Reply} :
    (ask request).Runs given log outcome ↔ given request outcome ∧ log = [⟨request, outcome⟩] :=
  Program.runs_call

/-! ## One item -/

section Item

variable {prepared : PreparedParams}

def Faithful (prepared : PreparedParams) (task : Task Value) : Prop :=
  ∀ turn outcome, task.Runs given turn outcome →
    ∀ value, outcome = .ok value ↔ Produced prepared turn value

theorem not_produced_nil {value : Value} : ¬ Produced prepared [] value := by
  simp [Produced]

/-- An exchange that neither computes nor leaves a scope. -/
def Neutral : SignerCall → Prop
  | .compute .. | .leave _ => False
  | _ => True

theorem produced_cons {exchange : Exchange signerInterface} {turn : Log} {value : Value}
    (neutral : Neutral exchange.request) :
    Produced prepared (exchange :: turn) value ↔ Produced prepared turn value := by
  have computed : ∀ key computation, exchange ≠ ⟨.compute key computation, .ok value⟩ := by
    intro key computation same
    rw [same] at neutral
    exact neutral
  have left : ∀ accessor fault, exchange ≠ ⟨.leave accessor, .error fault⟩ := by
    intro accessor fault same
    rw [same] at neutral
    exact neutral
  simp only [Produced, List.mem_cons]
  constructor
  · intro ⟨⟨key, computation, computes, member⟩, kept⟩
    exact ⟨⟨key, computation, computes, member.resolve_left (computed _ _).symm⟩,
      fun accessor fault voided => kept accessor fault (.inr voided)⟩
  · intro ⟨⟨key, computation, computes, member⟩, kept⟩
    exact ⟨⟨key, computation, computes, .inr member⟩, fun accessor fault voided =>
      kept accessor fault (voided.resolve_left (left _ _).symm)⟩

/-- Exchanges that leave what a turn produced as it is. -/
def Passing (log : Log) : Prop := ∀ exchange ∈ log, Neutral exchange.request

theorem produced_append {front turn : Log} {value : Value} (passing : Passing front) :
    Produced prepared (front ++ turn) value ↔ Produced prepared turn value := by
  induction front with
  | nil => rfl
  | cons exchange rest ih =>
    rw [List.cons_append, produced_cons (passing exchange List.mem_cons_self)]
    exact ih fun other member => passing other (List.mem_cons_of_mem _ member)

theorem Passing.not_produced {front : Log} (passing : Passing front) (value : Value) :
    ¬ Produced prepared front value := by
  rw [← List.append_nil front, produced_append passing]
  exact not_produced_nil

namespace Faithful

theorem raise (fault : Fault) : Faithful prepared (Signing.raise fault) := by
  intro turn outcome runs value
  obtain ⟨rfl, rfl⟩ := runs
  simp [not_produced_nil]

theorem refuse (code : SignerErrorCode) (message : String) :
    Faithful prepared (Signing.refuse code message) := raise _

theorem inspect {view : SignerCore → α} {next : α → Task Value}
    (rest : ∀ value, Faithful prepared (next value)) :
    Faithful prepared (Signing.inspect view >>= next) := by
  intro turn outcome runs
  obtain ⟨core, runs⟩ := runs
  exact rest _ turn outcome runs

theorem ask {request : SignerCall} {next : request.Reply → Task Value} (neutral : Neutral request)
    (rest : ∀ value, Faithful prepared (next value)) :
    Faithful prepared (Signing.ask request >>= next) := by
  intro turn outcome runs value
  obtain ⟨answer, rest', -, rfl, runs⟩ := runs
  rw [produced_cons neutral]
  cases answer with
  | ok answer => exact rest answer rest' outcome runs value
  | error fault =>
    obtain ⟨rfl, rfl⟩ := runs
    simp [not_produced_nil]

theorem compute {key : String} {computation : Computation} (computes : Computes prepared computation) :
    Faithful prepared (Signing.ask (.compute key computation)) := by
  intro turn outcome runs value
  obtain ⟨-, rfl⟩ := runs_ask.mp runs
  constructor
  · intro same
    subst same
    exact ⟨⟨key, computation, computes, by simp⟩, by simp⟩
  · intro ⟨⟨_, _, _, member⟩, _⟩
    simp only [List.mem_singleton, Exchange.mk.injEq] at member
    obtain ⟨same, equal⟩ := member
    cases same
    exact (eq_of_heq equal).symm

theorem liftExcept {value : Except Fault α} {next : α → Task Value}
    (rest : ∀ result, value = .ok result → Faithful prepared (next result)) :
    Faithful prepared (Signing.liftExcept value >>= next) := by
  cases value with
  | ok value => exact rest value rfl
  | error fault => exact raise fault

theorem rethrow {task : Task Value} {handler : Fault → Task Value} (faithful : Faithful prepared task)
    (fails : ∀ fault log outcome, (handler fault).Runs given log outcome →
      log = [] ∧ ∃ error, outcome = .error error) :
    Faithful prepared (Program.tryCatch task handler) := by
  intro turn outcome runs value
  rcases Program.runs_tryCatch.mp runs with ⟨result, rfl, ran⟩ | ⟨first, rest, fault, rfl, ran, after⟩
  · exact faithful turn _ ran value
  · obtain ⟨rfl, error, rfl⟩ := fails fault rest outcome after
    have unproduced := faithful first _ ran value
    simpa using unproduced

theorem inScope {accessor : Accessor} {fn : Task Value} (faithful : Faithful prepared fn) :
    Faithful prepared (Signing.inScope accessor fn) := by
  intro turn outcome runs value
  unfold Signing.inScope at runs
  have body : ∀ log (result : Except Fault (Except Fault Value)),
      ((do return Except.ok (← fn) : Task (Except Fault Value)).tryCatch
        fun fault => return .error fault).Runs given log result →
      ∃ inner, result = .ok inner ∧ fn.Runs given log inner := by
    intro log result caught
    rcases Program.runs_tryCatch.mp caught with ⟨inner, same, ran⟩ | ⟨_, _, fault, split, ran, ended⟩
    · rcases Program.runs_bind.mp ran with ⟨_, _, value, split, did, ended⟩ | ⟨_, failure, _⟩
      · obtain ⟨empty, finished⟩ := ended
        cases finished
        subst split empty same
        exact ⟨.ok value, rfl, by simpa using did⟩
      · cases failure
    · obtain ⟨empty, finished⟩ := ended
      rcases Program.runs_bind.mp ran with ⟨_, _, _, _, _, ended⟩ | ⟨_, failure, did⟩
      · cases ended.2
      · cases failure
        subst split empty finished
        exact ⟨.error fault, rfl, by simpa using did⟩
  rcases Program.runs_bind.mp runs with ⟨first, rest, result, rfl, caught, left⟩ | ⟨fault, _, caught⟩
  · obtain ⟨inner, same, ran⟩ := body _ _ caught
    cases same
    have produced := faithful first result ran value
    obtain ⟨answer, rest', -, rfl, left⟩ := left
    cases answer with
    | error fault =>
      obtain ⟨rfl, rfl⟩ := left
      simp only [reduceCtorEq, false_iff]
      intro ⟨_, kept⟩
      exact kept accessor fault (by simp)
    | ok _ =>
      have ended : rest' = [] ∧ outcome = result := by cases result <;> exact left
      obtain ⟨rfl, rfl⟩ := ended
      rw [produced]
      simp [Produced]
  · obtain ⟨inner, same, -⟩ := body _ _ caught
    cases same

variable {account : SafeAccount}

theorem withPqKeys {fn : PqKeyScope → Task Value}
    (faithful : ∀ scope, Faithful prepared (fn scope)) :
    Faithful prepared (Signing.withPqKeys deps account fn) := by
  unfold Signing.withPqKeys
  split
  · exact refuse _ _
  · refine inspect fun locked => ?_
    split
    · exact raise _
    · refine inspect fun imported => ?_
      split
      · exact ask trivial fun _ => inScope (faithful _)
      · refine inspect fun mnemonic => ?_
        split
        · exact refuse _ _
        · refine ask trivial fun phrase => inScope ?_
          split
          · exact refuse _ _
          · exact ask trivial fun _ => inScope (faithful _)

theorem execute {key : String} :
    Faithful prepared (Signing.execute deps account key prepared) := by
  unfold Signing.execute
  split
  · exact withPqKeys fun scope => liftExcept fun _ same => compute (.inr ⟨scope.keys, same⟩)
  · exact inspect fun now => liftExcept fun _ same => compute (.inl ⟨now, same⟩)

theorem signLocally :
    Faithful prepared (Signing.signLocally deps account prepared) := by
  unfold Signing.signLocally
  refine rethrow (ask trivial fun key => inScope (ask trivial fun pubkey => ?_)) ?_
  · split
    · exact refuse _ _
    · refine rethrow execute fun fault log outcome runs => ?_
      split at runs
      · exact ⟨runs.1, _, runs.2⟩
      · obtain ⟨core, rfl, rfl⟩ := runs
        exact ⟨rfl, _, rfl⟩
  · intro fault log outcome runs
    split at runs <;> exact ⟨runs.1, _, runs.2⟩

end Faithful

end Item

/-! ## The item loop -/

/-- What `runItems` did for one item. -/
structure Turn where
  item : ValidatedBatchItem
  prepared : PreparedParams
  exchanges : Log
  run : ItemRun

structure Turn.Sound (turn : Turn) : Prop where
  id : turn.run.id = turn.item.id
  produced : ∀ value, turn.run.outcome = .ok value ↔ Produced turn.prepared turn.exchanges value

def Identified (log : Log) : Prop := ∀ fault, identityRejection fault ∉ log

theorem Identified.append {first second : Log} (left : Identified first)
    (right : Identified second) : Identified (first ++ second) := by
  intro fault member
  exact (List.mem_append.mp member).elim (left fault) (right fault)

variable {account : SafeAccount}

theorem signLocally_runs {prepared : PreparedParams} {outcome : Except Fault Value}
    (runs : (signLocally deps account prepared).Runs given log outcome) :
    Attempted log ∧ Identified log := by
  constructor
  · unfold signLocally at runs
    have scope : ∀ {first : Log} {result : Except Fault Value} {next : String → Task Value},
        (ask (.withPrivkey account.id) >>= next).Runs given first result → Attempted first := by
      intro first result next ran
      obtain ⟨answer, rest, -, rfl, -⟩ := ran
      exact ⟨_, List.mem_cons_self, account.id, rfl⟩
    rcases Program.runs_tryCatch.mp runs with ⟨_, _, ran⟩ | ⟨first, rest, _, rfl, ran, _⟩
    · exact scope ran
    · obtain ⟨exchange, member, key⟩ := scope ran
      exact ⟨exchange, List.mem_append_left _ member, key⟩
  · have confined : Confined 0 (· ≠ .getActiveAccount) (signLocally deps account prepared) :=
      signLocally_confined (fun request opens same => by simp [same, opensPqScope] at opens)
        (by simp) (by simp) (by simp) (by simp)
    intro fault member
    exact runs.uses confined.uses _ member rfl

variable {fault : Fault}

theorem toSignerError_runs {phase : RunPhase} {outcome : Except Fault SignerError}
    (runs : (toSignerError fault phase).Runs given log outcome) :
    log = [] ∧ ∃ refusal, outcome = .ok refusal := by
  cases fault with
  | signer error => exact ⟨runs.1, error, runs.2⟩
  | execute message source locked =>
    simp only [toSignerError] at runs
    split at runs <;> exact ⟨runs.1, _, runs.2⟩
  | foreign name message =>
    simp only [toSignerError] at runs
    split at runs
    · rcases Program.runs_bind.mp runs with ⟨_, _, locked, rfl, read, told⟩ | ⟨_, _, read⟩
      · obtain ⟨rfl, -⟩ := runs_inspect.mp read
        split at told <;> exact ⟨by simpa using told.1, _, told.2⟩
      · obtain ⟨-, _, same⟩ := runs_inspect.mp read
        cases same
    · exact ⟨runs.1, _, runs.2⟩

theorem runItem_runs {id : String} {prepared : PreparedParams} {outcome : Except Fault ItemRun}
    (runs : (runItem deps account id prepared).Runs given log outcome) :
    ∃ run, outcome = .ok run ∧ run.id = id ∧
      (∀ value, run.outcome = .ok value ↔ Produced prepared log value) ∧
      Attempted log ∧ Identified log := by
  unfold runItem at runs
  rcases Program.runs_tryCatch.mp runs with ⟨run, rfl, did⟩ | ⟨first, rest, fault, rfl, did, after⟩
  · rcases Program.runs_bind.mp did with ⟨_, _, value, rfl, signed, ended⟩ | ⟨_, failure, _⟩
    · obtain ⟨rfl, same⟩ := ended
      cases same
      rw [List.append_nil]
      refine ⟨_, rfl, rfl, fun other => ?_, signLocally_runs signed⟩
      rw [← Faithful.signLocally _ _ signed other]
      simp
    · cases failure
  · rcases Program.runs_bind.mp did with ⟨_, _, _, _, _, ended⟩ | ⟨_, failure, signed⟩
    · cases ended.2
    · cases failure
      rcases Program.runs_bind.mp after with ⟨_, _, refusal, rfl, told, ended⟩ | ⟨_, _, told⟩
      · obtain ⟨rfl, -⟩ := toSignerError_runs told
        obtain ⟨rfl, rfl⟩ := ended
        rw [List.append_nil, List.append_nil]
        refine ⟨_, rfl, rfl, fun value => ?_, signLocally_runs signed⟩
        rw [← Faithful.signLocally _ _ signed value]
        simp
      · obtain ⟨-, _, same⟩ := toSignerError_runs told
        cases same

variable {originKey : String} {revokedBefore : Nat}

theorem stillWanted_runs {shown : SafeAccount} {outcome : Except Fault (Option SignerError)}
    (runs : (stillWanted shown originKey revokedBefore).Runs given log outcome) :
    (∃ answer stopped, log = [⟨.getActiveAccount, .ok answer⟩] ∧ outcome = .ok stopped) ∨
    ∃ fault, log = [identityRejection fault] ∧ outcome = .error fault := by
  unfold stillWanted at runs
  rcases Program.runs_bind.mp runs with ⟨_, rest, answer, rfl, asked, ran⟩ | ⟨fault, rfl, asked⟩
  · left
    obtain ⟨-, rfl⟩ := runs_ask.mp asked
    have silent : rest = [] ∧ ∃ stopped, outcome = .ok stopped := by
      split at ran
      · split at ran
        · obtain ⟨empty, core, same⟩ := runs_inspect.mp ran
          exact ⟨empty, _, same⟩
        · exact ⟨ran.1, _, ran.2⟩
      · exact ⟨ran.1, _, ran.2⟩
    obtain ⟨rfl, stopped, rfl⟩ := silent
    exact ⟨answer, stopped, rfl, rfl⟩
  · obtain ⟨-, rfl⟩ := runs_ask.mp asked
    exact .inr ⟨fault, rfl, rfl⟩

def Looped (runs : List ItemRun) (pairs : List (ValidatedBatchItem × PreparedParams)) (log : Log)
    (outcome : Except Fault (List ItemRun)) : Prop :=
  (∃ turns : List Turn, turns.map (fun turn => (turn.item, turn.prepared)) = pairs ∧
    outcome = .ok (runs ++ turns.map Turn.run) ∧ log = turns.flatMap Turn.exchanges ∧
    Identified log ∧ ∀ turn ∈ turns, turn.Sound) ∨
  ∃ front fault, outcome = .error fault ∧ log = front ++ [identityRejection fault] ∧
    (runs = [] → Attempted front)

theorem Looped.cons {runs : List ItemRun} {rest : Log}
    {pairs : List (ValidatedBatchItem × PreparedParams)} {outcome : Except Fault (List ItemRun)}
    (turn : Turn) (sound : turn.Sound) (identified : Identified turn.exchanges)
    (attempted : runs = [] → Attempted turn.exchanges)
    (looped : Looped (runs ++ [turn.run]) pairs rest outcome) :
    Looped runs ((turn.item, turn.prepared) :: pairs) (turn.exchanges ++ rest) outcome := by
  rcases looped with ⟨turns, rfl, rfl, rfl, answered, all⟩ | ⟨front, fault, rfl, rfl, -⟩
  · refine .inl ⟨turn :: turns, rfl, by simp, by simp, identified.append answered, ?_⟩
    intro other member
    rcases List.mem_cons.mp member with rfl | member
    · exact sound
    · exact all other member
  · refine .inr ⟨turn.exchanges ++ front, fault, rfl, by simp, fun first => ?_⟩
    obtain ⟨exchange, member, key⟩ := attempted first
    exact ⟨exchange, List.mem_append_left _ member, key⟩

def refusedTurn (item : ValidatedBatchItem) (prepared : PreparedParams) (checked : Log)
    (refusal : SignerError) : Turn :=
  ⟨item, prepared, checked, ⟨item.id, .error (.signer refusal, refusal)⟩⟩

theorem refusedTurn_sound {item : ValidatedBatchItem} {prepared : PreparedParams} {checked : Log}
    {refusal : SignerError} (idle : ∀ value, ¬ Produced prepared checked value) :
    (refusedTurn item prepared checked refusal).Sound :=
  ⟨rfl, fun value => by simp [refusedTurn, idle value]⟩

variable {runs : List ItemRun}

theorem checked_runs {stopped : Option SignerError} (ran : (if runs = [] then return none
      else stillWanted account originKey revokedBefore : Task (Option SignerError)).Runs given log
      (.ok stopped)) :
    (Passing log ∧ Identified log) ∧ (runs = [] → stopped = none) := by
  split at ran
  · obtain ⟨rfl, same⟩ := ran
    cases same
    exact ⟨⟨by simp [Passing], by simp [Identified]⟩, fun _ => rfl⟩
  · next started =>
    rcases stillWanted_runs ran with ⟨answer, _, rfl, -⟩ | ⟨_, _, same⟩
    · refine ⟨⟨by simp [Passing, Neutral], fun fault => ?_⟩, fun first => absurd first started⟩
      simp [identityRejection]
    · cases same

theorem check_fails (ran : (if runs = [] then return none
      else stillWanted account originKey revokedBefore : Task (Option SignerError)).Runs given log
      (.error fault)) :
    log = [identityRejection fault] ∧ runs ≠ [] := by
  split at ran
  · cases ran.2
  · next started =>
    rcases stillWanted_runs ran with ⟨_, _, _, same⟩ | ⟨_, rfl, same⟩
    · cases same
    · cases same
      exact ⟨rfl, started⟩

theorem yielded_runs {condition : Prop} [Decidable condition] {outcome : Except Fault Unit}
    (ran : (onlyIf condition (ask .yieldToHost)).Runs given log outcome) :
    (Passing log ∧ Identified log) ∧ outcome = .ok () := by
  unfold onlyIf at ran
  split at ran
  · obtain ⟨possible, rfl⟩ := runs_ask.mp ran
    cases outcome with
    | ok _ => simp [Passing, Neutral, Identified, identityRejection]
    | error fault => exact possible.elim
  · obtain ⟨rfl, rfl⟩ := ran
    simp [Passing, Identified]

theorem Attempted.append_left {front : Log} (attempted : Attempted log) :
    Attempted (front ++ log) := by
  obtain ⟨exchange, member, key⟩ := attempted
  exact ⟨exchange, List.mem_append_right _ member, key⟩

theorem runItems_runs {stopped : Option SignerError}
    {pairs : List (ValidatedBatchItem × PreparedParams)} {outcome : Except Fault (List ItemRun)}
    (ran : (runItems deps account originKey revokedBefore runs stopped pairs).Runs given log
      outcome) (late : stopped.isSome → runs ≠ []) : Looped runs pairs log outcome := by
  induction pairs generalizing runs stopped log with
  | nil =>
    unfold runItems at ran
    obtain ⟨rfl, rfl⟩ := ran
    exact .inl ⟨[], by simp [Identified]⟩
  | cons pair rest ih =>
    obtain ⟨item, prepared⟩ := pair
    cases stopped with
    | some refusal =>
      unfold runItems at ran
      exact .cons (refusedTurn item prepared [] refusal)
        (refusedTurn_sound fun _ => not_produced_nil) (by simp [Identified, refusedTurn])
        (fun first => absurd first (late rfl)) (ih ran (by simp))
    | none =>
      unfold runItems at ran
      rcases Program.runs_bind.mp ran with ⟨checked, tail, stopped, rfl, did, goes⟩ |
        ⟨fault, rfl, did⟩
      · have answered := checked_runs did
        cases stopped with
        | some refusal =>
          have started : runs ≠ [] := fun first => by simpa using answered.2 first
          exact .cons (refusedTurn item prepared checked refusal)
            (refusedTurn_sound answered.1.1.not_produced) answered.1.2 (fun first => absurd first started) (ih goes (by simp))
        | none =>
          rcases Program.runs_bind.mp goes with ⟨yielded, later, _, rfl, did, goes⟩ |
            ⟨fault, rfl, did⟩
          · rcases Program.runs_bind.mp goes with ⟨signed, last, run, rfl, did', goes⟩ |
              ⟨fault, rfl, did'⟩
            · obtain ⟨_, same, id, produced, attempted, identified⟩ := runItem_runs did'
              cases same
              have passed := (yielded_runs did).1
              have turned := Looped.cons ⟨item, prepared, checked ++ (yielded ++ signed), run⟩
                ⟨id, fun value => by
                  rw [produced, produced_append answered.1.1, produced_append passed.1]⟩
                (answered.1.2.append (passed.2.append identified))
                (fun _ => attempted.append_left.append_left) (ih goes (by simp))
              simpa using turned
            · obtain ⟨_, same, -⟩ := runItem_runs did'
              cases same
          · cases (yielded_runs did).2
      · obtain ⟨rfl, started⟩ := check_fails did
        exact .inr ⟨[], fault, rfl, rfl, fun first => absurd first started⟩

/-! ## The report -/

theorem record_runs {id : String} {origin : RequestOrigin} {params : ValidatedParams} {index : Nat}
    {batchId : Option String} {recorded : RecordedOutcome} {outcome : Except Fault Unit}
    (ran : (record call id origin params index batchId recorded).Runs given log outcome) :
    outcome = .ok () ∧ ∃ entry written, log = [⟨.record entry, written⟩] ∧
      entry.requestId = id ∧ entry.batchId = batchId ∧ entry.decision = recorded.decision := by
  unfold record at ran
  rcases Program.runs_bind.mp ran with ⟨_, rest, read, rfl, did, goes⟩ | ⟨_, _, did⟩
  · obtain ⟨rfl, -⟩ := runs_inspect.mp did
    rcases Program.runs_tryCatch.mp goes with ⟨_, rfl, wrote⟩ | ⟨_, _, fault, rfl, wrote, ended⟩
    · obtain ⟨-, rfl⟩ := runs_ask.mp wrote
      exact ⟨rfl, _, _, rfl, rfl, rfl, rfl⟩
    · obtain ⟨-, rfl⟩ := runs_ask.mp wrote
      obtain ⟨rfl, rfl⟩ := ended
      exact ⟨rfl, _, _, rfl, rfl, rfl, rfl⟩
  · obtain ⟨-, _, same⟩ := runs_inspect.mp did
    cases same

def ItemRun.reported (run : ItemRun) : BatchItemOutcome :=
  match run.outcome with
  | .ok result => .ok run.id result
  | .error (_, refusal) => .refused run.id refusal.code refusal.message

def Turn.report (turn : Turn) (entry : ActivityEntry) (written : Except Fault Unit) : ItemReport :=
  ⟨turn.item, turn.prepared, turn.exchanges, turn.run.reported, entry, written⟩

theorem Turn.Sound.truthful {turn : Turn} {batchId : String} {entry : ActivityEntry}
    {written : Except Fault Unit} (sound : turn.Sound)
    (prepares : Prepares turn.item.params turn.prepared)
    (logged : entry.requestId = turn.item.id ∧ entry.batchId = some batchId)
    (decision : entry.decision = .allow ↔ ∃ value, turn.run.outcome = .ok value) :
    (turn.report entry written).Truthful batchId := by
  have reported : ∀ value, turn.run.reported = .ok turn.item.id value ↔
      turn.run.outcome = .ok value := by
    intro value
    unfold ItemRun.reported
    split
    · next result same => simp [same, sound.id]
    · next fault refusal same => simp [same]
  have id : turn.run.reported.id = turn.run.id := by
    unfold ItemRun.reported
    split <;> rfl
  refine ⟨prepares, id.trans sound.id, fun value => ?_, logged, decision.trans ?_⟩
  · exact (reported value).trans (sound.produced value)
  · exact exists_congr fun value => (reported value).symm

theorem reportItems_runs {request : SignerBatchRequest} {outcomes : List BatchItemOutcome}
    {index : Nat} {turns : List Turn} {outcome : Except Fault (List BatchItemOutcome)}
    (ran : (reportItems call request outcomes index
      (turns.map fun turn => (turn.item, turn.run))).Runs given log outcome)
    (sound : ∀ turn ∈ turns, turn.Sound ∧ Prepares turn.item.params turn.prepared) :
    ∃ reports : List ItemReport, outcome = .ok (outcomes ++ reports.map ItemReport.outcome) ∧
      log = reports.map (fun report => ⟨.record report.entry, report.written⟩) ∧
      reports.map ItemReport.item = turns.map Turn.item ∧
      reports.map ItemReport.turn = turns.map Turn.exchanges ∧
      ∀ report ∈ reports, report.Truthful request.id := by
  induction turns generalizing outcomes index log with
  | nil =>
    obtain ⟨rfl, rfl⟩ := ran
    exact ⟨[], by simp⟩
  | cons turn rest ih =>
    obtain ⟨this, prepares⟩ := sound turn List.mem_cons_self
    have others := fun other member => sound other (List.mem_cons_of_mem turn member)
    -- either way one entry is written, and the decision it holds is the outcome's
    have continued : ∀ (recorded : RecordedOutcome), (recorded.decision = .allow ↔
          ∃ value, turn.run.outcome = .ok value) →
        (do record call turn.item.id request.origin turn.item.params index (some request.id)
              recorded
            reportItems call request (outcomes ++ [turn.run.reported]) (index + 1)
              (rest.map fun turn => (turn.item, turn.run)) :
          Task (List BatchItemOutcome)).Runs given log outcome →
        ∃ reports : List ItemReport, outcome = .ok (outcomes ++ reports.map ItemReport.outcome) ∧
          log = reports.map (fun report => ⟨.record report.entry, report.written⟩) ∧
          reports.map ItemReport.item = (turn :: rest).map Turn.item ∧
          reports.map ItemReport.turn = (turn :: rest).map Turn.exchanges ∧
          ∀ report ∈ reports, report.Truthful request.id := by
      intro recorded decision ran
      rcases Program.runs_bind.mp ran with ⟨_, _, _, rfl, did, goes⟩ | ⟨_, _, did⟩
      · obtain ⟨-, entry, written, rfl, id, batchId, decided⟩ := record_runs did
        obtain ⟨reports, rfl, rfl, items, exchanges, truthful⟩ := ih goes others
        refine ⟨turn.report entry written :: reports, by simp [Turn.report], by simp [Turn.report],
          by simp [Turn.report, items], by simp [Turn.report, exchanges], ?_⟩
        intro report member
        rcases List.mem_cons.mp member with rfl | member
        · exact this.truthful prepares ⟨id, batchId⟩ (by rw [decided]; exact decision)
        · exact truthful report member
      · cases (record_runs did).1
    simp only [List.map_cons, reportItems] at ran
    split at ran
    · next result same =>
      refine continued { decision := .allow } (by simp [same]) ?_
      simpa [ItemRun.reported, same] using ran
    · next fault refusal same =>
      refine continued { decision := .deny, reason := some fault.message,
                         code := some refusal.code } (by simp [same]) ?_
      simpa [ItemRun.reported, same] using ran

theorem reportRefusal_confined (request : SignerBatchRequest) (fault : Fault) (refusal : SignerError)
    (index : Nat) (items : List ValidatedBatchItem) :
    Confined call (fun request => ∃ entry, request = .record entry)
      (reportRefusal call request fault refusal index items) := by
  induction items generalizing index with
  | nil => simp [reportRefusal]
  | cons item rest ih =>
    unfold reportRefusal record
    refine .bind (.bind (by simp) fun _ => ?_) fun _ => ih _
    exact .tryCatch (.ask ⟨_, rfl⟩) fun _ => by simp

/-! ## A whole batch -/

theorem prepareBatch_runs {prepared result : List PreparedParams} {items : List ValidatedBatchItem}
    (ran : (prepareBatch deps call account prepared items).Runs given log (.ok result)) :
    ∃ more, result = prepared ++ more ∧ more.length = items.length ∧
      ∀ pair ∈ items.zip more, Prepares pair.1.params pair.2 := by
  induction items generalizing prepared log with
  | nil =>
    obtain ⟨-, same⟩ := ran
    cases same
    exact ⟨[], by simp⟩
  | cons item rest ih =>
    unfold prepareBatch at ran
    rcases Program.runs_bind.mp ran with ⟨_, _, next, rfl, did, goes⟩ | ⟨_, same, _⟩
    · have prepares : Prepares item.params next := by
        split at did
        · next special =>
          rcases Program.runs_bind.mp did with ⟨_, _, _, rfl, _, goes⟩ | ⟨_, same, _⟩
          · rcases Program.runs_bind.mp goes with ⟨_, _, event, rfl, _, ended⟩ | ⟨_, same, _⟩
            · cases ended.2
              rw [special]
              exact .attestation event
            · cases same
          · cases same
        · next ordinary =>
          cases did.2
          exact .arrived _ ordinary
      rcases Program.runs_bind.mp goes with ⟨_, _, _, rfl, _, goes⟩ | ⟨_, same, _⟩
      · obtain ⟨more, rfl, length, all⟩ := ih goes
        refine ⟨next :: more, by simp, by simp [length], fun pair member => ?_⟩
        rcases List.mem_cons.mp member with rfl | member
        · exact prepares
        · exact all pair member
      · cases same
    · cases same

def Executed (validated : ValidatedBatch) (log : Log) (outcome : Except Fault (List ItemRun)) :
    Prop :=
  (∃ fault, outcome = .error fault ∧ ∀ exchange ∈ log, executes exchange.request = false) ∨
  ∃ (before tail : Log) (prepared : List PreparedParams), log = before ++ tail ∧
    (∀ exchange ∈ before, executes exchange.request = false) ∧
    prepared.length = validated.items.length ∧
    (∀ pair ∈ validated.items.zip prepared, Prepares pair.1.params pair.2) ∧
    Looped [] (validated.items.zip prepared) tail outcome

variable {validated : ValidatedBatch}

theorem Executed.bind {task : Task α} {next : α → Task (List ItemRun)}
    {outcome : Except Fault (List ItemRun)} (call : Nat)
    (ran : (task >>= next).Runs given log outcome)
    (confined : Confined call (executes · = false) task)
    (rest : ∀ first value tail, task.Runs given first (.ok value) →
      (next value).Runs given tail outcome → Executed validated tail outcome) :
    Executed validated log outcome := by
  rcases Program.runs_bind.mp ran with ⟨first, tail, value, rfl, did, goes⟩ | ⟨fault, rfl, did⟩
  · have idle := did.uses confined.uses
    rcases rest first value tail did goes with ⟨fault, rfl, quiet⟩ |
      ⟨before, last, prepared, rfl, quiet, reports⟩
    · refine .inl ⟨fault, rfl, fun exchange member => ?_⟩
      exact (List.mem_append.mp member).elim (idle exchange) (quiet exchange)
    · refine .inr ⟨first ++ before, last, prepared, by simp, fun exchange member => ?_, reports⟩
      exact (List.mem_append.mp member).elim (idle exchange) (quiet exchange)
  · exact .inl ⟨fault, rfl, did.uses confined.uses⟩

theorem Executed.raise {outcome : Except Fault (List ItemRun)}
    (ran : (Signing.raise fault : Task (List ItemRun)).Runs given log outcome) :
    Executed validated log outcome := by
  obtain ⟨rfl, rfl⟩ := ran
  exact .inl ⟨fault, rfl, by simp⟩

theorem runBatch_runs {outcome : Except Fault (List ItemRun)}
    (ran : (runBatch deps call validated).Runs given log outcome) :
    Executed validated log outcome := by
  have free : ∀ request, executes request = false → executes request = false := fun _ free => free
  unfold runBatch at ran
  refine .bind call ran (.ask rfl) fun _ answer _ _ ran => ?_
  split at ran
  · exact .raise ran
  · next account _ =>
    refine .bind call ran (.setContext _) fun _ _ _ _ ran => ?_
    refine .bind call ran (consultRules_confined free _ _ _ _ _) fun _ asked _ _ ran => ?_
    split at ran
    · exact .raise ran
    · refine .bind call ran (.onlyIf (.bind (openVaultForBatch_confined free _ _ _) fun _ =>
        assertStillActive_confined free _)) fun _ _ _ _ ran => ?_
      refine .bind call ran (.setContext _) fun _ _ _ _ ran => ?_
      refine .bind call ran (prepareBatch_confined free _ _ _) fun _ prepared _ did ran => ?_
      obtain ⟨more, same, length, prepares⟩ := prepareBatch_runs did
      rw [List.nil_append] at same
      subst same
      refine .bind call ran (promptBatch_confined free _ _ _ _ _) fun _ _ _ _ ran => ?_
      refine .bind call ran (openVaultForBatch_confined free _ _ _) fun _ _ _ _ ran => ?_
      refine .bind call ran (assertStillActive_confined free _) fun _ _ _ _ ran => ?_
      refine .bind call ran (.setContext _) fun _ _ _ _ ran => ?_
      refine .bind call ran (.inspect _) fun _ revokedBefore tail _ ran => ?_
      exact .inr ⟨[], tail, prepared, rfl, by simp, length, prepares, runItems_runs ran (by simp)⟩

theorem not_attempted_of_idle (idle : ∀ exchange ∈ log, executes exchange.request = false) :
    ¬ Attempted log := by
  intro ⟨exchange, member, accountId, key⟩
  have quiet := idle exchange member
  rw [key] at quiet
  contradiction

theorem not_identityRejected {before rest : Log}
    (idle : ∀ exchange ∈ before, executes exchange.request = false) (identified : Identified rest) :
    ¬ IdentityRejected (before ++ rest) := by
  intro ⟨front, fault, after, split, attempted⟩
  rcases List.append_eq_append_iff.mp split with ⟨middle, rfl, same⟩ | ⟨middle, rfl, _⟩
  · exact identified fault (by simp [same])
  · exact not_attempted_of_idle (fun exchange member => idle exchange (List.mem_append_left _ member))
      attempted

theorem identified_of_records (written : ∀ exchange ∈ log, ∃ entry, exchange.request = .record entry) :
    Identified log := by
  intro fault member
  obtain ⟨entry, same⟩ := written _ member
  cases same

theorem Attempted.of_append {front rest : Log} (attempted : Attempted (front ++ rest))
    (written : ∀ exchange ∈ rest, ∃ entry, exchange.request = .record entry) : Attempted front := by
  obtain ⟨exchange, member, accountId, key⟩ := attempted
  rcases List.mem_append.mp member with first | last
  · exact ⟨exchange, first, accountId, key⟩
  · obtain ⟨entry, same⟩ := written exchange last
    rw [key] at same
    cases same

theorem Executed.reported {rest : Log} {outcome : Except Fault (List BatchItemOutcome)}
    (executed : Executed validated log (.ok runs))
    (ran : (reportItems call validated.request [] 0 (validated.items.zip runs)).Runs given rest
      outcome) :
    ∃ outcomes, outcome = .ok outcomes ∧
      Reported validated (log ++ rest) ⟨validated.request.id, outcomes⟩ ∧
      ¬ IdentityRejected (log ++ rest) := by
  rcases executed with ⟨_, same, _⟩ | ⟨before, tail, prepared, rfl, idle, length, prepares, looped⟩
  · cases same
  · rcases looped with ⟨turns, pairs, same, rfl, identified, sound⟩ | ⟨_, _, same, _⟩
    · cases same
      have items : turns.map Turn.item = validated.items := by
        have firsts := congrArg (List.map Prod.fst) pairs
        simpa [List.map_fst_zip, length, Function.comp_def] using firsts
      have zipped : validated.items.zip (turns.map Turn.run) =
          turns.map fun turn => (turn.item, turn.run) := by
        rw [← items, List.zip_map']
      rw [List.nil_append, zipped] at ran
      have faithful : ∀ turn ∈ turns, turn.Sound ∧ Prepares turn.item.params turn.prepared := by
        intro turn member
        refine ⟨sound turn member, prepares (turn.item, turn.prepared) ?_⟩
        rw [← pairs]
        exact List.mem_map_of_mem member
      obtain ⟨reports, rfl, rfl, reportedItems, exchanges, truthful⟩ := reportItems_runs ran faithful
      refine ⟨_, rfl, ⟨before, reports, reportedItems.trans items, by simp, ?_, idle, truthful⟩, ?_⟩
      · rw [List.flatMap_def, List.flatMap_def, exchanges]
      · rw [List.append_assoc]
        refine not_identityRejected idle (identified.append (identified_of_records ?_))
        intro exchange member
        obtain ⟨report, _, rfl⟩ := List.mem_map.mp member
        exact ⟨report.entry, rfl⟩
    · cases same

theorem Executed.identityRejected {rest : Log} (executed : Executed validated log (.error fault))
    (attempted : Attempted log) :
    IdentityRejected (log ++ rest) := by
  rcases executed with ⟨_, _, idle⟩ | ⟨before, tail, prepared, rfl, idle, _, _, looped⟩
  · exact absurd attempted (not_attempted_of_idle idle)
  · rcases looped with ⟨_, _, same, _⟩ | ⟨front, fault', _, rfl, started⟩
    · cases same
    · exact ⟨before ++ front, fault', rest, by simp, (started rfl).append_left⟩

theorem refusal_runs {outcome : Except Fault BatchResult} (ran : (do
      let refusal ← toSignerError fault (← inspect fun core => (core.contexts call).phase)
      reportRefusal call validated.request fault refusal 0 validated.items
      raise (.signer refusal) : Task BatchResult).Runs given log outcome) :
    (∀ exchange ∈ log, ∃ entry, exchange.request = .record entry) ∧
      ∃ error, outcome = .error error := by
  rcases Program.runs_bind.mp ran with ⟨_, _, phase, rfl, did, goes⟩ | ⟨_, rfl, did⟩
  · obtain ⟨rfl, -⟩ := runs_inspect.mp did
    rcases Program.runs_bind.mp goes with ⟨_, _, refusal, rfl, named, after⟩ | ⟨_, rfl, named⟩
    · obtain ⟨rfl, -⟩ := toSignerError_runs named
      rcases Program.runs_bind.mp after with ⟨_, _, _, rfl, reports, ended⟩ | ⟨_, rfl, reports⟩
      · obtain ⟨rfl, rfl⟩ := ended
        have written := reports.uses (reportRefusal_confined _ _ _ _ _).uses
        exact ⟨by simpa using written, _, rfl⟩
      · have written := reports.uses (reportRefusal_confined _ _ _ _ _).uses
        exact ⟨by simpa using written, _, rfl⟩
    · obtain ⟨rfl, -⟩ := toSignerError_runs named
      exact ⟨by simp, _, rfl⟩
  · obtain ⟨rfl, -⟩ := runs_inspect.mp did
    exact ⟨by simp, _, rfl⟩

theorem handleBatch_runs {outcome : Except Fault BatchResult}
    (ran : (handleBatch deps call (.ok validated)).Runs given log outcome)
    (attempted : Attempted log) :
    (∃ result, outcome = .ok result ∧ Reported validated log result) ↔ ¬ IdentityRejected log := by
  unfold handleBatch at ran
  dsimp only at ran
  rcases Program.runs_bind.mp ran with ⟨_, log, disposed, rfl, did, goes⟩ | ⟨_, _, did⟩
  · obtain ⟨rfl, -⟩ := runs_inspect.mp did
    rw [List.nil_append] at attempted ⊢
    split at goes
    · obtain ⟨rfl, -⟩ := goes
      obtain ⟨_, member, _⟩ := attempted
      contradiction
    · rcases Program.runs_tryCatch.mp goes with ⟨result, rfl, body⟩ |
        ⟨first, rest, fault, rfl, body, handler⟩
      · rcases Program.runs_bind.mp body with ⟨_, _, runs, rfl, batch, goes⟩ | ⟨_, same, _⟩
        · rcases Program.runs_bind.mp goes with ⟨_, _, outcomes, rfl, told, ended⟩ | ⟨_, same, _⟩
          · obtain ⟨rfl, same⟩ := ended
            cases same
            obtain ⟨_, same, reported, answered⟩ := (runBatch_runs batch).reported told
            cases same
            rw [List.append_nil]
            exact ⟨fun _ => answered, fun _ => ⟨_, rfl, reported⟩⟩
          · cases same
        · cases same
      · obtain ⟨written, error, rfl⟩ := refusal_runs handler
        have started := attempted.of_append written
        have stopped : IdentityRejected (first ++ rest) := by
          rcases Program.runs_bind.mp body with ⟨_, _, runs, rfl, batch, goes⟩ | ⟨_, same, batch⟩
          · rcases Program.runs_bind.mp goes with ⟨_, _, outcomes, rfl, _, ended⟩ | ⟨_, _, told⟩
            · cases ended.2
            · obtain ⟨_, same, -⟩ := (runBatch_runs batch).reported told
              cases same
          · cases same
            exact (runBatch_runs batch).identityRejected started
        exact ⟨fun ⟨_, same, _⟩ => (nomatch same), fun answered => absurd stopped answered⟩
  · obtain ⟨-, _, same⟩ := runs_inspect.mp did
    cases same

theorem given_of_serve {request : SignerCall} {choice : Exchange signerInterface} {core : SignerCore}
    {world : SignerWorld} {answered : Except Fault request.Reply} {core' : SignerCore}
    {world' : SignerWorld}
    (served : (signerSystem deps).serve request choice core world =
      some (answered, core', world')) : given request answered := by
  cases request with
  | yieldToHost =>
    simp only [signerSystem] at served
    split at served
    · cases served
      trivial
    · contradiction
  | _ => trivial

/-- Once the key was handed out for the first item, a batch is reported item by
item, if and only if the identity port rejects none of the reads between items. -/
theorem handleBatch_reports_iff {active : Option SafeAccount} {vault : VaultView} {now : Int}
    {config : Config (signerSystem deps)} {self : Nat} {process : Process (signerSystem deps)}
    {validated : ValidatedBatch} {outcome : Except Fault SignerResult}
    (reaches : Config.Reaches (fun _ _ => True) (signerStart deps active vault now) config)
    (found : config.processes[self]? = some process)
    (called : process.operation = .handleBatch (.ok validated))
    (settled : process.status = .settled outcome)
    (attempted : Attempted (process.log.map Entry.exchange)) :
    (∃ result, outcome = .ok (.batch result) ∧
      Reported validated (process.log.map Entry.exchange) result) ↔
    ¬ IdentityRejected (process.log.map Entry.exchange) := by
  have runs := reaches.runs given
    (fun _ _ _ _ _ _ _ served => given_of_serve served) rfl found settled
  rw [called] at runs
  rcases Program.runs_bind.mp runs with ⟨first, _, result, split, ran, ended⟩ | ⟨fault, rfl, ran⟩
  · obtain ⟨rfl, rfl⟩ := ended
    rw [List.append_nil] at split
    rw [split] at attempted ⊢
    rw [← handleBatch_runs ran attempted]
    simp
  · rw [← handleBatch_runs ran attempted]
    simp

section Example

def noteItem (id : String) : ValidatedBatchItem := ⟨id, .signEvent note⟩

def twoNotes : ValidatedBatch where
  request :=
    { id := "batch", origin := { kind := .web, identifier := "https://a.example" }
      items := [(noteItem "1").wire, (noteItem "2").wire] }
  items := [noteItem "1", noteItem "2"]
  items_eq := rfl
  named := by decide
  nonempty := by simp
  bounded := by decide
  distinct := by decide
  useKey := by decide

def noteEntry (id : String) (decision : GrantDecision) (reason : Option String)
    (code : Option SignerErrorCode) : ActivityEntry :=
  ⟨id, 7000, twoNotes.request.origin, .signEvent, some "account", some "pubkey", decision,
    some "batch", none, reason, code, .event 1 (some note)⟩

def signNote : Log :=
  [⟨.withPrivkey "account", .ok "key"⟩, ⟨.publicKey "key", .ok "pubkey"⟩,
    ⟨.compute "key" (.signEvent 1 "hello" [] 7), .ok (.text "signed")⟩,
    ⟨.leave .withPrivkey, .ok ()⟩]

def signsThenRejects : List (Move (signerSystem hostless)) :=
  .start (.handleBatch (.ok twoNotes)) :: answers 0
    ([⟨.getActiveAccount, .ok none⟩,
      ⟨.check "https://a.example" ⟨.signEvent, some 1⟩ "account", .ok .allow⟩,
      ⟨.getActiveAccount, .ok none⟩] ++ signNote ++
      [identityRejection (.foreign "Error" "offline"),
        ⟨.record (noteEntry "1" .deny (some "offline") (some .operation_failed)), .ok ()⟩,
        ⟨.record (noteEntry "2" .deny (some "offline") (some .operation_failed)), .ok ()⟩])

def signsBoth : List (Move (signerSystem hostless)) :=
  .start (.handleBatch (.ok twoNotes)) :: answers 0
    ([⟨.getActiveAccount, .ok none⟩,
      ⟨.check "https://a.example" ⟨.signEvent, some 1⟩ "account", .ok .allow⟩,
      ⟨.getActiveAccount, .ok none⟩] ++ signNote ++
      [⟨.getActiveAccount, .ok none⟩, ⟨.yieldToHost, .ok ()⟩] ++ signNote ++
      [⟨.record (noteEntry "1" .allow none none), .ok ()⟩,
        ⟨.record (noteEntry "2" .allow none none), .ok ()⟩])

def handsOutKey : SignerCall → Bool
  | .withPrivkey _ => true
  | _ => false

def finishes (failed : Bool) (process : Process (signerSystem hostless)) : Bool :=
  process.log.any (fun entry => handsOutKey entry.request) &&
    match process.operation, process.status with
    | .handleBatch (.ok _), .settled (.error _) => failed
    | .handleBatch (.ok _), .settled (.ok _) => !failed
    | _, _ => false

theorem eq_of_finishes {failed : Bool} {process : Process (signerSystem hostless)}
    (finished : finishes failed process = true) :
    Attempted (process.log.map Entry.exchange) ∧
      ∃ validated outcome, process.operation = .handleBatch (.ok validated) ∧
        process.status = .settled outcome ∧ (failed = true → ∃ fault, outcome = .error fault) := by
  simp only [finishes, Bool.and_eq_true, List.any_eq_true] at finished
  obtain ⟨⟨entry, member, key⟩, finished⟩ := finished
  constructor
  · refine ⟨entry.exchange, List.mem_map_of_mem member, ?_⟩
    unfold handsOutKey at key
    split at key
    · next accountId same => exact ⟨accountId, same⟩
    · contradiction
  · split at finished
    · next validated fault called settled => exact ⟨validated, _, called, settled, fun _ => ⟨_, rfl⟩⟩
    · next validated result called settled =>
      exact ⟨validated, _, called, settled, fun contrary => by simp [contrary] at finished⟩
    · contradiction

/-- The signed note is reported as refused, and logged as denied. -/
theorem handleBatch_may_hide_signature :
    ¬ ∀ (deps : SignerCoreDeps) (active : Option SafeAccount) (vault : VaultView) (now : Int)
      (config : Config (signerSystem deps)) (self : Nat) (process : Process (signerSystem deps))
      (validated : ValidatedBatch) (outcome : Except Fault SignerResult),
      Config.Reaches (fun _ _ => True) (signerStart deps active vault now) config →
      config.processes[self]? = some process →
      process.operation = .handleBatch (.ok validated) → process.status = .settled outcome →
      Attempted (process.log.map Entry.exchange) →
      ∃ result, outcome = .ok (.batch result) ∧
        Reported validated (process.log.map Entry.exchange) result := by
  intro claim
  have runs : ((signerStart hostless (some shownAccount) { locked := false } 7000).execWhile
      (fun _ _ => True) signsThenRejects).any
        (fun config => config.processes[0]?.any (finishes true)) = true := by
    decide +kernel
  simp only [Option.any_eq_true] at runs
  obtain ⟨config, executed, process, found, finished⟩ := runs
  obtain ⟨attempted, validated, outcome, called, settled, failed⟩ := eq_of_finishes finished
  obtain ⟨result, same, -⟩ := claim hostless _ _ _ config 0 process validated outcome
    (.of_execWhile executed) found called settled attempted
  obtain ⟨fault, error⟩ := failed rfl
  rw [error] at same
  contradiction

theorem handleBatch_reports_iff_twoNotes :
    ∃ (config : Config (signerSystem hostless)) (process : Process (signerSystem hostless))
      (validated : ValidatedBatch) (outcome : Except Fault SignerResult),
      Config.Reaches (fun _ _ => True)
        (signerStart hostless (some shownAccount) { locked := false } 7000) config ∧
      config.processes[0]? = some process ∧
      ((∃ result, outcome = .ok (.batch result) ∧
        Reported validated (process.log.map Entry.exchange) result) ↔
      ¬ IdentityRejected (process.log.map Entry.exchange)) := by
  have runs : ((signerStart hostless (some shownAccount) { locked := false } 7000).execWhile
      (fun _ _ => True) signsBoth).any
        (fun config => config.processes[0]?.any (finishes false)) = true := by
    decide +kernel
  simp only [Option.any_eq_true] at runs
  obtain ⟨config, executed, process, found, finished⟩ := runs
  obtain ⟨attempted, validated, outcome, called, settled, -⟩ := eq_of_finishes finished
  have reaches := Config.Reaches.of_execWhile executed
  exact ⟨config, process, validated, outcome, reaches, found,
    handleBatch_reports_iff reaches found called settled attempted⟩

end Example

end NostrWot.Signing
