import NostrWot.Async.System

namespace NostrWot.Async

/-! # Answers alone

What a call does depends on the answers it is given and on what it reads of the
shared memory.  `Program.Traced` is the weakest precondition that quantifies
over both, so what it proves holds whatever the world and the other calls do.
-/

variable {I : Interface} {α β : Type}

structure Exchange (I : Interface) where
  request : I.Request
  answer : I.Answer request

def Entry.exchange {S : System I} (entry : Entry S) : Exchange I := ⟨entry.request, entry.answer⟩

structure Protocol (I : Interface) where
  possible : (request : I.Request) → I.Answer request → Prop
  may : List (Exchange I) → I.Request → Prop

namespace Program

variable {P : Protocol I}

/-- The program keeps to the protocol after `log`, and ends in `ends`. -/
def Traced (P : Protocol I) (ends : List (Exchange I) → Except I.Fault α → Prop) :
    Program I α → List (Exchange I) → Prop
  | .finish outcome, log => ends log outcome
  | .access _ resume, log => ∀ memory, (resume memory).Traced P ends log
  | .await request resume, log => P.may log request ∧
      ∀ answer, P.possible request answer →
        (resume answer).Traced P ends (log ++ [⟨request, answer⟩])

section Traced

variable {log : List (Exchange I)}

variable {program : Program I α}

theorem Traced.mono {strong weak : List (Exchange I) → Except I.Fault α → Prop}
    (traced : program.Traced P strong log)
    (implies : ∀ log outcome, strong log outcome → weak log outcome) :
    program.Traced P weak log := by
  induction program generalizing log with
  | finish outcome => exact implies log outcome traced
  | access change resume ih => exact fun memory => ih memory (traced memory)
  | await request resume ih =>
    exact ⟨traced.1, fun answer possible => ih answer (traced.2 answer possible)⟩

theorem traced_bind {next : α → Program I β} {ends : List (Exchange I) → Except I.Fault β → Prop} :
    (program >>= next).Traced P ends log ↔
      program.Traced P (fun log outcome =>
        (∀ value, outcome = .ok value → (next value).Traced P ends log) ∧
        ∀ fault, outcome = .error fault → ends log (.error fault)) log := by
  induction program generalizing log with
  | finish outcome => cases outcome <;> simp [Traced]
  | access change resume ih => simp only [access_bind, Traced, ih]
  | await request resume ih => simp only [await_bind, Traced, ih]

theorem traced_tryCatch {handler : I.Fault → Program I α}
    {ends : List (Exchange I) → Except I.Fault α → Prop} :
    (program.tryCatch handler).Traced P ends log ↔
      program.Traced P (fun log outcome =>
        (∀ value, outcome = .ok value → ends log (.ok value)) ∧
        ∀ fault, outcome = .error fault → (handler fault).Traced P ends log) log := by
  induction program generalizing log with
  | finish outcome => cases outcome <;> simp [Traced, tryCatch]
  | access change resume ih => simp only [tryCatch, Traced, ih]
  | await request resume ih => simp only [tryCatch, Traced, ih]

end Traced

/-- The program keeps to the protocol after `log`, and what it returns is `told`. -/
def Tells (P : Protocol I) (log : List (Exchange I)) (program : Program I α)
    (told : List (Exchange I) → α → Prop) : Prop :=
  program.Traced P (fun later outcome =>
    log <+: later ∧ ∀ value, outcome = .ok value → told later value) log

namespace Tells

variable {log : List (Exchange I)} {told : List (Exchange I) → α → Prop}

theorem pure {value : α} (holds : told log value) :
    Tells P log (Pure.pure value : Program I α) told := by
  refine ⟨List.prefix_rfl, fun other same => ?_⟩
  cases same
  exact holds

theorem throw {fault : I.Fault} : Tells P log (Program.throw fault : Program I α) told :=
  ⟨List.prefix_rfl, by simp⟩

theorem read {view : I.Memory → α} (holds : ∀ memory, told log (view memory)) :
    Tells P log (Program.read view) told := by
  intro memory
  exact pure (holds memory)

theorem modify {change : I.Memory → I.Memory} {told : List (Exchange I) → Unit → Prop}
    (holds : told log ()) : Tells P log (Program.modify change) told :=
  fun _ => pure holds

theorem call {request : I.Request} {told : List (Exchange I) → I.Reply request → Prop}
    (permitted : P.may log request)
    (holds : ∀ value, P.possible request (.ok value) → told (log ++ [⟨request, .ok value⟩]) value) :
    Tells P log (Program.call request) told := by
  refine ⟨permitted, fun answer possible => ⟨List.prefix_append _ _, fun value same => ?_⟩⟩
  subst same
  exact holds value possible

variable {program : Program I α}

theorem bind {next : α → Program I β} {goal : List (Exchange I) → β → Prop}
    (told : List (Exchange I) → α → Prop) (first : Tells P log program told)
    (rest : ∀ later value, log <+: later → told later value → Tells P later (next value) goal) :
    Tells P log (program >>= next) goal := by
  refine Program.traced_bind.mpr (first.mono fun later outcome ⟨extends_, holds⟩ => ⟨?_, ?_⟩)
  · intro value same
    have continued := rest later value extends_ (holds value same)
    exact Traced.mono continued fun _ _ ⟨further, goal⟩ => ⟨extends_.trans further, goal⟩
  · intro fault _
    exact ⟨extends_, by simp⟩

theorem tryCatch {handler : I.Fault → Program I α} (first : Tells P log program told)
    (rest : ∀ later fault, log <+: later → Tells P later (handler fault) told) :
    Tells P log (program.tryCatch handler) told := by
  refine Program.traced_tryCatch.mpr (first.mono fun later outcome ⟨extends_, holds⟩ => ⟨?_, ?_⟩)
  · intro value same
    refine ⟨extends_, fun other equal => ?_⟩
    cases equal
    exact holds value same
  · intro fault _
    have handled := rest later fault extends_
    exact Traced.mono handled fun _ _ ⟨further, goal⟩ => ⟨extends_.trans further, goal⟩

theorem mono {weak : List (Exchange I) → α → Prop} (tells : Tells P log program told)
    (implies : ∀ later value, log <+: later → told later value → weak later value) :
    Tells P log program weak :=
  Traced.mono tells fun later _ ⟨extends_, holds⟩ =>
    ⟨extends_, fun value same => implies later value extends_ (holds value same)⟩

theorem of_uses {allowed : I.Request → Prop} (uses : program.Uses allowed)
    (free : ∀ log request, allowed request → P.may log request) :
    Tells P log program fun later _ => ∃ added, later = log ++ added ∧
      ∀ exchange ∈ added, allowed exchange.request := by
  induction program generalizing log with
  | finish outcome => exact ⟨List.prefix_rfl, fun _ _ => ⟨[], by simp⟩⟩
  | access change resume ih => exact fun memory => ih memory (uses memory)
  | await request resume ih =>
    refine ⟨free log request uses.1, fun answer _ => ?_⟩
    have continued : Tells P (log ++ [⟨request, answer⟩]) (resume answer) _ := ih answer (uses.2 answer)
    refine Traced.mono continued fun later _ ⟨further, holds⟩ =>
      ⟨(List.prefix_append _ _).trans further, fun value same => ?_⟩
    obtain ⟨added, rfl, within⟩ := holds value same
    refine ⟨⟨request, answer⟩ :: added, by simp, fun exchange member => ?_⟩
    rcases List.mem_cons.mp member with rfl | member
    · exact uses.1
    · exact within exchange member

end Tells

/-- The program makes exactly the exchanges of `log` and ends with `outcome`. -/
def Runs (possible : (request : I.Request) → I.Answer request → Prop) :
    Program I α → List (Exchange I) → Except I.Fault α → Prop
  | .finish ending, log, outcome => log = [] ∧ outcome = ending
  | .access _ resume, log, outcome => ∃ memory, (resume memory).Runs possible log outcome
  | .await request resume, log, outcome => ∃ answer rest, possible request answer ∧
      log = ⟨request, answer⟩ :: rest ∧ (resume answer).Runs possible rest outcome

section Runs

variable {possible : (request : I.Request) → I.Answer request → Prop} {log : List (Exchange I)}
  {outcome : Except I.Fault α}

@[simp] theorem runs_finish {ending : Except I.Fault α} :
    (Program.finish ending : Program I α).Runs possible log outcome ↔ log = [] ∧ outcome = ending :=
  Iff.rfl

@[simp] theorem runs_throw {fault : I.Fault} :
    (throw fault : Program I α).Runs possible log outcome ↔ log = [] ∧ outcome = .error fault :=
  Iff.rfl

@[simp] theorem runs_read {view : I.Memory → α} :
    (read view : Program I α).Runs possible log outcome ↔
      log = [] ∧ ∃ memory, outcome = .ok (view memory) := by
  simp [read, Runs]

theorem runs_call {request : I.Request} {outcome : I.Answer request} :
    (call request : Program I _).Runs possible log outcome ↔
      possible request outcome ∧ log = [⟨request, outcome⟩] := by
  constructor
  · intro ⟨answer, rest, given, split, empty, same⟩
    subst empty same
    exact ⟨given, split⟩
  · intro ⟨given, same⟩
    exact ⟨outcome, [], given, same, rfl, rfl⟩

variable {program : Program I α}

theorem runs_bind {next : α → Program I β} {outcome : Except I.Fault β} :
    (program >>= next).Runs possible log outcome ↔
      (∃ first rest value, log = first ++ rest ∧ program.Runs possible first (.ok value) ∧
        (next value).Runs possible rest outcome) ∨
      ∃ fault, outcome = .error fault ∧ program.Runs possible log (.error fault) := by
  induction program generalizing log with
  | finish ending => cases ending <;> simp [and_comm]
  | access change resume ih =>
    simp only [access_bind, Runs, ih]
    grind
  | await request resume ih =>
    simp only [await_bind, Runs, ih]
    constructor
    · intro ⟨answer, rest, given, split, runs⟩
      rcases runs with ⟨first, last, value, rfl, ran, goes⟩ | ⟨fault, rfl, ran⟩
      · exact .inl ⟨⟨request, answer⟩ :: first, last, value, split,
          ⟨answer, first, given, rfl, ran⟩, goes⟩
      · exact .inr ⟨fault, rfl, answer, rest, given, split, ran⟩
    · intro runs
      rcases runs with ⟨_, last, value, rfl, ⟨answer, first, given, rfl, ran⟩, goes⟩ |
        ⟨fault, rfl, answer, rest, given, split, ran⟩
      · exact ⟨answer, first ++ last, given, rfl, .inl ⟨first, last, value, rfl, ran, goes⟩⟩
      · exact ⟨answer, rest, given, split, .inr ⟨fault, rfl, ran⟩⟩

theorem runs_tryCatch {handler : I.Fault → Program I α} :
    (program.tryCatch handler).Runs possible log outcome ↔
      (∃ value, outcome = .ok value ∧ program.Runs possible log (.ok value)) ∨
      ∃ first rest fault, log = first ++ rest ∧ program.Runs possible first (.error fault) ∧
        (handler fault).Runs possible rest outcome := by
  induction program generalizing log with
  | finish ending => cases ending <;> simp [tryCatch, and_comm]
  | access change resume ih =>
    simp only [tryCatch, Runs, ih]
    grind
  | await request resume ih =>
    simp only [tryCatch, Runs, ih]
    constructor
    · intro ⟨answer, rest, given, split, runs⟩
      rcases runs with ⟨value, rfl, ran⟩ | ⟨first, last, fault, rfl, ran, goes⟩
      · exact .inl ⟨value, rfl, answer, rest, given, split, ran⟩
      · exact .inr ⟨⟨request, answer⟩ :: first, last, fault, split,
          ⟨answer, first, given, rfl, ran⟩, goes⟩
    · intro runs
      rcases runs with ⟨value, rfl, answer, rest, given, split, ran⟩ |
        ⟨_, last, fault, rfl, ⟨answer, first, given, rfl, ran⟩, goes⟩
      · exact ⟨answer, rest, given, split, .inl ⟨value, rfl, ran⟩⟩
      · exact ⟨answer, first ++ last, given, rfl, .inr ⟨first, last, fault, rfl, ran, goes⟩⟩

theorem Runs.uses {allowed : I.Request → Prop} (runs : program.Runs possible log outcome)
    (uses : program.Uses allowed) :
    ∀ exchange ∈ log, allowed exchange.request := by
  induction program generalizing log with
  | finish ending => simp [runs.1]
  | access change resume ih =>
    obtain ⟨memory, ran⟩ := runs
    exact ih memory ran (uses memory)
  | await request resume ih =>
    obtain ⟨answer, rest, given, rfl, ran⟩ := runs
    intro exchange member
    rcases List.mem_cons.mp member with rfl | member
    · exact uses.1
    · exact ih answer ran (uses.2 answer) exchange member

theorem traced_runs {may : List (Exchange I) → I.Request → Prop} (program : Program I α)
    (free : ∀ log request, may log request) (log : List (Exchange I)) :
    program.Traced ⟨possible, may⟩ (fun later outcome => ∃ added, later = log ++ added ∧
      program.Runs possible added outcome) log := by
  induction program generalizing log with
  | finish ending => exact ⟨[], by simp⟩
  | access change resume ih =>
    intro memory
    exact (ih memory log).mono fun _ _ ⟨added, same, runs⟩ => ⟨added, same, memory, runs⟩
  | await request resume ih =>
    refine ⟨free log request, fun answer given => ?_⟩
    refine (ih answer _).mono fun _ _ ⟨added, same, runs⟩ => ?_
    exact ⟨⟨request, answer⟩ :: added, by simp [same], answer, added, given, rfl, runs⟩

end Runs

end Program

section Adequacy

variable {S : System I}

structure Process.Traced (P : Protocol I)
    (ends : List (Exchange I) → Except I.Fault S.Result → Prop) (process : Process S) : Prop where
  asked : ∀ before entry after, process.log = before ++ entry :: after →
    P.may (before.map Entry.exchange) entry.request
  stands :
    match process.status with
    | .settled outcome => ends (process.log.map Entry.exchange) outcome
    | .waiting request resume => P.may (process.log.map Entry.exchange) request ∧
        ∀ answer, P.possible request answer → (resume answer).Traced P ends
          (process.log.map Entry.exchange ++ [⟨request, answer⟩])
    | .answered entry resume => P.may (process.log.map Entry.exchange) entry.request ∧
        (resume entry.answer).Traced P ends
          (process.log.map Entry.exchange ++ [entry.exchange])

variable {P : Protocol I} {ends : List (Exchange I) → Except I.Fault S.Result → Prop}

theorem Program.Traced.advance {program : Program I S.Result} {memory : I.Memory}
    {operation : S.Operation} {born : State S} {log : List (Entry S)}
    (asked : ∀ before entry after, log = before ++ entry :: after →
      P.may (before.map Entry.exchange) entry.request)
    (traced : program.Traced P ends (log.map Entry.exchange)) :
    Process.Traced P ends ⟨operation, born, log, (program.advance S memory).2⟩ := by
  induction program generalizing memory with
  | finish outcome => exact ⟨asked, traced⟩
  | access change resume ih => exact ih memory (traced memory)
  | await request resume ih => exact ⟨asked, traced⟩

namespace Config

variable {allowed : Config S → Move S → Prop} {initial config : Config S}

theorem Reaches.traced (protocol : Nat → S.Operation → Protocol I)
    (ends : Nat → S.Operation → List (Exchange I) → Except I.Fault S.Result → Prop)
    (methods : ∀ self operation, (S.method self operation).Traced (protocol self operation)
      (ends self operation) [])
    (served : ∀ self operation request choice memory world answer memory' world',
      S.serve request choice memory world = some (answer, memory', world') →
      (protocol self operation).possible request answer)
    (reaches : Reaches allowed initial config) (idle : initial.processes = []) :
    ∀ self (process : Process S), config.processes[self]? = some process →
      process.Traced (protocol self process.operation) (ends self process.operation) := by
  have replaced : ∀ (current : Config S) other (new : Process S),
      (∀ self (process : Process S), current.processes[self]? = some process →
        process.Traced (protocol self process.operation) (ends self process.operation)) →
      new.Traced (protocol other new.operation) (ends other new.operation) →
      ∀ self (process : Process S), (current.processes.set other new)[self]? = some process →
        process.Traced (protocol self process.operation) (ends self process.operation) := by
    intro current other new holds fresh self process found
    rw [List.getElem?_set] at found
    split at found
    · next same =>
      subst same
      split at found
      · cases found
        exact fresh
      · contradiction
    · exact holds self process found
  induction reaches with
  | refl => simp [idle]
  | @step before after move _ _ stepped ih =>
    cases move with
    | start operation =>
      cases stepped
      intro self process found
      simp only [start] at found
      rcases Nat.lt_or_ge self before.processes.length with earlier | later
      · rw [List.getElem?_append_left earlier] at found
        exact ih self process found
      · rw [List.getElem?_append_right later, List.getElem?_singleton] at found
        split at found
        · next last =>
          have index : self = before.processes.length := by omega
          cases found
          subst index
          exact Program.Traced.advance (by simp) (methods _ operation)
        · contradiction
    | serve other choice =>
      obtain ⟨operation, born, log, request, resume, answer, memory, world, present, answered,
        rfl⟩ := serve_inv stepped
      have held := ih other _ present
      have landed : Process.Traced (protocol other operation) (ends other operation)
          ⟨operation, born, log, .answered ⟨request, answer, ⟨memory, world⟩⟩ resume⟩ :=
        ⟨held.asked, held.stands.1,
          held.stands.2 answer (served other operation _ _ _ _ _ _ _ answered)⟩
      exact replaced before other _ ih landed
    | deliver other =>
      obtain ⟨operation, born, log, entry, resume, present, rfl⟩ := deliver_inv stepped
      have held := ih other _ present
      refine replaced before other _ ih (Program.Traced.advance ?_ ?_)
      · intro earlier asked later split
        rcases List.eq_nil_or_concat later with rfl | ⟨rest, last, rfl⟩
        · obtain ⟨rfl, same⟩ := List.append_inj' split rfl
          cases same
          exact held.stands.1
        · rw [List.concat_eq_append, ← List.cons_append, ← List.append_assoc] at split
          obtain ⟨rfl, -⟩ := List.append_inj' split rfl
          exact held.asked earlier asked rest rfl
      · rw [List.map_append]
        exact held.stands.2
    | event event =>
      obtain ⟨memory, world, -, rfl⟩ := event_inv stepped
      exact ih

end Config

variable {process : Process S}

theorem Config.Reaches.runs {allowed : Config S → Move S → Prop} {initial config : Config S}
    (possible : (request : I.Request) → I.Answer request → Prop)
    (served : ∀ request choice memory world answer memory' world',
      S.serve request choice memory world = some (answer, memory', world') →
      possible request answer) (reaches : Reaches allowed initial config)
    (idle : initial.processes = []) {self : Nat} {outcome : Except I.Fault S.Result}
    (found : config.processes[self]? = some process) (settled : process.status = .settled outcome) :
    (S.method self process.operation).Runs possible (process.log.map Entry.exchange) outcome := by
  have traced := reaches.traced (fun _ _ => ⟨possible, fun _ _ => True⟩)
    (fun self operation log outcome => (S.method self operation).Runs possible log outcome)
    (fun self operation => ((S.method self operation).traced_runs (fun _ _ => trivial) []).mono
      fun _ _ ⟨added, same, runs⟩ => by simpa [same] using runs)
    (fun _ _ => served) idle self process found
  have stands := traced.stands
  rw [settled] at stands
  exact stands

/-- The call is asking for `request`, or has asked, after the answers in `before`. -/
def Process.Requests (process : Process S) (before : List (Exchange I)) (request : I.Request) :
    Prop :=
  (∃ earlier entry after, process.log = earlier ++ entry :: after ∧ entry.request = request ∧
    before = earlier.map Entry.exchange) ∨
  before = process.log.map Entry.exchange ∧
    ((∃ resume, process.status = .waiting request resume) ∨
      ∃ entry resume, process.status = .answered entry resume ∧ entry.request = request)

theorem Process.Traced.requests {before : List (Exchange I)} {request : I.Request}
    (traced : process.Traced P ends) (requests : process.Requests before request) :
    P.may before request := by
  obtain ⟨operation, born, log, status⟩ := process
  rcases requests with ⟨earlier, entry, after, split, rfl, rfl⟩ | ⟨rfl, waiting⟩
  · exact traced.asked earlier entry after split
  · have stands := traced.stands
    rcases waiting with ⟨resume, rfl⟩ | ⟨entry, resume, rfl, rfl⟩
    · exact stands.1
    · exact stands.1

theorem Process.Traced.settled {outcome : Except I.Fault S.Result} (traced : process.Traced P ends)
    (settled : process.status = .settled outcome) :
    ends (process.log.map Entry.exchange) outcome := by
  have stands := traced.stands
  rw [settled] at stands
  exact stands

end Adequacy

end NostrWot.Async
