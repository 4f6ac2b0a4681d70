import NostrWot.Async.Program
import Mathlib.Data.List.Basic
import Mathlib.Data.Option.Basic

namespace NostrWot.Async

/-! # Interleaved execution

Many calls run at once over one memory.  A call gives up control only where it
awaits; its request then takes effect at some later moment, and its answer is
handed back at some moment after that.  A `Move` is one such moment, so a list
of moves is one interleaving.
-/

/-- An object with asynchronous methods, and the world its requests reach. -/
structure System (I : Interface) where
  World : Type
  Choice : Type
  Event : Type
  Operation : Type
  Result : Type
  method : (self : Nat) → Operation → Program I Result
  serve : (request : I.Request) → Choice → I.Memory → World →
    Option (I.Answer request × I.Memory × World)
  /-- What the world records when an answer is handed back; the first world is
  the one the answer was taken in. -/
  acknowledge : (request : I.Request) → I.Answer request → World → World → World
  occur : Event → I.Memory → World → Option (I.Memory × World)

variable {I : Interface}

structure State (S : System I) where
  memory : I.Memory
  world : S.World

structure Entry (S : System I) where
  request : I.Request
  answer : I.Answer request
  taken : State S

def State.acknowledged {S : System I} (state : State S) (entry : Entry S) : State S :=
  { state with world := S.acknowledge entry.request entry.answer entry.taken.world state.world }

/-- Where a run of a program stands once it gives up control. -/
inductive Status (S : System I) (α : Type) where
  | waiting (request : I.Request) (resume : I.Answer request → Program I α)
  | answered (entry : Entry S) (resume : I.Answer entry.request → Program I α)
  | settled (outcome : Except I.Fault α)

/-- Run the synchronous code up to the next `await` or the end. -/
def Program.advance (S : System I) {α : Type} :
    Program I α → I.Memory → I.Memory × Status S α
  | .finish outcome, memory => (memory, .settled outcome)
  | .access change resume, memory => (resume memory).advance S (change memory)
  | .await request resume, memory => (memory, .waiting request resume)

/-- One call: what was called, the state it was called in, the answers it has
been given so far, and where it stands. -/
structure Process (S : System I) where
  operation : S.Operation
  born : State S
  log : List (Entry S)
  status : Status S S.Result

structure Config (S : System I) where
  state : State S
  processes : List (Process S)

inductive Move (S : System I) where
  | start (operation : S.Operation)
  | serve (self : Nat) (choice : S.Choice)
  | deliver (self : Nat)
  | event (event : S.Event)

namespace Config

variable {S : System I}

def start (config : Config S) (operation : S.Operation) : Config S :=
  let advanced := (S.method config.processes.length operation).advance S config.state.memory
  { state := { config.state with memory := advanced.1 }
    processes := config.processes ++
      [{ operation, born := config.state, log := [], status := advanced.2 }] }

def serve (config : Config S) (self : Nat) (choice : S.Choice) : Option (Config S) :=
  match config.processes[self]? with
  | some ⟨operation, born, log, .waiting request resume⟩ =>
    match S.serve request choice config.state.memory config.state.world with
    | some (answer, memory, world) => some
        { state := ⟨memory, world⟩
          processes := config.processes.set self
            ⟨operation, born, log, .answered ⟨request, answer, ⟨memory, world⟩⟩ resume⟩ }
    | none => none
  | _ => none

def deliver (config : Config S) (self : Nat) : Option (Config S) :=
  match config.processes[self]? with
  | some ⟨operation, born, log, .answered entry resume⟩ =>
    let received := config.state.acknowledged entry
    let advanced := (resume entry.answer).advance S received.memory
    some
      { state := { received with memory := advanced.1 }
        processes := config.processes.set self
          ⟨operation, born, log ++ [entry], advanced.2⟩ }
  | _ => none

def step (config : Config S) : Move S → Option (Config S)
  | .start operation => some (config.start operation)
  | .serve self choice => config.serve self choice
  | .deliver self => config.deliver self
  | .event event =>
    match S.occur event config.state.memory config.state.world with
    | some (memory, world) => some { config with state := ⟨memory, world⟩ }
    | none => none

/-- Run one interleaving; `none` when a move is not possible or not allowed
where it stands. -/
def execWhile (allowed : Config S → Move S → Prop) [∀ config move, Decidable (allowed config move)]
    (config : Config S) : List (Move S) → Option (Config S)
  | [] => some config
  | move :: rest =>
    if allowed config move then
      match config.step move with
      | some next => next.execWhile allowed rest
      | none => none
    else none

def outcome (config : Config S) (self : Nat) : Option (Except I.Fault S.Result) :=
  match config.processes[self]? with
  | some ⟨_, _, _, .settled outcome⟩ => some outcome
  | _ => none

variable {self : Nat}

theorem outcome_eq_some {config : Config S} {outcome : Except I.Fault S.Result} :
    config.outcome self = some outcome ↔
      ∃ process, config.processes[self]? = some process ∧ process.status = .settled outcome := by
  unfold Config.outcome
  constructor
  · intro settled
    split at settled
    · next found =>
      cases settled
      exact ⟨_, found, rfl⟩
    · contradiction
  · rintro ⟨⟨operation, born, log, status⟩, found, rfl⟩
    rw [found]

/-- The configurations of the interleavings whose every move is `allowed`. -/
inductive Reaches (allowed : Config S → Move S → Prop) (initial : Config S) : Config S → Prop
  | refl : Reaches allowed initial initial
  | step {config next : Config S} (move : Move S) : Reaches allowed initial config →
      allowed config move → config.step move = some next → Reaches allowed initial next

variable {allowed : Config S → Move S → Prop}

theorem Reaches.trans {first second third : Config S} (left : Reaches allowed first second)
    (right : Reaches allowed second third) :
    Reaches allowed first third := by
  induction right with
  | refl => exact left
  | step move _ permitted stepped ih => exact .step move ih permitted stepped

theorem Reaches.of_execWhile [∀ config move, Decidable (allowed config move)]
    {config last : Config S} {moves : List (Move S)}
    (executed : config.execWhile allowed moves = some last) :
    Reaches allowed config last := by
  induction moves generalizing config with
  | nil => cases executed; exact .refl
  | cons move rest ih =>
    simp only [execWhile] at executed
    split at executed
    · next permitted =>
      split at executed
      · next middle stepped =>
        exact (Reaches.step move .refl permitted stepped).trans (ih executed)
      · contradiction
    · contradiction

theorem serve_inv {config next : Config S} {choice : S.Choice}
    (stepped : config.serve self choice = some next) :
    ∃ operation born log request resume answer memory world,
      config.processes[self]? = some ⟨operation, born, log, .waiting request resume⟩ ∧
      S.serve request choice config.state.memory config.state.world =
        some (answer, memory, world) ∧
      next = ⟨⟨memory, world⟩, config.processes.set self
        ⟨operation, born, log, .answered ⟨request, answer, ⟨memory, world⟩⟩ resume⟩⟩ := by
  unfold serve at stepped
  split at stepped
  · rename_i operation born log request resume found
    split at stepped
    · rename_i answer memory world served
      exact ⟨operation, born, log, request, resume, answer, memory, world, found, served,
        (Option.some.inj stepped).symm⟩
    · contradiction
  · contradiction

theorem deliver_inv {config next : Config S} (stepped : config.deliver self = some next) :
    ∃ operation born log entry resume,
      config.processes[self]? = some ⟨operation, born, log, .answered entry resume⟩ ∧
      next =
        let received := config.state.acknowledged entry
        let advanced := (resume entry.answer).advance S received.memory
        ⟨{ received with memory := advanced.1 }, config.processes.set self
          ⟨operation, born, log ++ [entry], advanced.2⟩⟩ := by
  unfold deliver at stepped
  split at stepped
  · rename_i operation born log entry resume found
    exact ⟨operation, born, log, entry, resume, found, (Option.some.inj stepped).symm⟩
  · contradiction

theorem event_inv {config next : Config S} {event : S.Event}
    (stepped : config.step (.event event) = some next) :
    ∃ memory world, S.occur event config.state.memory config.state.world = some (memory, world) ∧
      next = { config with state := ⟨memory, world⟩ } := by
  simp only [step] at stepped
  split at stepped
  · rename_i memory world occurred
    exact ⟨memory, world, occurred, (Option.some.inj stepped).symm⟩
  · contradiction

/-- A move leaves every call what it was called with, and gives a new call the
state it is made in. -/
theorem step_born {config next : Config S} {move : Move S} {process : Process S}
    (stepped : config.step move = some next) (found : next.processes[self]? = some process) :
    (∃ earlier, config.processes[self]? = some earlier ∧ earlier.operation = process.operation ∧
      earlier.born = process.born) ∨
    self = config.processes.length ∧ process.born = config.state := by
  have replaced : ∀ other (old new : Process S), config.processes[other]? = some old →
      old.operation = new.operation → old.born = new.born →
      (config.processes.set other new)[self]? = some process →
      ∃ earlier, config.processes[self]? = some earlier ∧
        earlier.operation = process.operation ∧ earlier.born = process.born := by
    intro other old new present operation born found
    by_cases same : other = self
    · subst same
      rw [List.getElem?_set_self (List.getElem?_eq_some_iff.mp present).1] at found
      cases found
      exact ⟨old, present, operation, born⟩
    · rw [List.getElem?_set_ne same] at found
      exact ⟨process, found, rfl, rfl⟩
  cases move with
  | start operation =>
    cases stepped
    simp only [start] at found
    rcases Nat.lt_or_ge self config.processes.length with earlier | later
    · rw [List.getElem?_append_left earlier] at found
      exact .inl ⟨process, found, rfl, rfl⟩
    · rw [List.getElem?_append_right later, List.getElem?_singleton] at found
      split at found
      · cases found
        exact .inr ⟨by omega, rfl⟩
      · contradiction
  | serve other choice =>
    obtain ⟨operation, born, log, request, resume, answer, memory, world, present, -, rfl⟩ :=
      serve_inv stepped
    refine .inl (replaced other _ _ present ?_ ?_ found) <;> rfl
  | deliver other =>
    obtain ⟨operation, born, log, entry, resume, present, rfl⟩ := deliver_inv stepped
    refine .inl (replaced other _ _ present ?_ ?_ found) <;> rfl
  | event event =>
    obtain ⟨memory, world, -, rfl⟩ := event_inv stepped
    exact .inl ⟨process, found, rfl, rfl⟩

theorem Reaches.born {first last : Config S} {process : Process S}
    (reaches : Reaches allowed first last) (fresh : first.processes.length ≤ self)
    (found : last.processes[self]? = some process) :
    ∃ middle, Reaches allowed first middle ∧ Reaches allowed middle last ∧
      process.born = middle.state := by
  induction reaches generalizing process with
  | refl => simp [List.getElem?_eq_none fresh] at found
  | step move reached permitted stepped ih =>
    rcases step_born stepped found with ⟨earlier, present, -, same⟩ | ⟨-, same⟩
    · obtain ⟨middle, before, after, born⟩ := ih present
      exact ⟨middle, before, .step move after permitted stepped, same.symm.trans born⟩
    · exact ⟨_, reached, .step move .refl permitted stepped, same⟩

end Config

end NostrWot.Async
