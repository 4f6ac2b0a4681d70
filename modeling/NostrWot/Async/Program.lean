import Mathlib.Logic.Basic

namespace NostrWot.Async

/-! # Asynchronous programs

An `async` function runs without interruption from one `await` to the next.  A
`Program` keeps exactly that structure: synchronous accesses to the memory it
shares with the other functions of its object, and requests whose answers
arrive later.  Nothing here knows what the requests are or who answers them.
-/

/-- What a family of asynchronous functions shares: the memory of the object
they are methods of, the requests they await, and what they throw. -/
structure Interface where
  Memory : Type
  Request : Type
  Reply : Request → Type
  Fault : Type

/-- What a settled request answers: a value, or the rejection it threw. -/
abbrev Interface.Answer (I : Interface) (request : I.Request) : Type :=
  Except I.Fault (I.Reply request)

inductive Program (I : Interface) (α : Type) where
  | finish (outcome : Except I.Fault α)
  | access (change : I.Memory → I.Memory) (resume : I.Memory → Program I α)
  | await (request : I.Request) (resume : I.Answer request → Program I α)

namespace Program

variable {I : Interface} {α β γ : Type}

def bind : Program I α → (α → Program I β) → Program I β
  | .finish (.ok value), next => next value
  | .finish (.error fault), _ => .finish (.error fault)
  | .access change resume, next => .access change fun memory => (resume memory).bind next
  | .await request resume, next => .await request fun answer => (resume answer).bind next

instance : Monad (Program I) where
  pure value := .finish (.ok value)
  bind := bind

def throw (fault : I.Fault) : Program I α := .finish (.error fault)

def read (view : I.Memory → α) : Program I α :=
  .access id fun memory => .finish (.ok (view memory))

/-- A synchronous write of the shared memory. -/
def modify (change : I.Memory → I.Memory) : Program I Unit :=
  .access change fun _ => .finish (.ok ())

/-- `await request`: a rejection is rethrown at the `await`. -/
def call (request : I.Request) : Program I (I.Reply request) :=
  .await request .finish

/-- `try { body } catch (fault) { handler }`. -/
def tryCatch : Program I α → (I.Fault → Program I α) → Program I α
  | .finish (.ok value), _ => .finish (.ok value)
  | .finish (.error fault), handler => handler fault
  | .access change resume, handler => .access change fun memory => (resume memory).tryCatch handler
  | .await request resume, handler => .await request fun answer => (resume answer).tryCatch handler

/-- `try { body } finally { cleanup }` for a synchronous `cleanup`. -/
def finallyDo : Program I α → (I.Memory → I.Memory) → Program I α
  | .finish outcome, cleanup => .access cleanup fun _ => .finish outcome
  | .access change resume, cleanup => .access change fun memory => (resume memory).finallyDo cleanup
  | .await request resume, cleanup => .await request fun answer => (resume answer).finallyDo cleanup

@[simp] theorem pure_eq (value : α) : (pure value : Program I α) = .finish (.ok value) := rfl

@[simp] theorem finish_ok_bind (value : α) (next : α → Program I β) :
    (Program.finish (.ok value) : Program I α) >>= next = next value := rfl

@[simp] theorem finish_error_bind (fault : I.Fault) (next : α → Program I β) :
    (Program.finish (.error fault) : Program I α) >>= next = .finish (.error fault) := rfl

@[simp] theorem access_bind (change : I.Memory → I.Memory) (resume : I.Memory → Program I α)
    (next : α → Program I β) :
    Program.access change resume >>= next = .access change fun memory => resume memory >>= next :=
  rfl

@[simp] theorem await_bind (request : I.Request) (resume : I.Answer request → Program I α)
    (next : α → Program I β) :
    Program.await request resume >>= next = .await request fun answer => resume answer >>= next :=
  rfl

/-- Every request the program can issue, whatever it is answered, is `allowed`. -/
def Uses (allowed : I.Request → Prop) : Program I α → Prop
  | .finish _ => True
  | .access _ resume => ∀ memory, (resume memory).Uses allowed
  | .await request resume => allowed request ∧ ∀ answer, (resume answer).Uses allowed

section Uses

variable {allowed : I.Request → Prop}

theorem Uses.bind {program : Program I α} {next : α → Program I β}
    (first : program.Uses allowed) (rest : ∀ value, (next value).Uses allowed) :
    (program >>= next).Uses allowed := by
  induction program with
  | finish outcome =>
    cases outcome with
    | error => trivial
    | ok value => exact rest value
  | access change resume ih => exact fun memory => ih memory (first memory)
  | await request resume ih => exact ⟨first.1, fun answer => ih answer (first.2 answer)⟩

theorem Uses.finallyDo {program : Program I α} (cleanup : I.Memory → I.Memory)
    (uses : program.Uses allowed) : (program.finallyDo cleanup).Uses allowed := by
  induction program with
  | finish => exact fun _ => trivial
  | access change resume ih => exact fun memory => ih memory (uses memory)
  | await request resume ih => exact ⟨uses.1, fun answer => ih answer (uses.2 answer)⟩

end Uses

/-- Every request the program can issue is `allowed`, and every synchronous step
changes the memory as `keeps` says. -/
def Within (keeps : I.Memory → I.Memory → Prop) (allowed : I.Request → Prop) :
    Program I α → Prop
  | .finish _ => True
  | .access change resume =>
    ∀ memory, keeps memory (change memory) ∧ (resume memory).Within keeps allowed
  | .await request resume => allowed request ∧ ∀ answer, (resume answer).Within keeps allowed

section Within

variable {keeps : I.Memory → I.Memory → Prop} {allowed : I.Request → Prop}

@[simp] theorem within_finish (outcome : Except I.Fault α) :
    (Program.finish outcome : Program I α).Within keeps allowed := trivial

variable {program : Program I α}

theorem Within.bind {next : α → Program I β} (first : program.Within keeps allowed)
    (rest : ∀ value, (next value).Within keeps allowed) :
    (program >>= next).Within keeps allowed := by
  induction program with
  | finish outcome =>
    cases outcome with
    | error => trivial
    | ok value => exact rest value
  | access change resume ih => exact fun memory => ⟨(first memory).1, ih memory (first memory).2⟩
  | await request resume ih => exact ⟨first.1, fun answer => ih answer (first.2 answer)⟩

theorem Within.tryCatch {handler : I.Fault → Program I α} (first : program.Within keeps allowed)
    (rest : ∀ fault, (handler fault).Within keeps allowed) :
    (program.tryCatch handler).Within keeps allowed := by
  induction program with
  | finish outcome =>
    cases outcome with
    | error fault => exact rest fault
    | ok => trivial
  | access change resume ih => exact fun memory => ⟨(first memory).1, ih memory (first memory).2⟩
  | await request resume ih => exact ⟨first.1, fun answer => ih answer (first.2 answer)⟩

theorem Within.uses (within : program.Within keeps allowed) :
    program.Uses allowed := by
  induction program with
  | finish outcome => trivial
  | access change resume ih => exact fun memory => ih memory (within memory).2
  | await request resume ih => exact ⟨within.1, fun answer => ih answer (within.2 answer)⟩

end Within

end Program

end NostrWot.Async
