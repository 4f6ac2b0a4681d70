import NostrWot.Async.System

namespace NostrWot.Async

/-! # One call at a time

A call that runs by itself, every request answered at once, and the places
where such a run can be cut off.
-/

variable {I : Interface} {S : System I} {α β : Type}

namespace Program

/-- Run a call by itself; `none` when a request cannot be answered. -/
def run (choice : S.Choice) : Program I α → State S → Option (Except I.Fault α × State S)
  | .finish outcome, state => some (outcome, state)
  | .access change resume, state =>
    (resume state.memory).run choice { state with memory := change state.memory }
  | .await request resume, state =>
    match S.serve request choice state.memory state.world with
    | some (answer, memory, world) =>
      (resume answer).run choice
        ((State.mk memory world).acknowledged ⟨request, answer, ⟨memory, world⟩⟩)
    | none => none

/-- A call run by itself stands in `cut` while it awaits. -/
def Cuts (choice : S.Choice) : Program I α → State S → State S → Prop
  | .finish _, _, _ => False
  | .access change resume, state, cut =>
    (resume state.memory).Cuts choice { state with memory := change state.memory } cut
  | .await request resume, state, cut =>
    cut = state ∨
    match S.serve request choice state.memory state.world with
    | some (answer, memory, world) =>
      (resume answer).Cuts choice
        ((State.mk memory world).acknowledged ⟨request, answer, ⟨memory, world⟩⟩) cut
    | none => False

/-- Where a call run by itself stands at its await number `count`. -/
def cutAt (choice : S.Choice) : Program I α → (count : Nat) → State S → Option (State S)
  | .finish _, _, _ => none
  | .access change resume, count, state =>
    (resume state.memory).cutAt choice count { state with memory := change state.memory }
  | .await _ _, 0, state => some state
  | .await request resume, count + 1, state =>
    match S.serve request choice state.memory state.world with
    | some (answer, memory, world) =>
      (resume answer).cutAt choice count
        ((State.mk memory world).acknowledged ⟨request, answer, ⟨memory, world⟩⟩)
    | none => none

/-- Run by itself, the call ends in `post`, and stands in `during` whenever it
awaits. -/
def Alone (choice : S.Choice) (during : State S → Prop)
    (post : Except I.Fault α → State S → Prop) : Program I α → State S → Prop
  | .finish outcome, state => post outcome state
  | .access change resume, state =>
    (resume state.memory).Alone choice during post { state with memory := change state.memory }
  | .await request resume, state =>
    during state ∧
    match S.serve request choice state.memory state.world with
    | some (answer, memory, world) =>
      (resume answer).Alone choice during post
        ((State.mk memory world).acknowledged ⟨request, answer, ⟨memory, world⟩⟩)
    | none => False

variable {choice : S.Choice} {during : State S → Prop} {state : State S}

variable {program : Program I α}

theorem Cuts.of_cutAt {count : Nat} {cut : State S}
    (stands : program.cutAt choice count state = some cut) : program.Cuts choice state cut := by
  induction program generalizing count state with
  | finish outcome => contradiction
  | access change resume ih => exact ih state.memory stands
  | await request resume ih =>
    cases count with
    | zero =>
      simp only [cutAt, Option.some.injEq] at stands
      simp only [Cuts, stands, true_or]
    | succ count =>
      simp only [cutAt] at stands
      simp only [Cuts]
      split at stands
      · next answer memory world served => exact Or.inr (ih answer stands)
      · contradiction

variable {post : Except I.Fault α → State S → Prop}

theorem Alone.run (alone : program.Alone choice during post state) :
    ∃ outcome last, program.run choice state = some (outcome, last) ∧ post outcome last := by
  induction program generalizing state with
  | finish outcome => exact ⟨outcome, state, rfl, alone⟩
  | access change resume ih => exact ih state.memory alone
  | await request resume ih =>
    simp only [Alone] at alone
    obtain ⟨-, continues⟩ := alone
    simp only [Program.run]
    split at continues
    · next answer memory world served => exact ih answer continues
    · exact continues.elim

theorem Alone.cut (alone : program.Alone choice during post state) {cut : State S}
    (cuts : program.Cuts choice state cut) : during cut := by
  induction program generalizing state with
  | finish outcome => exact cuts.elim
  | access change resume ih => exact ih state.memory alone cuts
  | await request resume ih =>
    simp only [Alone] at alone
    obtain ⟨here, continues⟩ := alone
    simp only [Cuts] at cuts
    rcases cuts with same | later
    · rw [same]
      exact here
    · split at continues
      · next answer memory world served =>
        simp only [served] at later
        exact ih answer continues later
      · exact continues.elim

theorem Alone.mono {weaker : Except I.Fault α → State S → Prop} {wider : State S → Prop}
    (alone : program.Alone choice during post state) (cuts : ∀ state, during state → wider state)
    (ends : ∀ outcome state, post outcome state → weaker outcome state) :
    program.Alone choice wider weaker state := by
  induction program generalizing state with
  | finish outcome => exact ends outcome state alone
  | access change resume ih => exact ih state.memory alone
  | await request resume ih =>
    simp only [Alone] at alone ⊢
    obtain ⟨here, continues⟩ := alone
    refine ⟨cuts state here, ?_⟩
    split at continues
    · next answer memory world served => exact ih answer continues
    · exact continues.elim

theorem Alone.bind {next : α → Program I β} {post : Except I.Fault β → State S → Prop}
    (alone : program.Alone choice during (fun outcome state =>
      match outcome with
      | .ok value => (next value).Alone choice during post state
      | .error fault => post (.error fault) state) state) :
    (program >>= next).Alone choice during post state := by
  induction program generalizing state with
  | finish outcome =>
    cases outcome with
    | error fault => exact alone
    | ok value => exact alone
  | access change resume ih => exact ih state.memory alone
  | await request resume ih =>
    simp only [Alone] at alone
    obtain ⟨here, continues⟩ := alone
    simp only [await_bind, Alone]
    refine ⟨here, ?_⟩
    split at continues
    · next answer memory world served => exact ih answer continues
    · exact continues.elim

theorem Alone.finallyDo {cleanup : I.Memory → I.Memory}
    (alone : program.Alone choice during (fun outcome state =>
      post outcome { state with memory := cleanup state.memory }) state) :
    (program.finallyDo cleanup).Alone choice during post state := by
  induction program generalizing state with
  | finish outcome => exact alone
  | access change resume ih => exact ih state.memory alone
  | await request resume ih =>
    simp only [Alone] at alone
    obtain ⟨here, continues⟩ := alone
    simp only [Program.finallyDo, Alone]
    refine ⟨here, ?_⟩
    split at continues
    · next answer memory world served => exact ih answer continues
    · exact continues.elim

end Program

namespace Config

end Config

end NostrWot.Async
