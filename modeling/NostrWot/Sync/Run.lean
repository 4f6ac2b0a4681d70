import Mathlib.Data.Option.Basic

namespace NostrWot.Sync

/-! # Runs of a state machine -/

variable {σ μ : Type}

/-- The states of the runs whose every move is `allowed` where it is made. -/
inductive Reaches (step : σ → μ → Option σ) (allowed : σ → μ → Prop) (start : σ) : σ → Prop
  | refl : Reaches step allowed start start
  | step {state next : σ} (move : μ) : Reaches step allowed start state → allowed state move →
      step state move = some next → Reaches step allowed start next

def exec (step : σ → μ → Option σ) (state : σ) : List μ → Option σ
  | [] => some state
  | move :: rest => (step state move).bind fun next => exec step next rest

/-- Every move of a run is `allowed` where it is made. -/
def Permitted (step : σ → μ → Option σ) (allowed : σ → μ → Prop) (state : σ) : List μ → Prop
  | [] => True
  | move :: rest =>
    allowed state move ∧ ∀ next, step state move = some next → Permitted step allowed next rest

namespace Reaches

variable {step : σ → μ → Option σ} {allowed : σ → μ → Prop} {start middle last : σ}

theorem trans (first : Reaches step allowed start middle) (rest : Reaches step allowed middle last) :
    Reaches step allowed start last := by
  induction rest with
  | refl => exact first
  | step move _ permitted stepped ih => exact .step move ih permitted stepped

theorem invariant {holds : σ → Prop} (reaches : Reaches step allowed start last)
    (initially : holds start)
    (kept : ∀ state move next, holds state → allowed state move → step state move = some next →
      holds next) : holds last := by
  induction reaches with
  | refl => exact initially
  | step move _ permitted stepped ih => exact kept _ move _ ih permitted stepped

theorem of_permitted {moves : List μ} (executed : exec step start moves = some last)
    (permitted : Permitted step allowed start moves) : Reaches step allowed start last := by
  induction moves generalizing start with
  | nil => cases executed; exact .refl
  | cons move rest ih =>
    obtain ⟨next, stepped, others⟩ := Option.bind_eq_some_iff.mp executed
    have first : Reaches step allowed start next := .step move .refl permitted.1 stepped
    exact first.trans (ih others (permitted.2 next stepped))

theorem of_exec {moves : List μ} (executed : exec step start moves = some last) :
    Reaches step (fun _ _ => True) start last := by
  induction moves generalizing start with
  | nil => cases executed; exact .refl
  | cons move rest ih =>
    obtain ⟨next, stepped, others⟩ := Option.bind_eq_some_iff.mp executed
    exact (Reaches.step move .refl trivial stepped).trans (ih others)

end Reaches

end NostrWot.Sync
