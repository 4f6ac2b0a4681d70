import Mathlib.Data.List.Basic

namespace NostrWot.Data

/-! # Computations that can throw -/

variable {ε α β : Type}

theorem bind_ok {outcome : Except ε α} {next : α → Except ε β} {result : β}
    (ran : outcome >>= next = .ok result) : ∃ value, outcome = .ok value ∧ next value = .ok result := by
  cases outcome with
  | error fault => contradiction
  | ok value => exact ⟨value, rfl, ran⟩

theorem check_ok {refused : Prop} [Decidable refused] {fault : ε} {dead : β → Except ε α}
    {rest : Except ε α} {result : α}
    (ran : (if refused then (throw fault : Except ε β) >>= dead else rest) = .ok result) :
    ¬ refused ∧ rest = .ok result := by
  split at ran
  · contradiction
  · exact ⟨‹_›, ran⟩

theorem foldlM_ok {step : β → α → Except ε β} {items : List α} {start result : β}
    (holds : β → Prop) (folded : items.foldlM step start = .ok result) (before : holds start)
    (kept : ∀ item ∈ items, ∀ state next, holds state → step state item = .ok next → holds next) :
    holds result := by
  induction items generalizing start with
  | nil =>
    cases folded
    exact before
  | cons item rest ih =>
    rw [List.foldlM_cons] at folded
    obtain ⟨next, stepped, others⟩ := bind_ok folded
    refine ih others (kept item (List.mem_cons_self ..) start next before stepped) ?_
    exact fun other member => kept other (List.mem_cons_of_mem _ member)

end NostrWot.Data
