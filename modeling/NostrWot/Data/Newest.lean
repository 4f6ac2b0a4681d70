import Mathlib.Data.Finset.Card

namespace NostrWot.Data

/-! # The newest of a set

What is left of values that keep coming in while the oldest go, down to a cap.
-/

universe u

variable {α : Type u} {age : α → Int} {caps : List Nat} {all kept next more : Finset α}

/-- What is left of `all`. -/
structure Newest (age : α → Int) (caps : List Nat) (all kept : Finset α) : Prop where
  within : kept ⊆ all
  oldest : ∀ lost ∈ all, lost ∉ kept → ∀ left ∈ kept, age lost ≤ age left
  cut : ∀ lost ∈ all, lost ∉ kept → kept.card ∈ caps ∧ ∀ cap ∈ caps, kept.card ≤ cap

def CleanCut (age : α → Int) (caps : List Nat) (all : Finset α) : Prop :=
  ∀ cap ∈ caps, (∀ other ∈ caps, cap ≤ other) → ∀ value ∈ all,
    cap ≤ (all.filter fun other => age value < age other).card ∨
      (all.filter fun other => age value ≤ age other).card ≤ cap

namespace Newest

theorem refl (age : α → Int) (caps : List Nat) (all : Finset α) : Newest age caps all all :=
  ⟨fun _ => id, fun _ held lost => absurd held lost, fun _ held lost => absurd held lost⟩

variable [DecidableEq α]

theorem push (newest : Newest age caps all kept) (within : next ⊆ kept ∪ more)
    (oldest : ∀ lost ∈ kept ∪ more, lost ∉ next → ∀ left ∈ next, age lost ≤ age left)
    (cut : ∀ lost ∈ kept ∪ more, lost ∉ next → next.card ∈ caps)
    (fits : ∀ cap ∈ caps, next.card ≤ cap) : Newest age caps (all ∪ more) next := by
  have old : ∀ lost ∈ all ∪ more, lost ∉ kept ∪ more → lost ∈ all ∧ lost ∉ kept := by
    intro lost inside missing
    rw [Finset.mem_union, not_or] at missing
    exact ⟨(Finset.mem_union.mp inside).resolve_right missing.2, missing.1⟩
  refine ⟨fun value held => ?_, fun lost inside gone left stays => ?_, fun lost inside gone => ?_⟩
  · have held := Finset.mem_union.mp (within held)
    exact Finset.mem_union.mpr (held.imp_left fun here => newest.within here)
  · by_cases here : lost ∈ kept ∪ more
    · exact oldest lost here gone left stays
    · obtain ⟨before, earlier⟩ := old lost inside here
      have full := newest.cut lost before earlier
      by_cases held : left ∈ kept
      · exact newest.oldest lost before earlier left held
      · -- a value that came in takes the place of one that went
        have replaced : ∃ value ∈ kept, value ∉ next := by
          by_contra none
          push Not at none
          have more : kept ⊂ next :=
            ⟨none, fun same => held (same stays)⟩
          have larger := Finset.card_lt_card more
          have smaller := fits _ full.1
          omega
        obtain ⟨value, was, went⟩ := replaced
        have first := newest.oldest lost before earlier value was
        have second := oldest value (Finset.mem_union_left _ was) went left stays
        exact Int.le_trans first second
  · refine ⟨?_, fits⟩
    by_cases here : lost ∈ kept ∪ more
    · exact cut lost here gone
    · obtain ⟨before, earlier⟩ := old lost inside here
      have full := newest.cut lost before earlier
      by_cases went : ∃ value ∈ kept ∪ more, value ∉ next
      · obtain ⟨value, was, missing⟩ := went
        exact cut value was missing
      · push Not at went
        have same : kept = next := by
          apply Finset.eq_of_subset_of_card_le
          · exact fun value held => went value (Finset.mem_union_left _ held)
          · exact fits _ full.1
        rw [← same]
        exact full.1

theorem subset_of_clean {one two : Finset α} (first : Newest age caps all one)
    (second : Newest age caps all two) (fits : ∀ cap ∈ caps, one.card ≤ cap)
    (clean : CleanCut age caps all) : one ⊆ two := by
  intro value held
  by_contra missing
  have inside := first.within held
  have full := second.cut value inside missing
  -- some other value is in its place
  have other : ∃ other ∈ two, other ∉ one := by
    by_contra none
    push Not at none
    have more : two ⊂ one := ⟨none, fun same => missing (same held)⟩
    have larger := Finset.card_lt_card more
    have smaller := fits _ full.1
    omega
  obtain ⟨other, there, lost⟩ := other
  have above := second.oldest value inside missing other there
  have below := first.oldest other (second.within there) lost value held
  have newer : (all.filter fun each => age value < age each) ⊂ two := by
    refine ⟨fun each member => ?_, fun same => ?_⟩
    · obtain ⟨known, later⟩ := Finset.mem_filter.mp member
      by_contra gone
      have := second.oldest each known gone other there
      omega
    · have later := (Finset.mem_filter.mp (same there)).2
      omega
  have asNew : two ⊂ all.filter fun each => age value ≤ age each := by
    refine ⟨fun each member => ?_, fun same => ?_⟩
    · exact Finset.mem_filter.mpr
        ⟨second.within member, second.oldest value inside missing each member⟩
    · exact missing (same (Finset.mem_filter.mpr ⟨inside, Int.le_refl _⟩))
  have fewer := Finset.card_lt_card newer
  have larger := Finset.card_lt_card asNew
  rcases clean _ full.1 full.2 value inside with many | few
  · omega
  · omega

theorem unique {one two : Finset α} (first : Newest age caps all one)
    (second : Newest age caps all two) (fits : ∀ cap ∈ caps, one.card ≤ cap)
    (fits_too : ∀ cap ∈ caps, two.card ≤ cap) (clean : CleanCut age caps all) : one = two :=
  Finset.Subset.antisymm (subset_of_clean first second fits clean)
    (subset_of_clean second first fits_too clean)

end Newest

end NostrWot.Data
