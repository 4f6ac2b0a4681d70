import Mathlib.Data.List.Nodup
import Mathlib.Data.Set.Card
import Mathlib.Data.Set.Finite.Lattice

namespace NostrWot.Traverse

/-! # Walks

A graph is given by the list of those that each vertex leads to. A walk is the list of the vertices
that it goes through after its source.
-/

universe u

variable {V : Type u}

/-- The walk through `steps` that starts at a vertex ends at another. -/
def Walk (next : V → List V) : V → List V → V → Prop
  | source, [], target => source = target
  | source, step :: rest, target => step ∈ next source ∧ Walk next step rest target

def walks (next : V → List V) (source : V) (length : Nat) (target : V) : Set (List V) :=
  { steps | steps.length = length ∧ Walk next source steps target }

noncomputable def count (next : V → List V) (source : V) (length : Nat) (target : V) : Nat :=
  (walks next source length target).ncard

def At (next : V → List V) (source : V) (length : Nat) (target : V) : Prop :=
  (walks next source length target).Nonempty ∧
    ∀ less < length, ¬(walks next source less target).Nonempty

variable {next : V → List V} {source target vertex : V} {length : Nat}

variable {steps : List V}

theorem walk_append {rest : List V} : ∀ {source : V},
    Walk next source (steps ++ rest) target ↔
      ∃ middle, Walk next source steps middle ∧ Walk next middle rest target := by
  induction steps with
  | nil => simp [Walk]
  | cons step steps ih =>
    intro source
    simp only [List.cons_append, Walk, ih]
    constructor
    · intro walked
      obtain ⟨first, middle, before, after⟩ := walked
      exact ⟨middle, ⟨first, before⟩, after⟩
    · intro walked
      obtain ⟨middle, ⟨first, before⟩, after⟩ := walked
      exact ⟨first, middle, before, after⟩

theorem walk_concat {last : V} :
    Walk next source (steps ++ [last]) target ↔
      last = target ∧ ∃ middle, Walk next source steps middle ∧ target ∈ next middle := by
  rw [walk_append]
  simp only [Walk]
  constructor
  · intro walked
    obtain ⟨middle, before, listed, same⟩ := walked
    exact ⟨same, middle, before, same ▸ listed⟩
  · intro walked
    obtain ⟨same, middle, before, listed⟩ := walked
    exact ⟨middle, before, same ▸ listed, same⟩

theorem Walk.closed {known : V → Prop}
    (closed : ∀ vertex, known vertex → ∀ other ∈ next vertex, known other) :
    ∀ {source : V}, known source → Walk next source steps target → known target := by
  induction steps with
  | nil => exact fun here same => same ▸ here
  | cons step rest ih => exact fun here walked => ih (closed _ here step walked.1) walked.2

theorem Walk.unique {other : V} : ∀ {source : V},
    Walk next source steps target → Walk next source steps other → target = other := by
  induction steps with
  | nil => exact fun first second => first.symm.trans second
  | cons step rest ih => exact fun first second => ih first.2 second.2

theorem walks_zero : walks next source 0 target = { steps | steps = [] ∧ source = target } := by
  ext steps
  cases steps <;> simp [walks, Walk]

def through (next : V → List V) (source : V) (length : Nat) (vertices : List V) (target : V) :
    Set (List V) :=
  { steps | ∃ middle ∈ vertices, ∃ before ∈ walks next source length middle,
      steps = before ++ [target] }

theorem mem_walks_succ :
    steps ∈ walks next source (length + 1) target ↔
      ∃ middle, target ∈ next middle ∧ ∃ before ∈ walks next source length middle,
        steps = before ++ [target] := by
  constructor
  · intro walked
    obtain ⟨long, walked⟩ := walked
    have some_ : steps ≠ [] := by
      intro none
      rw [none] at long
      simp at long
    have parts := List.dropLast_append_getLast some_
    rw [← parts, walk_concat] at walked
    obtain ⟨last, middle, before, listed⟩ := walked
    rw [last] at parts
    have short : steps.dropLast.length = length := by
      rw [List.length_dropLast, long, Nat.add_sub_cancel]
    exact ⟨middle, listed, steps.dropLast, ⟨short, before⟩, parts.symm⟩
  · intro walked
    obtain ⟨middle, listed, before, ⟨short, walked⟩, same⟩ := walked
    rw [same]
    exact ⟨by simp [short], walk_concat.mpr ⟨rfl, middle, walked, listed⟩⟩

theorem walks_succ_nonempty :
    (walks next source (length + 1) target).Nonempty ↔
      ∃ middle, (walks next source length middle).Nonempty ∧ target ∈ next middle := by
  constructor
  · intro some_
    obtain ⟨steps, walked⟩ := some_
    obtain ⟨middle, listed, before, walked, _⟩ := mem_walks_succ.mp walked
    exact ⟨middle, ⟨before, walked⟩, listed⟩
  · intro some_
    obtain ⟨middle, ⟨before, walked⟩, listed⟩ := some_
    exact ⟨before ++ [target], mem_walks_succ.mpr ⟨middle, listed, before, walked, rfl⟩⟩

/-! ## Distances -/

theorem at_zero : At next source 0 target ↔ source = target := by
  unfold At
  rw [walks_zero]
  constructor
  · intro nearest
    obtain ⟨⟨_, _, same⟩, _⟩ := nearest
    exact same
  · intro same
    exact ⟨⟨[], rfl, same⟩, fun less short => absurd short (Nat.not_lt_zero less)⟩

theorem At.unique {other : Nat} (first : At next source length target)
    (second : At next source other target) : length = other := by
  rcases Nat.lt_trichotomy length other with less | same | more
  · exact absurd first.1 (second.2 length less)
  · exact same
  · exact absurd second.1 (first.2 other more)

theorem exists_at_of_walk (walked : (walks next source length target).Nonempty) :
    ∃ nearest ≤ length, At next source nearest target := by
  induction length using Nat.strong_induction_on with
  | h length ih =>
    by_cases shorter : ∃ less < length, (walks next source less target).Nonempty
    · obtain ⟨less, short, found⟩ := shorter
      obtain ⟨nearest, bound, near⟩ := ih less short found
      exact ⟨nearest, bound.trans (Nat.le_of_lt short), near⟩
    · refine ⟨length, Nat.le_refl _, walked, fun less short found => ?_⟩
      exact shorter ⟨less, short, found⟩

theorem At.of_next (nearest : At next source (length + 1) target)
    (walked : (walks next source length vertex).Nonempty) (listed : target ∈ next vertex) :
    At next source length vertex := by
  refine ⟨walked, fun less short found => ?_⟩
  have nearer := walks_succ_nonempty.mpr ⟨vertex, found, listed⟩
  exact nearest.2 (less + 1) (Nat.succ_lt_succ short) nearer

theorem At.next_cases (near : At next source length vertex) (listed : target ∈ next vertex) :
    At next source (length + 1) target ∨ ∃ less ≤ length, At next source less target := by
  have walked := walks_succ_nonempty.mpr ⟨vertex, near.1, listed⟩
  obtain ⟨nearest, bound, found⟩ := exists_at_of_walk walked
  rcases Nat.lt_or_eq_of_le bound with less | same
  · exact .inr ⟨nearest, Nat.le_of_lt_succ less, found⟩
  · exact .inl (same ▸ found)

theorem At.prior (nearest : At next source (length + 1) target) :
    ∃ vertex, At next source length vertex ∧ target ∈ next vertex := by
  obtain ⟨vertex, walked, listed⟩ := walks_succ_nonempty.mp nearest.1
  exact ⟨vertex, nearest.of_next walked listed, listed⟩

/-- No farther than a level. -/
def Near (next : V → List V) (source : V) (length : Nat) (vertex : V) : Prop :=
  ∃ distance ≤ length, At next source distance vertex

theorem near_succ : Near next source (length + 1) target ↔
    Near next source length target ∨ At next source (length + 1) target := by
  constructor
  · intro near
    obtain ⟨distance, bound, nearest⟩ := near
    rcases Nat.lt_or_eq_of_le bound with less | same
    · exact .inl ⟨distance, Nat.le_of_lt_succ less, nearest⟩
    · exact .inr (same ▸ nearest)
  · intro either
    rcases either with ⟨distance, bound, nearest⟩ | nearest
    · exact ⟨distance, Nat.le_succ_of_le bound, nearest⟩
    · exact ⟨length + 1, Nat.le_refl _, nearest⟩

theorem not_near_of_at (nearest : At next source (length + 1) target) :
    ¬Near next source length target := by
  intro near
  obtain ⟨distance, bound, nearer⟩ := near
  have same := nearer.unique nearest
  omega

theorem at_succ : At next source (length + 1) target ↔
    (∃ vertex, At next source length vertex ∧ target ∈ next vertex) ∧
      ¬Near next source length target := by
  constructor
  · exact fun nearest => ⟨nearest.prior, not_near_of_at nearest⟩
  · intro both
    obtain ⟨⟨vertex, near, listed⟩, far⟩ := both
    exact (near.next_cases listed).resolve_right far

theorem at_congr {next' : V → List V}
    (same : ∀ distance < length, ∀ vertex, At next source distance vertex →
      ∀ other, other ∈ next' vertex ↔ other ∈ next vertex) :
    ∀ distance ≤ length, ∀ vertex, At next' source distance vertex ↔ At next source distance vertex := by
  intro distance
  induction distance using Nat.strong_induction_on with
  | h distance ih =>
    intro bound vertex
    cases distance with
    | zero => rw [at_zero, at_zero]
    | succ distance =>
      have near : Near next' source distance vertex ↔ Near next source distance vertex := by
        constructor
        · intro near
          obtain ⟨less, short, nearest⟩ := near
          exact ⟨less, short, (ih less (by omega) (by omega) vertex).mp nearest⟩
        · intro near
          obtain ⟨less, short, nearest⟩ := near
          exact ⟨less, short, (ih less (by omega) (by omega) vertex).mpr nearest⟩
      have level := fun vertex => ih distance (Nat.lt_succ_self _) (by omega) vertex
      rw [at_succ, at_succ, near]
      refine and_congr_left fun _ => exists_congr fun before => ?_
      rw [level]
      exact and_congr_right fun nearest => same distance bound before nearest vertex

theorem near_congr {next' : V → List V}
    (same : ∀ distance < length, ∀ vertex, At next source distance vertex →
      ∀ other, other ∈ next' vertex ↔ other ∈ next vertex) {distance : Nat}
    (bound : distance ≤ length) (vertex : V) :
    Near next' source distance vertex ↔ Near next source distance vertex := by
  unfold Near
  refine exists_congr fun less => and_congr_right fun short => ?_
  exact at_congr same less (short.trans bound) vertex

/-! ## Counting -/

theorem finite_of_length : ∀ {source : V},
    { steps | steps.length = length ∧ ∃ target, Walk next source steps target }.Finite := by
  induction length with
  | zero =>
    intro source
    refine (Set.finite_singleton []).subset fun steps found => ?_
    exact List.eq_nil_of_length_eq_zero found.1
  | succ length ih =>
    intro source
    have branches := (List.finite_toSet (next source)).biUnion fun step _ =>
      (@ih step).image (step :: ·)
    refine branches.subset fun steps found => ?_
    obtain ⟨long, target, walked⟩ := found
    cases steps with
    | nil => simp at long
    | cons step rest =>
      obtain ⟨listed, walked⟩ := walked
      refine Set.mem_biUnion listed ⟨rest, ⟨?_, target, walked⟩, rfl⟩
      simpa using long

theorem walks_finite : (walks next source length target).Finite :=
  finite_of_length.subset fun _ walked => ⟨walked.1, target, walked.2⟩

@[simp] theorem count_self : count next source 0 source = 1 := by
  have one : walks next source 0 source = {[]} := by
    rw [walks_zero]
    ext steps
    simp
  unfold count
  rw [one, Set.ncard_singleton]

theorem through_cons {vertices : List V} :
    through next source length (vertex :: vertices) target =
      (· ++ [target]) '' walks next source length vertex ∪
        through next source length vertices target := by
  ext steps
  simp only [through, Set.mem_ofPred_eq, List.mem_cons, Set.mem_union, Set.mem_image]
  constructor
  · intro found
    obtain ⟨middle, here | later, before, walked, same⟩ := found
    · exact .inl ⟨before, here ▸ walked, same.symm⟩
    · exact .inr ⟨middle, later, before, walked, same⟩
  · intro found
    rcases found with ⟨before, walked, same⟩ | ⟨middle, later, before, walked, same⟩
    · exact ⟨vertex, .inl rfl, before, walked, same.symm⟩
    · exact ⟨middle, .inr later, before, walked, same⟩

theorem ncard_through {vertices : List V} (distinct : vertices.Nodup) :
    (through next source length vertices target).Finite ∧
      (through next source length vertices target).ncard =
        (vertices.map (count next source length)).sum := by
  induction vertices with
  | nil =>
    have none : through next source length [] target = ∅ := by
      ext steps
      simp [through]
    rw [none]
    exact ⟨Set.finite_empty, by simp⟩
  | cons vertex rest ih =>
    obtain ⟨absent, distinct⟩ := List.nodup_cons.mp distinct
    obtain ⟨finite, counted⟩ := ih distinct
    have injective : Function.Injective (fun steps : List V => steps ++ [target]) :=
      fun first second same => List.append_cancel_right same
    have here := (@walks_finite V next source vertex length).image (· ++ [target])
    have apart : Disjoint ((· ++ [target]) '' walks next source length vertex)
        (through next source length rest target) := by
      rw [Set.disjoint_left]
      intro steps first second
      obtain ⟨before, walked, same⟩ := first
      obtain ⟨middle, listed, other, also, same'⟩ := second
      have equal := List.append_cancel_right (same.trans same')
      have one : vertex = middle := walked.2.unique (equal ▸ also.2)
      exact absent (one ▸ listed)
    rw [through_cons]
    refine ⟨here.union finite, ?_⟩
    rw [Set.ncard_union_eq apart here finite, counted, Set.ncard_image_of_injective _ injective]
    simp [count]

/-! ## Names -/

section Names

variable {W : Type u} {name : V → W} {listed : W → List W} {known : V → Prop}

/-- What leads to what under other names. -/
structure Renames (next : V → List V) (listed : W → List W) (name : V → W) (known : V → Prop) :
    Prop where
  injective : ∀ first second, known first → known second → name first = name second →
    first = second
  closed : ∀ vertex, known vertex → ∀ other ∈ next vertex, known other
  next : ∀ vertex, known vertex → listed (name vertex) = (next vertex).map name

theorem Renames.walk (renames : Renames next listed name known) {steps : List W} {last : W} :
    ∀ {source : V}, known source → (Walk listed (name source) steps last ↔
      ∃ before target, known target ∧ Walk next source before target ∧
        steps = before.map name ∧ last = name target) := by
  induction steps with
  | nil =>
    intro source here
    constructor
    · intro same
      exact ⟨[], source, here, rfl, rfl, same.symm⟩
    · intro found
      obtain ⟨before, target, _, walked, same, last⟩ := found
      have none := List.map_eq_nil_iff.mp same.symm
      rw [none] at walked
      exact (congrArg name walked).trans last.symm
  | cons step rest ih =>
    intro source here
    constructor
    · intro walked
      obtain ⟨member, walked⟩ := walked
      rw [renames.next source here] at member
      obtain ⟨vertex, member, same⟩ := List.mem_map.mp member
      have inside := renames.closed source here vertex member
      rw [← same] at walked
      obtain ⟨before, target, ended, walked, steps, last⟩ := (ih inside).mp walked
      exact ⟨vertex :: before, target, ended, ⟨member, walked⟩, by rw [steps, ← same]; rfl, last⟩
    · intro found
      obtain ⟨before, target, ended, walked, same, last⟩ := found
      cases before with
      | nil => contradiction
      | cons vertex before =>
        obtain ⟨member, walked⟩ := walked
        have inside := renames.closed source here vertex member
        obtain ⟨first, others⟩ := List.cons.inj same
        refine ⟨?_, ?_⟩
        · rw [renames.next source here, first]
          exact List.mem_map_of_mem member
        · rw [first]
          exact (ih inside).mpr ⟨before, target, ended, walked, others, last⟩

theorem Renames.walk_known (renames : Renames next listed name known) {steps : List V} :
    ∀ {source : V}, known source → Walk next source steps target → ∀ step ∈ steps, known step := by
  induction steps with
  | nil => exact fun _ _ _ absurd => (nomatch absurd)
  | cons step rest ih =>
    intro source here walked other member
    have inside := renames.closed source here step walked.1
    rcases List.mem_cons.mp member with same | later
    · exact same ▸ inside
    · exact ih inside walked.2 other later

theorem Renames.map_injective (renames : Renames next listed name known) {first : List V} :
    ∀ {second : List V}, (∀ vertex ∈ first, known vertex) → (∀ vertex ∈ second, known vertex) →
      first.map name = second.map name → first = second := by
  induction first with
  | nil => exact fun _ _ same => (List.map_eq_nil_iff.mp same.symm).symm
  | cons vertex first ih =>
    intro second left right same
    cases second with
    | nil => contradiction
    | cons other second =>
      obtain ⟨here, rest⟩ := List.cons.inj same
      obtain ⟨left, lefts⟩ := List.forall_mem_cons.mp left
      obtain ⟨right, rights⟩ := List.forall_mem_cons.mp right
      rw [renames.injective vertex other left right here, ih lefts rights rest]

theorem Renames.walks (renames : Renames next listed name known) (here : known source)
    (there : known target) :
    walks listed (name source) length (name target) =
      List.map name '' walks next source length target := by
  ext steps
  simp only [Traverse.walks, Set.mem_ofPred_eq, renames.walk here, Set.mem_image]
  constructor
  · intro found
    obtain ⟨long, before, other, inside, walked, same, last⟩ := found
    have same_ := renames.injective target other there inside last
    refine ⟨before, ⟨?_, same_ ▸ walked⟩, same.symm⟩
    rw [← long, same, List.length_map]
  · intro found
    obtain ⟨before, ⟨long, walked⟩, same⟩ := found
    exact ⟨by rw [← same, List.length_map, long], before, target, there, walked, same.symm, rfl⟩

theorem Renames.count (renames : Renames next listed name known) (here : known source)
    (there : known target) :
    count listed (name source) length (name target) = count next source length target := by
  unfold Traverse.count
  rw [renames.walks here there]
  refine Set.InjOn.ncard_image fun first walked second also same => ?_
  exact renames.map_injective (renames.walk_known here walked.2) (renames.walk_known here also.2) same

theorem Renames.at (renames : Renames next listed name known) (here : known source)
    (there : known target) :
    At listed (name source) length (name target) ↔ At next source length target := by
  unfold At
  simp only [renames.walks here there, Set.image_nonempty]

theorem Renames.known_of_walk (renames : Renames next listed name known) (here : known source)
    {last : W} (walked : (Traverse.walks listed (name source) length last).Nonempty) :
    ∃ target, known target ∧ last = name target := by
  obtain ⟨steps, _, walked⟩ := walked
  obtain ⟨_, target, inside, _, _, same⟩ := (renames.walk here).mp walked
  exact ⟨target, inside, same⟩

end Names

variable [DecidableEq V]

theorem At.count_succ {level : List V} (nearest : At next source (length + 1) target)
    (distinct : level.Nodup) (whole : ∀ vertex, vertex ∈ level ↔ At next source length vertex) :
    count next source (length + 1) target =
      ((level.filter (target ∈ next ·)).map (count next source length)).sum := by
  have all : walks next source (length + 1) target =
      through next source length (level.filter (target ∈ next ·)) target := by
    ext steps
    rw [mem_walks_succ]
    simp only [through, Set.mem_ofPred_eq, List.mem_filter, decide_eq_true_eq, whole]
    constructor
    · intro found
      obtain ⟨middle, listed, before, walked, same⟩ := found
      exact ⟨middle, ⟨nearest.of_next ⟨before, walked⟩ listed, listed⟩, before, walked, same⟩
    · intro found
      obtain ⟨middle, ⟨_, listed⟩, before, walked, same⟩ := found
      exact ⟨middle, listed, before, walked, same⟩
  unfold count
  rw [all]
  exact (ncard_through (distinct.filter _)).2

end NostrWot.Traverse
