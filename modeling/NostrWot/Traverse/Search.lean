import NostrWot.Traverse.Walks
import Mathlib.Algebra.BigOperators.Group.List.Basic
import Mathlib.Data.Finset.Card
import Mathlib.Logic.Function.Basic

namespace NostrWot.Traverse

/-! # Breadth-first search

The search finds each vertex within a limit once, and adds up its shortest walks to a cap.
-/

universe u

variable {V : Type u} [DecidableEq V]

/-- `hops` is one more than a distance, or zero where nothing is found; `queue` is to be visited. -/
structure Search (V : Type u) where
  hops : V → Nat
  paths : V → Nat
  queue : List V

namespace Search

def begin_ (source : V) : Search V where
  hops := Function.update (fun _ => 0) source 1
  paths := Function.update (fun _ => 0) source 1
  queue := [source]

/-- One of those that `vertex` leads to. -/
def follow (cap stored : Nat) (vertex : V) (search : Search V) (other : V) : Search V :=
  let found := if search.hops other = 0 then
      { search with
        hops := Function.update search.hops other stored
        queue := search.queue ++ [other] }
    else search
  if found.hops other = stored then
    { found with
      paths := Function.update found.paths other
        (min cap (found.paths other + found.paths vertex)) }
  else found

def visit (next : V → List V) (cap limit : Nat) (search : Search V) (vertex : V) : Search V :=
  let distance := search.hops vertex - 1
  if limit ≤ distance then search
  else (next vertex).foldl (follow cap (distance + 2) vertex) search

def run (next : V → List V) (cap limit : Nat) : Nat → Search V → Search V
  | 0, search => search
  | fuel + 1, search =>
    match search.queue with
    | [] => search
    | vertex :: rest => run next cap limit fuel (visit next cap limit { search with queue := rest } vertex)

/-! ## One level -/

/-- The walks that the edges seen so far add to a vertex. -/
noncomputable def credit (next : V → List V) (source : V) (level : Nat) (edges : List (V × V))
    (vertex : V) : Nat :=
  ((edges.filter fun edge => edge.2 = vertex).map fun edge => count next source level edge.1).sum

/-- Some of the edges from a level are seen, and `rest` of it is to be visited. -/
structure Scanned (next : V → List V) (source : V) (cap level : Nat) (edges : List (V × V))
    (rest found : List V) (search : Search V) : Prop where
  queue : search.queue = rest ++ found
  distinct : found.Nodup
  mem_found : ∀ vertex, vertex ∈ found ↔
    ¬Near next source level vertex ∧ ∃ edge ∈ edges, edge.2 = vertex
  near : ∀ vertex distance, distance ≤ level →
    (search.hops vertex = distance + 1 ↔ At next source distance vertex)
  far : ∀ vertex, search.hops vertex = level + 2 ↔ vertex ∈ found
  bound : ∀ vertex, search.hops vertex ≤ level + 2
  settled : ∀ vertex distance, distance ≤ level → At next source distance vertex →
    search.paths vertex = min cap (count next source distance vertex)
  credited : ∀ vertex, ¬Near next source level vertex →
    search.paths vertex = min cap (credit next source level edges vertex)

variable {next : V → List V} {source : V} {cap limit level : Nat} {edges : List (V × V)}
  {rest found : List V} {search : Search V}

theorem Scanned.near_iff (scanned : Scanned next source cap level edges rest found search)
    (vertex : V) : Near next source level vertex ↔
      search.hops vertex ≠ 0 ∧ search.hops vertex ≠ level + 2 := by
  constructor
  · intro near
    obtain ⟨distance, bound, nearest⟩ := near
    have held := (scanned.near vertex distance bound).mpr nearest
    omega
  · intro held
    have bound := scanned.bound vertex
    refine ⟨search.hops vertex - 1, by omega, ?_⟩
    exact (scanned.near vertex _ (by omega)).mp (by omega)

theorem credit_append (edge : V × V) (vertex : V) :
    credit next source level (edges ++ [edge]) vertex =
      credit next source level edges vertex +
        if edge.2 = vertex then count next source level edge.1 else 0 := by
  unfold credit
  rw [List.filter_append, List.map_append, List.sum_append]
  split
  · rename_i here
    simp [here]
  · rename_i apart
    simp [apart]

theorem Scanned.seen {edge : V × V}
    (scanned : Scanned next source cap level edges rest found search)
    (near : Near next source level edge.2) :
    Scanned next source cap level (edges ++ [edge]) rest found search where
  queue := scanned.queue
  distinct := scanned.distinct
  mem_found vertex := by
    rw [scanned.mem_found]
    refine and_congr_right fun far => ?_
    have apart : edge.2 ≠ vertex := fun same => far (same ▸ near)
    simp [apart]
  near := scanned.near
  far := scanned.far
  bound := scanned.bound
  settled := scanned.settled
  credited vertex far := by
    have apart : edge.2 ≠ vertex := fun same => far (same ▸ near)
    rw [credit_append, if_neg apart]
    exact scanned.credited vertex far

theorem Scanned.finds (scanned : Scanned next source cap level edges rest found search)
    (edge : V × V) {found' : List V}
    (here : At next source level edge.1) (far : ¬Near next source level edge.2)
    (distinct : found'.Nodup) (grown : ∀ vertex, vertex ∈ found' ↔ vertex ∈ found ∨ vertex = edge.2) :
    Scanned next source cap level (edges ++ [edge]) rest found'
      { hops := Function.update search.hops edge.2 (level + 2)
        paths := Function.update search.paths edge.2
          (min cap (search.paths edge.2 + search.paths edge.1))
        queue := rest ++ found' } where
  queue := rfl
  distinct := distinct
  mem_found vertex := by
    rw [grown, scanned.mem_found]
    by_cases same : vertex = edge.2
    · subst same
      simp [far]
    · simp [same, Ne.symm same]
  near vertex distance bound := by
    by_cases same : vertex = edge.2
    · have none : ¬At next source distance edge.2 := fun nearest => far ⟨distance, bound, nearest⟩
      have apart : level + 2 ≠ distance + 1 := by omega
      simp [same, none, apart]
    · simp only [Function.update_of_ne same]
      exact scanned.near vertex distance bound
  far vertex := by
    by_cases same : vertex = edge.2
    · simp [same, grown]
    · simp only [Function.update_of_ne same, grown, same, or_false]
      exact scanned.far vertex
  bound vertex := by
    by_cases same : vertex = edge.2
    · simp [same]
    · simp only [Function.update_of_ne same]
      exact scanned.bound vertex
  settled vertex distance bound nearest := by
    have same : vertex ≠ edge.2 := fun same => far (same ▸ ⟨distance, bound, nearest⟩)
    simp only [Function.update_of_ne same]
    exact scanned.settled vertex distance bound nearest
  credited vertex apart := by
    rw [credit_append]
    by_cases same : vertex = edge.2
    · subst same
      have before := scanned.credited _ far
      have one := scanned.settled _ level (Nat.le_refl _) here
      simp only [Function.update_self, if_pos]
      omega
    · simp only [Function.update_of_ne same, if_neg (Ne.symm same), Nat.add_zero]
      exact scanned.credited vertex apart

variable {vertex : V}

theorem Scanned.follow {other : V} (scanned : Scanned next source cap level edges rest found search)
    (here : At next source level vertex) :
    ∃ found, Scanned next source cap level (edges ++ [(vertex, other)]) rest found
      (search.follow cap (level + 2) vertex other) := by
  unfold Search.follow
  by_cases near : Near next source level other
  · obtain ⟨held, apart⟩ := (scanned.near_iff other).mp near
    simp only [if_neg held, if_neg apart]
    exact ⟨found, scanned.seen near⟩
  · have unseen : search.hops other = 0 ∨ search.hops other = level + 2 := by
      have none := mt (scanned.near_iff other).mpr near
      omega
    rcases unseen with new | old
    · have absent : other ∉ found := fun member => by
        have held := (scanned.far other).mpr member
        omega
      have distinct : (found ++ [other]).Nodup :=
        List.concat_eq_append ▸ List.Nodup.concat absent scanned.distinct
      have found' := scanned.finds (vertex, other) here near distinct fun vertex => by simp
      refine ⟨found ++ [other], ?_⟩
      simpa [new, scanned.queue] using found'
    · have member := (scanned.far other).mp old
      refine ⟨found, ?_⟩
      have grown : ∀ vertex, vertex ∈ found ↔ vertex ∈ found ∨ vertex = other := fun vertex =>
        (or_iff_left_of_imp fun same => same ▸ member).symm
      have found' := scanned.finds (vertex, other) here near scanned.distinct grown
      have same : Function.update search.hops other (level + 2) = search.hops := by
        rw [← old, Function.update_eq_self]
      rw [same, ← scanned.queue] at found'
      have some_ : search.hops other ≠ 0 := by omega
      simpa [some_, old] using found'

theorem Scanned.follows (others : List V) :
    ∀ {edges : List (V × V)} {found : List V} {search : Search V},
      Scanned next source cap level edges rest found search → At next source level vertex →
        ∃ found, Scanned next source cap level (edges ++ others.map (vertex, ·)) rest found
          (others.foldl (Search.follow cap (level + 2) vertex) search) := by
  induction others with
  | nil =>
    intro edges found search scanned _
    exact ⟨found, by simpa using scanned⟩
  | cons other others ih =>
    intro edges found search scanned here
    obtain ⟨found, one⟩ := scanned.follow here
    obtain ⟨found, all⟩ := ih one here
    exact ⟨found, by simpa using all⟩

def fan (next : V → List V) (vertex : V) : List (V × V) := (next vertex).map (vertex, ·)

theorem Scanned.visit (scanned : Scanned next source cap level edges (vertex :: rest) found search)
    (here : At next source level vertex) (within : level < limit) :
    ∃ found', Scanned next source cap level (edges ++ fan next vertex) rest found'
      (visit next cap limit { search with queue := rest ++ found } vertex) := by
  have popped : Scanned next source cap level edges rest found
      { search with queue := rest ++ found } :=
    { scanned with queue := rfl }
  have hops := (scanned.near vertex level (Nat.le_refl _)).mpr here
  unfold Search.visit
  simp only [hops, Nat.add_sub_cancel, if_neg (Nat.not_le.mpr within)]
  exact popped.follows (next vertex) here

theorem Scanned.run (fuel : Nat) (within : level < limit) :
    ∀ {edges : List (V × V)} {found : List V} {search : Search V},
      Scanned next source cap level edges rest found search →
      (∀ vertex ∈ rest, At next source level vertex) →
        ∃ found search', Scanned next source cap level (edges ++ rest.flatMap (fan next)) [] found
            search' ∧
          search.run next cap limit (rest.length + fuel) = search'.run next cap limit fuel := by
  induction rest with
  | nil =>
    intro edges found search scanned _
    refine ⟨found, search, by simpa using scanned, ?_⟩
    rw [List.length_nil, Nat.zero_add]
  | cons vertex rest ih =>
    intro edges found search scanned here
    obtain ⟨first, others⟩ := List.forall_mem_cons.mp here
    obtain ⟨found', visited⟩ := scanned.visit first within
    obtain ⟨last, search', whole, same⟩ := ih visited others
    refine ⟨last, search', by simpa using whole, ?_⟩
    rw [← same, List.length_cons, Nat.add_right_comm, Search.run, scanned.queue]
    rfl

/-! ## From level to level -/

/-- All of a level is found and is to be visited. -/
structure Level (next : V → List V) (source : V) (cap level : Nat) (search : Search V) : Prop where
  distinct : search.queue.Nodup
  mem_queue : ∀ vertex, vertex ∈ search.queue ↔ At next source level vertex
  near : ∀ vertex distance, distance ≤ level →
    (search.hops vertex = distance + 1 ↔ At next source distance vertex)
  settled : ∀ vertex distance, distance ≤ level → At next source distance vertex →
    search.paths vertex = min cap (count next source distance vertex)
  unfound : ∀ vertex, ¬Near next source level vertex →
    search.hops vertex = 0 ∧ search.paths vertex = 0

theorem Level.scanned (found : Level next source cap level search) :
    Scanned next source cap level [] search.queue [] search where
  queue := (List.append_nil _).symm
  distinct := List.nodup_nil
  mem_found vertex := by simp
  near := found.near
  far vertex := by
    refine iff_of_false (fun held => ?_) (List.not_mem_nil)
    by_cases near : Near next source level vertex
    · obtain ⟨distance, bound, nearest⟩ := near
      have hops := (found.near vertex distance bound).mpr nearest
      omega
    · have none := (found.unfound vertex near).1
      omega
  bound vertex := by
    by_cases near : Near next source level vertex
    · obtain ⟨distance, bound, nearest⟩ := near
      have hops := (found.near vertex distance bound).mpr nearest
      omega
    · have none := (found.unfound vertex near).1
      omega
  settled := found.settled
  credited vertex far := by
    rw [(found.unfound vertex far).2]
    simp [credit]

theorem credit_fan {other : V} (distinct : (next vertex).Nodup) :
    credit next source level (fan next vertex) other =
      if other ∈ next vertex then count next source level vertex else 0 := by
  unfold fan credit
  generalize next vertex = others at distinct
  induction others with
  | nil => simp
  | cons first others ih =>
    obtain ⟨absent, distinct⟩ := List.nodup_cons.mp distinct
    have ih := ih distinct
    by_cases same : first = other
    · subst same
      rw [if_neg absent] at ih
      simp [ih]
    · simpa [same, Ne.symm same] using ih

variable {vertices : List V}

theorem credit_level (distinct : ∀ vertex, (next vertex).Nodup) :
    credit next source level (vertices.flatMap (fan next)) vertex =
      ((vertices.filter (vertex ∈ next ·)).map (count next source level)).sum := by
  induction vertices with
  | nil => simp [credit]
  | cons first vertices ih =>
    have parts : credit next source level (fan next first ++ vertices.flatMap (fan next)) vertex =
        credit next source level (fan next first) vertex +
          credit next source level (vertices.flatMap (fan next)) vertex := by
      simp [credit]
    rw [List.flatMap_cons, parts, ih, credit_fan (distinct first)]
    by_cases member : vertex ∈ next first <;> simp [member]

omit [DecidableEq V] in
theorem mem_fans {edge : V × V} :
    edge ∈ vertices.flatMap (fan next) ↔ edge.1 ∈ vertices ∧ edge.2 ∈ next edge.1 := by
  obtain ⟨vertex, other⟩ := edge
  simp [fan]

theorem Scanned.completes (distinct : ∀ vertex, (next vertex).Nodup) (once : vertices.Nodup)
    (whole : ∀ vertex, vertex ∈ vertices ↔ At next source level vertex)
    (scanned : Scanned next source cap level (vertices.flatMap (fan next)) [] found search) :
    Level next source cap (level + 1) search := by
  have queue : search.queue = found := scanned.queue
  have mem_found : ∀ vertex, vertex ∈ found ↔ At next source (level + 1) vertex := by
    intro vertex
    rw [scanned.mem_found]
    constructor
    · intro both
      obtain ⟨far, edge, member, same⟩ := both
      obtain ⟨first, listed⟩ := mem_fans.mp member
      rw [same] at listed
      exact (((whole _).mp first).next_cases listed).resolve_right far
    · intro nearest
      obtain ⟨before, near, listed⟩ := nearest.prior
      exact ⟨not_near_of_at nearest, (before, vertex),
        mem_fans.mpr ⟨(whole before).mpr near, listed⟩, rfl⟩
  refine ⟨queue ▸ scanned.distinct, queue ▸ mem_found, fun vertex distance bound => ?_,
    fun vertex distance bound nearest => ?_, fun vertex far => ?_⟩
  · rcases Nat.lt_or_eq_of_le bound with less | same
    · exact scanned.near vertex distance (Nat.le_of_lt_succ less)
    · rw [same, ← mem_found]
      exact scanned.far vertex
  · rcases Nat.lt_or_eq_of_le bound with less | same
    · exact scanned.settled vertex distance (Nat.le_of_lt_succ less) nearest
    · rw [same] at nearest ⊢
      rw [scanned.credited vertex (not_near_of_at nearest), credit_level distinct,
        nearest.count_succ once whole]
  · obtain ⟨far, not⟩ := not_or.mp (mt near_succ.mpr far)
    have absent : vertex ∉ found := mt (mem_found vertex).mp not
    refine ⟨?_, ?_⟩
    · have apart := mt (scanned.far vertex).mp absent
      have unseen := mt (scanned.near_iff vertex).mpr far
      omega
    · have none : (vertices.flatMap (fan next)).filter (fun edge => edge.2 = vertex) = [] := by
        rw [List.filter_eq_nil_iff]
        intro edge member same
        exact absent ((scanned.mem_found vertex).mpr ⟨far, edge, member, by simpa using same⟩)
      rw [scanned.credited vertex far]
      unfold credit
      rw [none]
      simp

/-! ## All levels -/

omit [DecidableEq V] in
theorem no_farther (none : ∀ vertex, ¬At next source level vertex) {farther : Nat}
    (more : level ≤ farther) : ∀ vertex, ¬At next source farther vertex := by
  induction farther, more using Nat.le_induction with
  | base => exact none
  | succ farther _ ih =>
    intro vertex nearest
    obtain ⟨before, near, _⟩ := nearest.prior
    exact ih before near

structure Spans (next : V → List V) (source : V) (cap limit : Nat) (search : Search V) : Prop where
  hops : ∀ vertex distance,
    search.hops vertex = distance + 1 ↔ At next source distance vertex ∧ distance ≤ limit
  paths : ∀ vertex distance, distance ≤ limit → At next source distance vertex →
    search.paths vertex = min cap (count next source distance vertex)

omit [DecidableEq V] in
theorem Level.hops (found : Level next source cap level search) {distance : Nat} :
    search.hops vertex = distance + 1 ↔ At next source distance vertex ∧ distance ≤ level := by
  constructor
  · intro held
    by_cases near : Near next source level vertex
    · obtain ⟨nearest, bound, reached⟩ := near
      have hops := (found.near vertex nearest bound).mpr reached
      have same : nearest = distance := by omega
      exact same ▸ ⟨reached, bound⟩
    · have none := (found.unfound vertex near).1
      omega
  · intro both
    exact (found.near vertex distance both.2).mpr both.1

theorem run_limited (fuel : Nat) : ∀ {search : Search V},
    (∀ vertex ∈ search.queue, limit ≤ search.hops vertex - 1) →
      (search.run next cap limit fuel).hops = search.hops ∧
        (search.run next cap limit fuel).paths = search.paths := by
  induction fuel with
  | zero => exact fun _ => ⟨rfl, rfl⟩
  | succ fuel ih =>
    intro search far
    unfold Search.run
    split
    · exact ⟨rfl, rfl⟩
    · rename_i vertex rest queue
      rw [queue] at far
      obtain ⟨first, others⟩ := List.forall_mem_cons.mp far
      have skipped : visit next cap limit { search with queue := rest } vertex =
          { search with queue := rest } := by
        unfold Search.visit
        exact if_pos first
      rw [skipped]
      exact ih others

omit [DecidableEq V] in
theorem Spans.congr {other : Search V} (spans : Spans next source cap limit search)
    (hops : other.hops = search.hops) (paths : other.paths = search.paths) :
    Spans next source cap limit other := by
  refine ⟨fun vertex distance => ?_, fun vertex distance => ?_⟩
  · rw [hops]
    exact spans.hops vertex distance
  · rw [paths]
    exact spans.paths vertex distance

section Bounded

variable {vertices : Finset V}

open Classical in
/-- How many of the vertices are farther than a level. -/
noncomputable def farther (next : V → List V) (source : V) (vertices : Finset V) (level : Nat) :
    Nat :=
  (vertices.filter fun vertex => ¬Near next source level vertex).card

theorem farther_succ {found : List V} (distinct : found.Nodup)
    (mem_found : ∀ vertex, vertex ∈ found ↔ At next source (level + 1) vertex)
    (inside : ∀ vertex ∈ found, vertex ∈ vertices) :
    farther next source vertices level =
      found.length + farther next source vertices (level + 1) := by
  classical
  have apart : Disjoint found.toFinset
      (vertices.filter fun vertex => ¬Near next source (level + 1) vertex) := by
    rw [Finset.disjoint_left]
    intro vertex member far
    have nearest := (mem_found vertex).mp (List.mem_toFinset.mp member)
    exact (Finset.mem_filter.mp far).2 (near_succ.mpr (.inr nearest))
  have parts : (vertices.filter fun vertex => ¬Near next source level vertex) =
      found.toFinset ∪ vertices.filter fun vertex => ¬Near next source (level + 1) vertex := by
    ext vertex
    simp only [Finset.mem_filter, Finset.mem_union, List.mem_toFinset, near_succ, not_or]
    constructor
    · intro both
      by_cases member : vertex ∈ found
      · exact .inl member
      · exact .inr ⟨both.1, both.2, mt (mem_found vertex).mpr member⟩
    · intro either
      rcases either with member | both
      · exact ⟨inside vertex member, not_near_of_at ((mem_found vertex).mp member)⟩
      · exact ⟨both.1, both.2.1⟩
  have exact_ : farther next source vertices level =
      (vertices.filter fun vertex => ¬Near next source level vertex).card := by
    unfold farther
    congr
  have also : farther next source vertices (level + 1) =
      (vertices.filter fun vertex => ¬Near next source (level + 1) vertex).card := by
    unfold farther
    congr
  rw [exact_, also, parts, Finset.card_union_of_disjoint apart, List.toFinset_card_of_nodup distinct]

theorem Level.spans (distinct : ∀ vertex, (next vertex).Nodup)
    (inside : ∀ vertex distance, At next source distance vertex → vertex ∈ vertices) {fuel : Nat} :
    ∀ {level : Nat} {search : Search V}, Level next source cap level search → level ≤ limit →
      search.queue.length + farther next source vertices level ≤ fuel →
        Spans next source cap limit (search.run next cap limit fuel) := by
  induction fuel using Nat.strong_induction_on with
  | h fuel ih =>
    intro level search found within enough
    rcases Nat.lt_or_eq_of_le within with below | last
    · cases queue : search.queue with
      | nil =>
        have none : ∀ vertex, ¬At next source level vertex := by
          intro vertex nearest
          have member := (found.mem_queue vertex).mpr nearest
          rw [queue] at member
          contradiction
        have done : search.run next cap limit fuel = search := by
          cases fuel with
          | zero => rfl
          | succ fuel => simp only [Search.run, queue]
        rw [done]
        refine ⟨fun vertex distance => ?_, fun vertex distance _ nearest => ?_⟩
        · rw [found.hops]
          refine and_congr_right fun nearest => iff_of_true ?_ ?_
          all_goals
            have less : distance < level := by
              by_contra more
              exact no_farther none (Nat.not_lt.mp more) vertex nearest
            omega
        · have less : distance < level := by
            by_contra more
            exact no_farther none (Nat.not_lt.mp more) vertex nearest
          exact found.settled vertex distance (Nat.le_of_lt less) nearest
      | cons vertex rest =>
        have some_ : 0 < search.queue.length := by simp [queue]
        obtain ⟨next', search', scanned, same⟩ :=
          found.scanned.run (fuel - search.queue.length) below
            fun vertex member => (found.mem_queue vertex).mp member
        rw [List.nil_append] at scanned
        have level' := scanned.completes distinct found.distinct found.mem_queue
        have fewer := farther_succ level'.distinct level'.mem_queue
          fun vertex member => inside vertex _ ((level'.mem_queue vertex).mp member)
        have parts : fuel = search.queue.length + (fuel - search.queue.length) := by omega
        rw [parts, same]
        exact ih _ (by omega) level' below (by omega)
    · subst last
      have far : ∀ vertex ∈ search.queue, level ≤ search.hops vertex - 1 := by
        intro vertex member
        have nearest := (found.mem_queue vertex).mp member
        have held := (found.near vertex level (Nat.le_refl _)).mpr nearest
        omega
      obtain ⟨hops, paths⟩ := @run_limited _ _ next cap level fuel search far
      have spans : Spans next source cap level search :=
        ⟨fun vertex distance => found.hops, fun vertex distance bound nearest =>
          found.settled vertex distance bound nearest⟩
      exact spans.congr hops paths

theorem level_begin (positive : 0 < cap) : Level next source cap 0 (begin_ source) where
  distinct := List.nodup_singleton _
  mem_queue vertex := by
    rw [at_zero]
    simp [begin_, eq_comm]
  near vertex distance bound := by
    have zero : distance = 0 := by omega
    subst zero
    rw [at_zero]
    by_cases same : vertex = source
    · simp [begin_, same]
    · simp [begin_, same, Ne.symm same]
  settled vertex distance bound nearest := by
    have zero : distance = 0 := by omega
    subst zero
    rw [at_zero] at nearest
    subst nearest
    have one : min cap 1 = 1 := Nat.min_eq_right positive
    simp [begin_, one]
  unfound vertex far := by
    have apart : vertex ≠ source := fun same => far ⟨0, Nat.le_refl _, at_zero.mpr same.symm⟩
    simp [begin_, apart]

theorem run_spans (distinct : ∀ vertex, (next vertex).Nodup)
    (inside : ∀ vertex distance, At next source distance vertex → vertex ∈ vertices)
    (positive : 0 < cap) {fuel : Nat} (enough : vertices.card ≤ fuel) :
    Spans next source cap limit ((begin_ source).run next cap limit fuel) := by
  refine (level_begin positive).spans distinct inside (Nat.zero_le _) ?_
  have member := inside source 0 (at_zero.mpr rfl)
  have fewer : farther next source vertices 0 < vertices.card := by
    classical
    have proper : (vertices.filter fun vertex => ¬Near next source 0 vertex) ⊂ vertices := by
      refine Finset.filter_ssubset.mpr ⟨source, member, not_not.mpr ?_⟩
      exact ⟨0, Nat.le_refl _, at_zero.mpr rfl⟩
    have less := Finset.card_lt_card proper
    unfold farther
    convert less
  have one : (begin_ source).queue.length = 1 := rfl
  omega

end Bounded

end Search

end NostrWot.Traverse
