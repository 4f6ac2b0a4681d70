import NostrWot.Async.Safety

namespace NostrWot.Async

/-! # Disciplines

The common case of a contract: an invariant that every move keeps, an order on
states that every move goes up in, and what a call can keep to itself.  A fact
that the order keeps survives any suspension; one that the others spare survives
the suspensions of its owner.
-/

variable {I : Interface} {S : System I} {α β : Type}

structure Discipline (S : System I) where
  opens : State S → Prop := fun _ => True
  starts : Nat → S.Operation → Prop
  sound : State S → Prop
  /-- How the state may change over time. -/
  later : State S → State S → Prop
  refl : ∀ state, later state state
  trans : ∀ first second third, later first second → later second third → later first third
  /-- How the state may change while a call is suspended. -/
  spares : Nat → State S → State S → Prop := fun _ _ _ => True
  spares_refl : ∀ self state, spares self state state := by intros; trivial
  spares_trans : ∀ self first second third, spares self first second →
    spares self second third → spares self first third := by intros; trivial
  may : Call S → List (Entry S) → I.Request → State S → Prop
  delivers : Call S → List (Entry S) → Entry S → State S → Prop

namespace Discipline

variable {D : Discipline S} {call : Call S}

/-- A move of the call `mover`, and what it leaves the others. -/
structure Moves (D : Discipline S) (mover : Nat) (before after : State S) : Prop where
  later : D.later before after
  spares : ∀ other, other ≠ mover → D.spares other before after

/-- What happens while the call `sleeper` is suspended. -/
structure Waits (D : Discipline S) (sleeper : Nat) (before after : State S) : Prop where
  later : D.later before after
  spares : D.spares sleeper before after

theorem Moves.refl (self : Nat) (state : State S) : D.Moves self state state :=
  ⟨D.refl state, fun other _ => D.spares_refl other state⟩

theorem Moves.trans {self : Nat} {first second third : State S} (left : D.Moves self first second)
    (right : D.Moves self second third) : D.Moves self first third :=
  ⟨D.trans _ _ _ left.later right.later, fun other different =>
    D.spares_trans _ _ _ _ (left.spares other different) (right.spares other different)⟩

def contract (D : Discipline S) : Contract S where
  starts := D.starts
  moves := fun actor before after => D.sound before → D.sound after ∧ D.later before after ∧
    ∀ self, actor ≠ some self → D.spares self before after
  may := fun call log request now => D.sound now ∧ D.may call log request now
  delivers := D.delivers

theorem moved {self : Nat} {before after : State S} (sound : D.sound after)
    (moves : D.Moves self before after) : D.contract.moves (some self) before after :=
  fun _ => ⟨sound, moves.later, fun other different =>
    moves.spares other fun same => different (congrArg some same.symm)⟩

theorem since {before after : State S} (since : D.contract.Since before after)
    (sound : D.sound before) : D.sound after ∧ D.later before after := by
  induction since with
  | refl => exact ⟨sound, D.refl before⟩
  | tail _ moved ih =>
    obtain ⟨actor, moved⟩ := moved
    obtain ⟨sound', later, -⟩ := moved ih.1
    exact ⟨sound', D.trans _ _ _ ih.2 later⟩

theorem rely {self : Nat} {before after : State S} (relied : D.contract.Rely self before after)
    (sound : D.sound before) : D.sound after ∧ D.Waits self before after := by
  induction relied with
  | refl => exact ⟨sound, D.refl before, D.spares_refl self before⟩
  | tail _ moved ih =>
    obtain ⟨actor, other, moved⟩ := moved
    obtain ⟨sound', later, spares⟩ := moved ih.1
    exact ⟨sound', D.trans _ _ _ ih.2.later later,
      D.spares_trans _ _ _ _ ih.2.spares (spares self other)⟩

/-- From a sound state where `pre` holds, `program` keeps the discipline, and a
value it returns satisfies `post`. -/
def Spec (D : Discipline S) (call : Call S) (pre : List (Entry S) → State S → Prop)
    (program : Program I α) (post : List (Entry S) → State S → α → Prop) : Prop :=
  ∀ log since now, D.sound now → D.Moves call.self since now → D.later call.born now →
    pre log now →
    program.wp D.contract call (fun log' since' now' outcome =>
      D.sound now' ∧ D.Moves call.self since' now' ∧ D.later now now' ∧ log <+: log' ∧
      ∀ value, outcome = .ok value → post log' now' value) log since now

namespace Spec

variable {pre : List (Entry S) → State S → Prop}

variable {program : Program I α} {post : List (Entry S) → State S → α → Prop}

theorem weaken {stronger : List (Entry S) → State S → Prop}
    {weaker : List (Entry S) → State S → α → Prop} (spec : D.Spec call pre program post)
    (before : ∀ log now, D.sound now → D.later call.born now → stronger log now → pre log now)
    (after : ∀ log now value, D.sound now → post log now value → weaker log now value) :
    D.Spec call stronger program weaker := by
  intro log since now sound later born held
  refine Program.wp_mono ?_ (spec log since now sound later born (before log now sound born held))
  rintro log' since' now' outcome ⟨sound', later', kept, extends', done⟩
  exact ⟨sound', later', kept, extends', fun value same => after _ _ _ sound' (done value same)⟩

theorem known {fact : Prop} (holds : ∀ log now, pre log now → fact)
    (rest : fact → D.Spec call pre program post) :
    D.Spec call pre program post :=
  fun log since now sound later born held =>
    rest (holds log now held) log since now sound later born held

theorem among {ι : Type} (found : ι → List (Entry S) → State S → Prop)
    (holds : ∀ log now, pre log now → ∃ value, found value log now)
    (rest : ∀ value, D.Spec call (found value) program post) : D.Spec call pre program post := by
  intro log since now sound later born held
  obtain ⟨value, present⟩ := holds log now held
  exact rest value log since now sound later born present

theorem pure {value : α}
    (done : ∀ log now, D.sound now → D.later call.born now → pre log now → post log now value) :
    D.Spec call pre (Pure.pure value) post := by
  intro log since now sound later born held
  refine ⟨sound, later, D.refl now, List.prefix_rfl, ?_⟩
  rintro _ ⟨rfl⟩
  exact done log now sound born held

theorem throw {fault : I.Fault} :
    D.Spec call pre (Program.throw fault) post := by
  intro log since now sound later _ _
  exact ⟨sound, later, D.refl now, List.prefix_rfl, by simp⟩

theorem read {view : I.Memory → α}
    (done : ∀ log now, D.sound now → D.later call.born now → pre log now →
      post log now (view now.memory)) :
    D.Spec call pre (Program.read view) post := by
  intro log since now sound later born held
  refine ⟨sound, later, D.refl now, List.prefix_rfl, ?_⟩
  rintro _ ⟨rfl⟩
  exact done log now sound born held

theorem modify {post : List (Entry S) → State S → Unit → Prop} {change : I.Memory → I.Memory}
    (keeps : ∀ log now, D.sound now → D.later call.born now → pre log now →
      D.sound { now with memory := change now.memory } ∧
      D.Moves call.self now { now with memory := change now.memory } ∧
      post log { now with memory := change now.memory } ()) :
    D.Spec call pre (Program.modify change) post := by
  intro log since now sound later born held
  obtain ⟨sound', kept, done⟩ := keeps log now sound born held
  exact ⟨sound', later.trans kept, kept.later, List.prefix_rfl, fun _ _ => done⟩

theorem bind {next : α → Program I β} {post : List (Entry S) → State S → β → Prop}
    (mid : List (Entry S) → State S → α → Prop) (first : D.Spec call pre program mid)
    (rest : ∀ log now, pre log now → ∀ value, D.Spec call
      (fun log' now' => D.later now now' ∧ log <+: log' ∧ mid log' now' value) (next value) post) :
    D.Spec call pre (program >>= next) post := by
  intro log since now sound later born held
  refine Program.wp_bind (Program.wp_mono ?_ (first log since now sound later born held))
  rintro log' since' now' outcome ⟨sound', later', kept, extends', done⟩
  cases outcome with
  | error fault => exact ⟨sound', later', kept, extends', by simp⟩
  | ok value =>
    have continued := rest log now held value log' since' now' sound' later'
      (D.trans _ _ _ born kept) ⟨kept, extends', done value rfl⟩
    refine Program.wp_mono ?_ continued
    rintro log'' since'' now'' outcome ⟨sound'', later'', kept', extends'', done'⟩
    exact ⟨sound'', later'', D.trans _ _ _ kept kept', extends'.trans extends'', done'⟩

theorem finallyDo {cleanup : I.Memory → I.Memory} (mid : List (Entry S) → State S → α → Prop)
    (first : D.Spec call pre program mid)
    (keeps : ∀ now, D.sound now → D.sound { now with memory := cleanup now.memory } ∧
      D.Moves call.self now { now with memory := cleanup now.memory })
    (done : ∀ log now value, D.sound now → mid log now value →
      post log { now with memory := cleanup now.memory } value) :
    D.Spec call pre (program.finallyDo cleanup) post := by
  intro log since now sound later born held
  refine Program.wp_finallyDo (Program.wp_mono ?_ (first log since now sound later born held))
  rintro log' since' now' outcome ⟨sound', later', kept, extends', finished⟩
  obtain ⟨sound'', cleaned⟩ := keeps now' sound'
  exact ⟨sound'', later'.trans cleaned, D.trans _ _ _ kept cleaned.later, extends',
    fun value same => done _ _ _ sound' (finished value same)⟩

/-- What a request must be shown to do: it may be issued, it lands soundly, and
its answer is received soundly. -/
theorem request {request : I.Request} {post : List (Entry S) → State S → I.Reply request → Prop}
    (permitted : ∀ log now, D.sound now → D.later call.born now → pre log now →
      D.may call log request now)
    (served : ∀ log now earlier choice answer memory world, pre log now →
      D.Waits call.self now earlier → D.sound earlier →
      S.serve request choice earlier.memory earlier.world = some (answer, memory, world) →
      D.sound ⟨memory, world⟩ ∧ D.Moves call.self earlier ⟨memory, world⟩)
    (received : ∀ log now earlier choice answer taken final, pre log now →
      D.Waits call.self now earlier → D.sound earlier →
      S.serve request choice earlier.memory earlier.world =
        some (answer, taken.memory, taken.world) →
      D.sound taken → D.Waits call.self taken final → D.sound final → D.later call.born final →
      D.delivers call log ⟨request, answer, taken⟩ final →
      D.sound (final.acknowledged ⟨request, answer, taken⟩) ∧
      D.Moves call.self final (final.acknowledged ⟨request, answer, taken⟩) ∧
      ∀ value, answer = .ok value → post (log ++ [⟨request, answer, taken⟩])
        (final.acknowledged ⟨request, answer, taken⟩) value) :
    D.Spec call pre (Program.call request) post := by
  intro log since now sound later born held
  refine ⟨⟨sound, permitted log now sound born held⟩, moved sound later, ?_⟩
  intro earlier relied choice answer memory world answered
  obtain ⟨soundEarlier, toEarlier⟩ := rely relied sound
  obtain ⟨soundTaken, toTaken⟩ :=
    served log now earlier choice answer memory world held toEarlier soundEarlier answered
  refine ⟨moved soundTaken toTaken, fun final relied' delivered => ?_⟩
  obtain ⟨soundFinal, toFinal⟩ := rely relied' soundTaken
  have reached : D.later now final :=
    D.trans _ _ _ (D.trans _ _ _ toEarlier.later toTaken.later) toFinal.later
  obtain ⟨sound', later', done⟩ := received log now earlier choice answer ⟨memory, world⟩ final
    held toEarlier soundEarlier answered soundTaken toFinal soundFinal
    (D.trans _ _ _ born reached) delivered
  exact ⟨sound', later', D.trans _ _ _ reached later'.later, List.prefix_append _ _, done⟩

/-- A program that only changes the memory harmlessly and only issues harmless
requests keeps the discipline. -/
theorem of_uses {allowed : I.Request → Prop} (uses : program.Uses allowed)
    (remembers : ∀ now (memory : I.Memory), D.sound now →
      D.sound { now with memory } ∧ D.Moves call.self now { now with memory })
    (requests : ∀ request, allowed request →
      D.Spec call (fun _ _ => True) (Program.call request) fun _ _ _ => True) :
    D.Spec call pre program fun _ _ _ => True := by
  intro log since now sound later born held
  clear held
  induction program generalizing log since now with
  | finish outcome => exact ⟨sound, later, D.refl now, List.prefix_rfl, fun _ _ => trivial⟩
  | access change resume ih =>
    obtain ⟨sound', kept⟩ := remembers now (change now.memory) sound
    have continued := ih now.memory (uses now.memory) log since _ sound'
      (later.trans kept) (D.trans _ _ _ born kept.later)
    refine Program.wp_mono ?_ continued
    intro log' since' now' outcome ⟨sound'', later', kept', extends', done⟩
    exact ⟨sound'', later', D.trans _ _ _ kept.later kept', extends', done⟩
  | await request resume ih =>
    obtain ⟨permitted, moved, continues⟩ :=
      requests request uses.1 log since now sound later born trivial
    refine ⟨permitted, moved, fun earlier relied choice answer memory world served => ?_⟩
    obtain ⟨landed, resumes⟩ := continues earlier relied choice answer memory world served
    refine ⟨landed, fun final settled delivered => ?_⟩
    obtain ⟨sound', later', kept, extends', -⟩ := resumes final settled delivered
    refine Program.wp_mono ?_
      (ih answer (uses.2 answer) _ final _ sound' later' (D.trans _ _ _ born kept))
    intro log'' since'' now'' outcome ⟨sound'', later'', kept', extends'', done⟩
    exact ⟨sound'', later'', D.trans _ _ _ kept kept', extends'.trans extends'', done⟩

end Spec

/-- A method that meets its specification under the discipline, called in a
sound state in which nobody has touched what the call can keep to itself. -/
def Method (D : Discipline S) (done : Call S → List (Entry S) → State S → S.Result → Prop) : Prop :=
  ∀ call : Call S, D.starts call.self call.operation → D.sound call.born →
    (∃ first, D.opens first ∧ D.spares call.self first call.born) →
    D.Spec call (fun log now => log = [] ∧ now = call.born) (S.method call.self call.operation)
      (done call)

/-- Between any two moves: a sound state, and what later calls keep to themselves
as it was in `first`. -/
structure Between (D : Discipline S) (first : State S) (started : Nat) (state : State S) : Prop where
  opens : D.opens first
  sound : D.sound state
  spared : ∀ self, started ≤ self → D.spares self first state

/-- What is known of a run of a discipline that began in `first`. -/
def Kept (D : Discipline S) (done : Call S → List (Entry S) → State S → S.Result → Prop)
    (first : State S) (config : Config S) : Prop :=
  config.Holds D.contract (D.Between first) fun call log now outcome =>
    D.sound now ∧ D.later call.born now ∧ ∀ value, outcome = .ok value → done call log now value

section Runs

variable {done : Call S → List (Entry S) → State S → S.Result → Prop}
  {allowed : Config S → Move S → Prop} {first : State S} {initial config : Config S}

theorem keeps (D : Discipline S) (first : State S) : D.contract.Keeps (D.Between first) where
  moved started actor before after among moved between := by
    obtain ⟨sound, later, spares⟩ := moved between.sound
    refine ⟨between.opens, sound, fun self fresh => ?_⟩
    have other : actor ≠ some self := fun same => absurd (among self same) (Nat.not_lt.mpr fresh)
    exact D.spares_trans _ _ _ _ (between.spared self fresh) (spares self other)
  started started state between :=
    ⟨between.opens, between.sound, fun self fresh => between.spared self (Nat.le_of_succ_le fresh)⟩

theorem Between.start {state : State S} (opens : D.opens state) (sound : D.sound state)
    (started : Nat) : D.Between state started state :=
  ⟨opens, sound, fun self _ => D.spares_refl self state⟩

theorem Kept.idle (opens : D.opens initial.state) (sound : D.sound initial.state)
    (idle : initial.processes = []) : D.Kept done initial.state initial :=
  ⟨.start opens sound _, by simp [idle]⟩

theorem Kept.resume (opens : D.opens config.state) (sound : D.sound config.state)
    (may : ∀ call log request, D.may call log request config.state)
    (settled : ∀ self process, config.processes[self]? = some process →
      ∃ outcome, process.status = .settled outcome ∧ D.later process.born config.state ∧
        ∀ value, outcome = .ok value →
          done ⟨self, process.operation, process.born⟩ process.log config.state value) :
    D.Kept done config.state config := by
  refine ⟨.start opens sound _, fun self process found => ?_⟩
  obtain ⟨outcome, status, later, finished⟩ := settled self process found
  refine ⟨fun before request _ => ⟨config.state, .refl _, sound, may _ _ _⟩, ?_⟩
  rw [status]
  exact ⟨config.state, .refl _, sound, later, finished⟩

theorem Kept.reaches (methods : D.Method done) (kept : D.Kept done first initial)
    (permits : ∀ config move, allowed config move → config.Admits D.contract move)
    (reaches : Config.Reaches allowed initial config) :
    D.Kept done first config ∧ D.later initial.state config.state := by
  have performed : ∀ self operation now, D.contract.starts self operation →
      D.Between first self now →
      (S.method self operation).wp D.contract ⟨self, operation, now⟩ (fun log since last outcome =>
        D.contract.moves (some self) since last ∧ D.sound last ∧ D.later now last ∧
          ∀ value, outcome = .ok value → done ⟨self, operation, now⟩ log last value) [] now now := by
    intro self operation now started between
    refine Program.wp_mono ?_
      (methods ⟨self, operation, now⟩ started between.sound
        ⟨first, between.opens, between.spared self (Nat.le_refl self)⟩ [] now now between.sound
        (.refl self now) (D.refl now) ⟨rfl, rfl⟩)
    intro log since now' outcome ⟨sound', later, fromBorn, _, finished⟩
    exact ⟨moved sound' later, sound', fromBorn, finished⟩
  obtain ⟨holds, moved⟩ :=
    Config.Reaches.holds (D.keeps first) performed permits kept reaches
  exact ⟨holds, (since moved kept.invariant.sound).2⟩

theorem Kept.settled {self : Nat} {process : Process S} {value : S.Result}
    (kept : D.Kept done first config) (found : config.processes[self]? = some process)
    (settled : process.status = .settled (.ok value)) :
    ∃ last, D.later process.born last ∧ D.later last config.state ∧
      done ⟨self, process.operation, process.born⟩ process.log last value := by
  have stands := (kept.processes self process found).stands
  rw [settled] at stands
  obtain ⟨last, since, sound, later, finished⟩ := stands
  exact ⟨last, later, (rely since sound).2.later, finished value rfl⟩

theorem Kept.asked {self : Nat} {process : Process S} {before : List (Entry S)}
    {request : I.Request} (kept : D.Kept done first config)
    (found : config.processes[self]? = some process) (asked : process.Asked before request) :
    ∃ issuing, D.sound issuing ∧ D.later issuing config.state ∧
      D.may ⟨self, process.operation, process.born⟩ before request issuing := by
  obtain ⟨issuing, since, sound, permitted⟩ :=
    (kept.processes self process found).issued before request asked
  exact ⟨issuing, sound, (Discipline.since since sound).2, permitted⟩

end Runs

end Discipline

end NostrWot.Async
