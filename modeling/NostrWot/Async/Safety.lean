import NostrWot.Async.System
import Mathlib.Logic.Relation

namespace NostrWot.Async

/-! # Safety under interference

`Program.wp` is the weakest precondition of one call when anything the contract
lets the other calls do can happen while it is suspended.  `Reaches.holds`
turns proofs about single calls into facts about every interleaving.
-/

variable {I : Interface} {S : System I} {α β : Type}

structure Call (S : System I) where
  self : Nat
  operation : S.Operation
  born : State S

/-- What calls rely on each other for, and what they owe. -/
structure Contract (S : System I) where
  starts : Nat → S.Operation → Prop
  /-- What one move of a call, or of the world by itself, does to the state. -/
  moves : Option Nat → State S → State S → Prop
  /-- When a call may issue a request. -/
  may : Call S → List (Entry S) → I.Request → State S → Prop
  /-- When an answer is handed back. -/
  delivers : Call S → List (Entry S) → Entry S → State S → Prop

namespace Contract

/-- What can happen while the call `self` is suspended. -/
def Rely (C : Contract S) (self : Nat) : State S → State S → Prop :=
  Relation.ReflTransGen fun before after => ∃ actor, actor ≠ some self ∧ C.moves actor before after

variable {C : Contract S}

theorem Rely.refl {self : Nat} (state : State S) : C.Rely self state state :=
  Relation.ReflTransGen.refl

theorem Rely.trans {self : Nat} {first second third : State S} (left : C.Rely self first second)
    (right : C.Rely self second third) :
    C.Rely self first third :=
  Relation.ReflTransGen.trans left right

theorem Rely.single {self : Nat} {actor : Option Nat} {before after : State S}
    (other : actor ≠ some self) (moved : C.moves actor before after) :
    C.Rely self before after :=
  Relation.ReflTransGen.single ⟨actor, other, moved⟩

/-- What can happen between any two moments. -/
def Since (C : Contract S) : State S → State S → Prop :=
  Relation.ReflTransGen fun before after => ∃ actor, C.moves actor before after

theorem Since.refl (state : State S) : C.Since state state :=
  Relation.ReflTransGen.refl

theorem Since.trans {first second third : State S} (left : C.Since first second)
    (right : C.Since second third) : C.Since first third :=
  Relation.ReflTransGen.trans left right

theorem Since.single {actor : Option Nat} {before after : State S}
    (moved : C.moves actor before after) : C.Since before after :=
  Relation.ReflTransGen.single ⟨actor, moved⟩

theorem Rely.since {self : Nat} {before after : State S} (relied : C.Rely self before after) :
    C.Since before after :=
  relied.lift id fun _ _ ⟨actor, _, moved⟩ => ⟨actor, moved⟩

end Contract

namespace Program

/-- What must hold for `program` to keep the contract from here on and to end
in `post`.  `since` is the state the move under way started in. -/
def wp (C : Contract S) (call : Call S)
    (post : List (Entry S) → State S → State S → Except I.Fault α → Prop) :
    Program I α → List (Entry S) → State S → State S → Prop
  | .finish outcome, log, since, now => post log since now outcome
  | .access change resume, log, since, now =>
    (resume now.memory).wp C call post log since { now with memory := change now.memory }
  | .await request resume, log, since, now =>
    C.may call log request now ∧ C.moves (some call.self) since now ∧
    ∀ later, C.Rely call.self now later → ∀ choice answer memory world,
      S.serve request choice later.memory later.world = some (answer, memory, world) →
      C.moves (some call.self) later ⟨memory, world⟩ ∧
      ∀ final, C.Rely call.self ⟨memory, world⟩ final →
        C.delivers call log ⟨request, answer, ⟨memory, world⟩⟩ final →
        (resume answer).wp C call post (log ++ [⟨request, answer, ⟨memory, world⟩⟩]) final
          (final.acknowledged ⟨request, answer, ⟨memory, world⟩⟩)

section Rules

variable {C : Contract S} {call : Call S}
  {post : List (Entry S) → State S → State S → Except I.Fault β → Prop}
  {log : List (Entry S)} {since now : State S}

theorem wp_mono {program : Program I α}
    {strong weak : List (Entry S) → State S → State S → Except I.Fault α → Prop}
    (implies : ∀ log since now outcome, strong log since now outcome → weak log since now outcome)
    (holds : program.wp C call strong log since now) : program.wp C call weak log since now := by
  induction program generalizing log since now with
  | finish outcome => exact implies _ _ _ _ holds
  | access change resume ih => exact ih now.memory holds
  | await request resume ih =>
    obtain ⟨permitted, moved, continues⟩ := holds
    refine ⟨permitted, moved, fun later relied choice answer memory world served => ?_⟩
    obtain ⟨landed, resumes⟩ := continues later relied choice answer memory world served
    exact ⟨landed, fun final settled delivered => ih answer (resumes final settled delivered)⟩

theorem wp_bind {program : Program I α} {next : α → Program I β}
    (holds : program.wp C call (fun log since now outcome =>
      match outcome with
      | .ok value => (next value).wp C call post log since now
      | .error fault => post log since now (.error fault)) log since now) :
    (program >>= next).wp C call post log since now := by
  induction program generalizing log since now with
  | finish outcome =>
    cases outcome with
    | error fault => exact holds
    | ok value => exact holds
  | access change resume ih => exact ih now.memory holds
  | await request resume ih =>
    obtain ⟨permitted, moved, continues⟩ := holds
    refine ⟨permitted, moved, fun later relied choice answer memory world served => ?_⟩
    obtain ⟨landed, resumes⟩ := continues later relied choice answer memory world served
    exact ⟨landed, fun final settled delivered => ih answer (resumes final settled delivered)⟩

theorem wp_finallyDo {program : Program I β} {cleanup : I.Memory → I.Memory}
    (holds : program.wp C call (fun log since now outcome =>
      post log since { now with memory := cleanup now.memory } outcome) log since now) :
    (program.finallyDo cleanup).wp C call post log since now := by
  induction program generalizing log since now with
  | finish outcome => exact holds
  | access change resume ih => exact ih now.memory holds
  | await request resume ih =>
    obtain ⟨permitted, moved, continues⟩ := holds
    refine ⟨permitted, moved, fun later relied choice answer memory world served => ?_⟩
    obtain ⟨landed, resumes⟩ := continues later relied choice answer memory world served
    exact ⟨landed, fun final settled delivered => ih answer (resumes final settled delivered)⟩

end Rules

end Program

/-- The call has asked for `request`, after the answers in `before`. -/
def Process.Asked (process : Process S) (before : List (Entry S)) (request : I.Request) : Prop :=
  (∃ entry after, process.log = before ++ entry :: after ∧ entry.request = request) ∨
    process.log = before ∧
      ((∃ resume, process.status = .waiting request resume) ∨
        ∃ entry resume, process.status = .answered entry resume ∧ entry.request = request)

/-- A call of the contract, where it stands: everything it has asked for it
might ask for, and whatever happens next it goes on keeping the contract. -/
structure Process.Holds (C : Contract S)
    (done : Call S → List (Entry S) → State S → Except I.Fault S.Result → Prop) (index : Nat)
    (state : State S) (process : Process S) : Prop where
  issued : ∀ before request, process.Asked before request →
    ∃ issuing, C.Since issuing state ∧
      C.may ⟨index, process.operation, process.born⟩ before request issuing
  stands :
    match process.status with
    | .settled outcome => ∃ last, C.Rely index last state ∧
        done ⟨index, process.operation, process.born⟩ process.log last outcome
    | .waiting request resume =>
      ∀ later, C.Rely index state later → ∀ choice answer memory world,
        S.serve request choice later.memory later.world = some (answer, memory, world) →
        C.moves (some index) later ⟨memory, world⟩ ∧
        ∀ final, C.Rely index ⟨memory, world⟩ final →
          C.delivers ⟨index, process.operation, process.born⟩ process.log
            ⟨request, answer, ⟨memory, world⟩⟩ final →
          (resume answer).wp C ⟨index, process.operation, process.born⟩
            (fun log since now outcome => C.moves (some index) since now ∧
              done ⟨index, process.operation, process.born⟩ log now outcome)
            (process.log ++ [⟨request, answer, ⟨memory, world⟩⟩]) final
            (final.acknowledged ⟨request, answer, ⟨memory, world⟩⟩)
    | .answered entry resume =>
      ∀ final, C.Rely index state final →
        C.delivers ⟨index, process.operation, process.born⟩ process.log entry final →
        (resume entry.answer).wp C ⟨index, process.operation, process.born⟩
          (fun log since now outcome => C.moves (some index) since now ∧
            done ⟨index, process.operation, process.born⟩ log now outcome)
          (process.log ++ [entry]) final (final.acknowledged entry)

namespace Config

/-- The moves the contract speaks about. -/
def Admits (C : Contract S) (config : Config S) : Move S → Prop
  | .start operation => C.starts config.processes.length operation
  | .serve _ _ => True
  | .deliver self => ∀ operation born log entry resume,
      config.processes[self]? = some ⟨operation, born, log, .answered entry resume⟩ →
      C.delivers ⟨self, operation, born⟩ log entry config.state
  | .event event => ∀ memory world,
      S.occur event config.state.memory config.state.world = some (memory, world) →
      C.moves none config.state ⟨memory, world⟩

end Config

/-- `inv n` holds while `n` calls have been started. -/
structure Contract.Keeps (C : Contract S) (inv : Nat → State S → Prop) : Prop where
  moved : ∀ started actor before after, (∀ self, actor = some self → self < started) →
    C.moves actor before after → inv started before → inv started after
  started : ∀ started state, inv started state → inv (started + 1) state

section Adequacy

variable {C : Contract S} {inv : Nat → State S → Prop}
  {done : Call S → List (Entry S) → State S → Except I.Fault S.Result → Prop}

theorem Program.wp_advance {program : Program I S.Result} {self : Nat} {operation : S.Operation}
    {born since now : State S} {log : List (Entry S)}
    (issued : ∀ before entry after, log = before ++ entry :: after →
      ∃ issuing, C.Since issuing since ∧ C.may ⟨self, operation, born⟩ before entry.request issuing)
    (holds : program.wp C ⟨self, operation, born⟩ (fun log since now outcome =>
      C.moves (some self) since now ∧ done ⟨self, operation, born⟩ log now outcome)
      log since now) :
    C.moves (some self) since { now with memory := (program.advance S now.memory).1 } ∧
    Process.Holds C done self { now with memory := (program.advance S now.memory).1 }
      ⟨operation, born, log, (program.advance S now.memory).2⟩ := by
  induction program generalizing now with
  | finish outcome =>
    refine ⟨holds.1, ?_, now, .refl _, holds.2⟩
    rintro before request (⟨entry, after, split, rfl⟩ | ⟨-, ⟨_, status⟩ | ⟨_, _, status, -⟩⟩)
    · obtain ⟨issuing, earlier, permitted⟩ := issued before entry after split
      exact ⟨issuing, earlier.trans (.single holds.1), permitted⟩
    · cases status
    · cases status
  | access change resume ih => exact ih now.memory holds
  | await request resume ih =>
    obtain ⟨permitted, moved, continues⟩ := holds
    refine ⟨moved, ?_, continues⟩
    rintro before asked (⟨entry, after, split, rfl⟩ | ⟨same, ⟨_, status⟩ | ⟨_, _, status, -⟩⟩)
    · obtain ⟨issuing, earlier, permitted⟩ := issued before entry after split
      exact ⟨issuing, earlier.trans (.single moved), permitted⟩
    · cases status
      cases same
      exact ⟨now, .refl _, permitted⟩
    · cases status

theorem Process.Holds.rely {self : Nat} {before after : State S} {process : Process S}
    (holds : Process.Holds C done self before process) (relied : C.Rely self before after) :
    Process.Holds C done self after process := by
  obtain ⟨operation, born, log, status⟩ := process
  obtain ⟨issued, stands⟩ := holds
  refine ⟨fun prior request asked => ?_, ?_⟩
  · obtain ⟨issuing, earlier, permitted⟩ := issued prior request asked
    exact ⟨issuing, earlier.trans relied.since, permitted⟩
  · cases status with
    | settled outcome =>
      obtain ⟨last, since, settled⟩ := stands
      exact ⟨last, since.trans relied, settled⟩
    | waiting request resume =>
      exact fun later further => stands later (relied.trans further)
    | answered entry resume =>
      exact fun final further => stands final (relied.trans further)

structure Config.Holds (C : Contract S) (inv : Nat → State S → Prop)
    (done : Call S → List (Entry S) → State S → Except I.Fault S.Result → Prop)
    (config : Config S) : Prop where
  invariant : inv config.processes.length config.state
  processes : ∀ (self : Nat) (process : Process S), config.processes[self]? = some process →
    process.Holds C done self config.state

theorem Config.Holds.replaced {config : Config S} {self : Nat} {process : Process S}
    {state : State S} (holds : config.Holds C inv done) (keeps : C.Keeps inv)
    (present : self < config.processes.length)
    (moved : C.moves (some self) config.state state)
    (own : process.Holds C done self state) :
    Config.Holds C inv done ⟨state, config.processes.set self process⟩ := by
  refine ⟨?_, fun other found present' => ?_⟩
  · simp only [List.length_set]
    refine keeps.moved _ (some self) _ _ ?_ moved holds.invariant
    intro actor same
    cases same
    exact present
  · by_cases same : self = other
    · subst same
      simp only [List.getElem?_set_self present, Option.some.injEq] at present'
      subst present'
      exact own
    · simp only [ne_eq, same, not_false_eq_true, List.getElem?_set_ne] at present'
      refine (holds.processes other found present').rely (.single ?_ moved)
      simpa using same

theorem Config.Holds.step {config next : Config S} {move : Move S} (keeps : C.Keeps inv)
    (methods : ∀ self operation now, C.starts self operation → inv self now →
      (S.method self operation).wp C ⟨self, operation, now⟩ (fun log since last outcome =>
        C.moves (some self) since last ∧ done ⟨self, operation, now⟩ log last outcome) [] now now)
    (holds : config.Holds C inv done) (admitted : config.Admits C move)
    (stepped : config.step move = some next) :
    next.Holds C inv done ∧ C.Since config.state next.state := by
  cases move with
  | start operation =>
    cases stepped
    obtain ⟨moved, own⟩ := Program.wp_advance (by simp)
      (methods config.processes.length operation config.state admitted holds.invariant)
    refine ⟨⟨?_, fun other found present => ?_⟩, .single moved⟩
    · simp only [Config.start, List.length_append, List.length_singleton]
      refine keeps.moved _ (some config.processes.length) _ _ ?_ moved
        (keeps.started _ _ holds.invariant)
      intro actor same
      cases same
      exact Nat.lt_succ_self _
    · simp only [Config.start] at present ⊢
      rcases Nat.lt_trichotomy other config.processes.length with earlier | same | later
      · rw [List.getElem?_append_left earlier] at present
        refine (holds.processes other found present).rely (.single ?_ moved)
        simp only [ne_eq, Option.some.injEq]
        omega
      · subst same
        simp only [List.getElem?_append_right (Nat.le_refl _), Nat.sub_self,
          List.getElem?_cons_zero, Option.some.injEq] at present
        subst present
        exact own
      · rw [List.getElem?_append_right (by omega), List.getElem?_eq_none (by simp; omega)]
          at present
        contradiction
  | serve self choice =>
    obtain ⟨operation, born, log, request, resume, answer, memory, world, found, served, rfl⟩ :=
      Config.serve_inv stepped
    obtain ⟨issued, continues⟩ := holds.processes self _ found
    obtain ⟨moved, resumes⟩ :=
      continues config.state (.refl _) choice answer memory world served
    refine ⟨holds.replaced keeps (List.getElem?_eq_some_iff.mp found).1 moved ⟨?_, resumes⟩,
      .single moved⟩
    rintro before asked (logged | ⟨same, ⟨_, status⟩ | ⟨_, _, status, rfl⟩⟩)
    · obtain ⟨issuing, earlier, permitted⟩ := issued before asked (.inl logged)
      exact ⟨issuing, earlier.trans (.single moved), permitted⟩
    · cases status
    · cases status
      obtain ⟨issuing, earlier, permitted⟩ := issued before request (.inr ⟨same, .inl ⟨_, rfl⟩⟩)
      exact ⟨issuing, earlier.trans (.single moved), permitted⟩
  | deliver self =>
    obtain ⟨operation, born, log, entry, resume, found, rfl⟩ := Config.deliver_inv stepped
    obtain ⟨issued, resumes⟩ := holds.processes self _ found
    have continued := resumes config.state (.refl _) (admitted _ _ _ _ _ found)
    obtain ⟨moved, own⟩ := Program.wp_advance (by
      intro before asked after split
      rcases List.eq_nil_or_concat after with rfl | ⟨rest, final, rfl⟩
      · obtain ⟨rfl, same⟩ := List.append_inj' split rfl
        cases same
        exact issued _ _ (.inr ⟨rfl, .inr ⟨_, _, rfl, rfl⟩⟩)
      · have split : log ++ [entry] = (before ++ asked :: rest) ++ [final] := by
          simpa using split
        obtain ⟨rfl, -⟩ := List.append_inj' split rfl
        exact issued _ _ (.inl ⟨_, _, rfl, rfl⟩)) continued
    exact ⟨holds.replaced keeps (List.getElem?_eq_some_iff.mp found).1 moved own, .single moved⟩
  | event event =>
    obtain ⟨memory, world, occurred, rfl⟩ := Config.event_inv stepped
    have moved := admitted memory world occurred
    exact ⟨⟨keeps.moved _ none _ _ (by simp) moved holds.invariant,
      fun other found present => (holds.processes other found present).rely
        (.single (by simp) moved)⟩, .single moved⟩

theorem Config.Reaches.holds {allowed : Config S → Move S → Prop} {initial config : Config S}
    (keeps : C.Keeps inv)
    (methods : ∀ self operation now, C.starts self operation → inv self now →
      (S.method self operation).wp C ⟨self, operation, now⟩ (fun log since last outcome =>
        C.moves (some self) since last ∧ done ⟨self, operation, now⟩ log last outcome) [] now now)
    (permits : ∀ config move, allowed config move → config.Admits C move)
    (initially : initial.Holds C inv done) (reaches : Config.Reaches allowed initial config) :
    config.Holds C inv done ∧ C.Since initial.state config.state := by
  induction reaches with
  | refl => exact ⟨initially, .refl _⟩
  | step move _ permitted stepped ih =>
    obtain ⟨holds, since⟩ := ih
    obtain ⟨holds, moved⟩ := holds.step keeps methods (permits _ _ permitted) stepped
    exact ⟨holds, since.trans moved⟩

end Adequacy

end NostrWot.Async
