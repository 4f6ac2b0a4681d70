import Mathlib.Logic.Basic

namespace NostrWot.Sync

/-! # Synchronous actions

A synchronous method changes the object it is called on and may throw; what it
changed before it threw stays changed.
-/

/-- A method of an object whose state is `σ`. -/
def Act (σ ε α : Type) : Type := σ → Except ε α × σ

namespace Act

variable {σ ε α β : Type}

def bind (act : Act σ ε α) (next : α → Act σ ε β) : Act σ ε β := fun state =>
  match act state with
  | (.ok value, after) => next value after
  | (.error fault, after) => (.error fault, after)

instance : Monad (Act σ ε) where
  pure value := fun state => (.ok value, state)
  bind := bind

def get : Act σ ε σ := fun state => (.ok state, state)

def modify (change : σ → σ) : Act σ ε Unit := fun state => (.ok (), change state)

/-- A step that answers and changes, and does not throw. -/
def lift (step : σ → α × σ) : Act σ ε α := fun state => (.ok (step state).1, (step state).2)

def ofExcept (outcome : Except ε α) : Act σ ε α := fun state => (outcome, state)

/-- Throw unless `holds`. -/
def demand (holds : σ → Bool) (fault : ε) : Act σ ε Unit := fun state =>
  if holds state then (.ok (), state) else (.error fault, state)

variable {act : Act σ ε α}

theorem bind_ok {next : α → Act σ ε β} {state after : σ} {value : α}
    (ran : act state = (.ok value, after)) : (act >>= next) state = next value after := by
  show act.bind next state = _
  unfold bind
  rw [ran]

theorem bind_error {next : α → Act σ ε β} {state after : σ} {fault : ε}
    (ran : act state = (.error fault, after)) : (act >>= next) state = (.error fault, after) := by
  show act.bind next state = _
  unfold bind
  rw [ran]

theorem map_ok {change : α → β} {state after : σ} {value : α}
    (ran : act state = (.ok value, after)) : (change <$> act) state = (.ok (change value), after) :=
  show (act >>= fun value => pure (change value)) state = _ from bind_ok ran

theorem map_error {change : α → β} {state after : σ} {fault : ε}
    (ran : act state = (.error fault, after)) : (change <$> act) state = (.error fault, after) :=
  show (act >>= fun value => pure (change value)) state = _ from bind_error ran

/-! ## Running a sequence -/

section Running

variable (next : α → Act σ ε β) (state : σ)

@[simp] theorem pure_bind (value : α) : ((pure value : Act σ ε α) >>= next) state = next value state :=
  rfl

@[simp] theorem get_bind (next : σ → Act σ ε β) : (get >>= next) state = next state state := rfl

@[simp] theorem modify_bind (change : σ → σ) (next : Unit → Act σ ε β) :
    (modify change >>= next) state = next () (change state) := rfl

@[simp] theorem lift_bind (step : σ → α × σ) :
    (lift step >>= next) state = next (step state).1 (step state).2 := rfl

@[simp] theorem ofExcept_ok_bind (value : α) :
    (ofExcept (.ok value) >>= next) state = next value state := rfl

@[simp] theorem ofExcept_error_bind (fault : ε) :
    (ofExcept (.error fault : Except ε α) >>= next) state = (.error fault, state) := rfl

theorem demand_bind (holds : σ → Bool) (fault : ε) (next : Unit → Act σ ε β) :
    (demand holds fault >>= next) state =
      if holds state then next () state else (.error fault, state) := by
  show Act.bind (demand holds fault) next state = _
  unfold Act.bind demand
  cases holds state <;> rfl

@[simp] theorem modify_apply (change : σ → σ) (state : σ) :
    (modify change : Act σ ε Unit) state = (.ok (), change state) := rfl

end Running

end Act

end NostrWot.Sync
