import Timetable.Outcome

/-!
# Actions

An action works on a state, and may report events and end in a fault.

* A fault does not undo anything: the state that the action reached is kept beside the fault, with
  the events reported so far (`Action.bind_error`). Whether an action that ends in a fault leaves
  its state as it was is therefore a property of each action.
-/

namespace Timetable

/-- The end of an action: the state reached, an answer or a fault, and the events reported. -/
@[ext]
structure Step (σ α : Type) where
  state : σ
  result : Except Fault α
  events : List Event

/-- A computation on a state of type `σ` that answers with an `α`. -/
def Action (σ α : Type) := σ → Step σ α

namespace Action

variable {σ α β : Type}

/-- Answers, and leaves the state as it is. -/
protected def pure (a : α) : Action σ α := fun s => ⟨s, .ok a, []⟩

/-- Goes on from the state reached with the answer; a fault ends the action. -/
protected def bind (x : Action σ α) (f : α → Action σ β) : Action σ β := fun s =>
  match (x s).result with
  | .ok a =>
    let next := f a (x s).state
    ⟨next.state, next.result, (x s).events ++ next.events⟩
  | .error e => ⟨(x s).state, .error e, (x s).events⟩

instance : Monad (Action σ) where
  pure := Action.pure
  bind := Action.bind

def get : Action σ σ := fun s => ⟨s, .ok s, []⟩

/-- Replaces the state by what `f` makes of it. -/
def modify (f : σ → σ) : Action σ Unit := fun s => ⟨f s, .ok (), []⟩

def report (e : Event) : Action σ Unit := fun s => ⟨s, .ok (), [e]⟩

/-- Runs a computation that does not touch the state. -/
def lift (x : Outcome α) : Action σ α := fun s => ⟨s, x.result, x.events⟩

/-- The state in which an action ends. A fault hides it. -/
def exec (x : Action σ Unit) (s : σ) : Outcome σ :=
  ⟨(x s).result.map fun _ => (x s).state, (x s).events⟩

@[simp]
theorem pure_apply (a : α) (s : σ) : (pure a : Action σ α) s = ⟨s, .ok a, []⟩ := rfl

@[simp]
theorem get_apply (s : σ) : (get : Action σ σ) s = ⟨s, .ok s, []⟩ := rfl

@[simp]
theorem modify_apply (f : σ → σ) (s : σ) : modify f s = ⟨f s, .ok (), []⟩ := rfl

@[simp]
theorem report_apply (e : Event) (s : σ) : (report e : Action σ Unit) s = ⟨s, .ok (), [e]⟩ := rfl

@[simp]
theorem lift_apply (x : Outcome α) (s : σ) : (lift x : Action σ α) s = ⟨s, x.result, x.events⟩ := rfl

/-- After an answer the second part works on the state reached, and its events follow. -/
theorem bind_ok {x : Action σ α} {s : σ} {a : α} (h : (x s).result = .ok a)
    (f : α → Action σ β) :
    (x >>= f) s = ⟨(f a (x s).state).state, (f a (x s).state).result,
      (x s).events ++ (f a (x s).state).events⟩ := by
  simp [bind, Action.bind, h]

theorem bind_error {x : Action σ α} {s : σ} {e : Fault} (h : (x s).result = .error e)
    (f : α → Action σ β) : (x >>= f) s = ⟨(x s).state, .error e, (x s).events⟩ := by
  simp [bind, Action.bind, h]

instance : LawfulMonad (Action σ) := by
  refine LawfulMonad.mk' _ ?_ ?_ ?_
  · intro α x
    funext s
    cases hx : (x s).result <;> simp [Functor.map, Action.bind, Action.pure, hx]
    all_goals simp [← hx]
  · intro α β a f
    funext s
    simp [bind, pure, Action.bind, Action.pure]
  · intro α β γ x f g
    funext s
    cases hx : (x s).result with
    | error e => simp [bind, Action.bind, hx]
    | ok a =>
      cases hf : (f a (x s).state).result <;>
        simp [bind, Action.bind, hx, hf, List.append_assoc]

theorem map_apply (f : α → β) (x : Action σ α) (s : σ) :
    (f <$> x) s = ⟨(x s).state, (x s).result.map f, (x s).events⟩ := by
  cases hx : (x s).result <;>
    simp [Functor.map, Action.bind, Action.pure, Except.map, hx]

end Action

end Timetable
