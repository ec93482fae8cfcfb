import Timetable.Event
import Timetable.Fault

/-!
# Outcomes

The outcome of a computation that may report events and may end in a fault.

* Sequencing stops at the first fault and keeps the events in the order in which they were reported,
  those before a fault included (`Outcome.bind_ok`, `Outcome.bind_error`).
-/

namespace Timetable

/-- An answer or a fault, and the events reported on the way, oldest first. -/
@[ext]
structure Outcome (α : Type) where
  result : Except Fault α
  events : List Event

namespace Outcome

variable {α β : Type}

protected def pure (a : α) : Outcome α := ⟨.ok a, []⟩

def fault (e : Fault) : Outcome α := ⟨.error e, []⟩

def report (e : Event) : Outcome Unit := ⟨.ok (), [e]⟩

/-- An answer or a fault that was found without reporting anything. -/
def ofExcept (x : Except Fault α) : Outcome α := ⟨x, []⟩

/-- Goes on with the answer; a fault ends the computation. -/
protected def bind (x : Outcome α) (f : α → Outcome β) : Outcome β :=
  match x.result with
  | .ok a => ⟨(f a).result, x.events ++ (f a).events⟩
  | .error e => ⟨.error e, x.events⟩

instance : Monad Outcome where
  pure := Outcome.pure
  bind := Outcome.bind

/-- After an answer the second part runs, and its events follow. -/
theorem bind_ok {x : Outcome α} {a : α} (h : x.result = .ok a) (f : α → Outcome β) :
    x >>= f = ⟨(f a).result, x.events ++ (f a).events⟩ := by
  simp [bind, Outcome.bind, h]

theorem bind_error {x : Outcome α} {e : Fault} (h : x.result = .error e) (f : α → Outcome β) :
    x >>= f = ⟨.error e, x.events⟩ := by
  simp [bind, Outcome.bind, h]

instance : LawfulMonad Outcome := by
  refine LawfulMonad.mk' _ ?_ ?_ ?_
  · intro α x
    obtain ⟨result, events⟩ := x
    cases result <;> simp [Functor.map, Outcome.bind, Outcome.pure]
  · intro α β a f
    simp [bind, pure, Outcome.bind, Outcome.pure]
  · intro α β γ x f g
    obtain ⟨result, events⟩ := x
    cases result with
    | error e => simp [bind, Outcome.bind]
    | ok a =>
      simp only [bind, Outcome.bind]
      cases (f a).result <;> simp [List.append_assoc]

theorem map_eq (f : α → β) (x : Outcome α) : f <$> x = ⟨x.result.map f, x.events⟩ := by
  obtain ⟨result, events⟩ := x
  cases result <;> simp [Functor.map, Outcome.bind, Outcome.pure, Except.map]

end Outcome

end Timetable
