import Timetable.Cron.Field
import Timetable.ValueSet.Basic

/-!
# Items of a field

The text of a field is a list of items, each of which denotes some integers.

* `Item.Denotes` is the meaning of an item; the lowest value of the field counts for `*/S` only.
* `Item.insertion` is the way of adding what an item denotes to the set of a field.
-/

namespace Timetable

/-- One of the alternatives in the text of a field. -/
inductive Item where
  /-- Every value, written `*`. -/
  | every
  /-- Every `step`-th value from the lowest, written `*/S`. -/
  | everyNth (step : Nat)
  /-- One value, written `N`. -/
  | single (n : Nat)
  /-- Every `step`-th value from `n` on, written `N/S`. -/
  | onward (n step : Nat)
  /-- Every `step`-th value from `a` to `b`, written `A-B/S`, or `A-B` when the step is 1. -/
  | range (a b step : Nat)
  deriving DecidableEq, Repr

namespace Item

/-- Whether an item of a field with lowest value `lo` denotes `v`. -/
def Denotes (lo : Int) : Item → Int → Prop
  | every, _ => True
  | everyNth step, v => (v - lo) % step = 0
  | single n, v => v = n
  | onward n step, v => n ≤ v ∧ (v - n) % step = 0
  | range a b step, v => a ≤ v ∧ v ≤ b ∧ (v - a) % step = 0

/-- The way of adding the values that an item denotes. -/
def insertion (f : Field) : Item → ValueSet.Insertion
  | every => .all
  | everyNth step => .range f.lo f.hi step
  | single n => .value n
  | onward n step => .range n f.hi step
  | range a b step => .range a b step

end Item

end Timetable
