import Timetable.Action

/-!
# Registers

A register holds values under names, in the order in which the names were added.

* `add` puts a value at the end, `replace` and `erase` act on the value under a name and keep the
  order of the others.
* `each` lets an action work on every value in turn, up to the first fault.
-/

namespace Timetable

/-- Values under names, in the order of their addition. -/
structure Register (α : Type) where
  entries : List (String × α)

namespace Register

variable {α : Type}

def empty : Register α := ⟨[]⟩

def keys (r : Register α) : List String := r.entries.map (·.1)

def values (r : Register α) : List α := r.entries.map (·.2)

def size (r : Register α) : Nat := r.entries.length

def find? (r : Register α) (key : String) : Option α := r.entries.lookup key

def contains (r : Register α) (key : String) : Bool := (r.find? key).isSome

def indexOf? (r : Register α) (key : String) : Option Nat := r.keys.idxOf? key

def add (r : Register α) (key : String) (value : α) : Register α := ⟨r.entries ++ [(key, value)]⟩

def erase (r : Register α) (key : String) : Register α := ⟨r.entries.filter (·.1 != key)⟩

def replace (r : Register α) (key : String) (value : α) : Register α :=
  ⟨r.entries.map fun entry => if entry.1 == key then (key, value) else entry⟩

/-- Lets an action work on every value of a list of entries in turn, up to the first fault. -/
def eachEntry (act : Action α Unit) : Action (List (String × α)) Unit
  | [] => ⟨[], .ok (), []⟩
  | (key, value) :: rest =>
    let step := act value
    match step.result with
    | .ok _ =>
      let later := eachEntry act rest
      ⟨(key, step.state) :: later.state, later.result, step.events ++ later.events⟩
    -- The values behind the fault stay as they are.
    | .error e => ⟨(key, step.state) :: rest, .error e, step.events⟩

/-- Lets an action work on every value in turn, up to the first fault. -/
def each (act : Action α Unit) : Action (Register α) Unit := fun r =>
  let step := eachEntry act r.entries
  ⟨⟨step.state⟩, step.result, step.events⟩

/-! ## What the operations do to the names -/

theorem keys_add (r : Register α) (key : String) (value : α) :
    (r.add key value).keys = r.keys ++ [key] := by
  simp [add, keys]

theorem keys_erase (r : Register α) (key : String) :
    (r.erase key).keys = r.keys.filter (· != key) := by
  simp [erase, keys, List.filter_map, Function.comp_def]

theorem keys_replace (r : Register α) (key : String) (value : α) :
    (r.replace key value).keys = r.keys := by
  simp only [replace, keys, List.map_map]
  apply List.map_congr_left
  intro entry _
  by_cases h : entry.1 = key <;> simp [h]

end Register

end Timetable
