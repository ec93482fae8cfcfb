import Timetable.Fault

/-!
# Sets of integers between bounds

A `ValueSet` admits some of the integers from a lower to an upper bound. Values are added and never
taken away; those beyond the bounds are ignored.

* The members are the bits of one natural number, bit `v - lo` standing for `v`. No bit beyond the
  upper bound is ever set, so that equal sets have equal representations.
* `next?` is the least member at or above a start. `next` and `first` answer with an integer in every
  case, and do not tell a member `noMatch` from the lack of one.
* `Insertion` lists the ways of adding values, and `Insertion.perform` carries one out.
-/

namespace Timetable

open Text

/-- The position of the lowest set bit of a positive number: the bits in which the number differs from
its predecessor are that bit and those below it. -/
def lowestBit (n : Nat) : Nat := (n ^^^ (n - 1)).log2

theorem one_shiftLeft_pos (n : Nat) : 0 < 1 <<< n := by
  rw [Nat.one_shiftLeft]
  exact Nat.two_pow_pos n

/-- Setting one more bit below the width keeps all bits below the width. -/
theorem or_lt_one_shiftLeft {bits width i : Nat} (hbits : bits < 1 <<< width) (hi : i < width) :
    bits ||| (1 <<< i) < 1 <<< width := by
  simp only [Nat.one_shiftLeft] at hbits ⊢
  exact Nat.or_lt_two_pow hbits (Nat.pow_lt_pow_right (by decide) hi)

/-- A set of integers `v` with `lo ≤ v ≤ hi`. -/
structure ValueSet where
  lo : Int
  hi : Int
  /-- Bit `v - lo` is set when `v` is a member. -/
  bits : Nat
  bits_lt : bits < 1 <<< (hi + 1 - lo).toNat
  deriving DecidableEq

namespace ValueSet

/-- The answer of a successor query when there is no successor. -/
def noMatch : Int := -1

def empty (lo hi : Int) : ValueSet := ⟨lo, hi, 0, one_shiftLeft_pos _⟩

def width (s : ValueSet) : Nat := (s.hi + 1 - s.lo).toNat

/-- The bit that stands for a value. -/
def position (s : ValueSet) (v : Int) : Nat := (v - s.lo).toNat

def contains (s : ValueSet) (v : Int) : Bool :=
  s.lo ≤ v && v ≤ s.hi && s.bits.testBit (s.position v)

instance : Membership Int ValueSet := ⟨fun s v => s.contains v = true⟩

theorem mem_iff {s : ValueSet} {v : Int} : v ∈ s ↔ s.contains v = true := Iff.rfl

instance (v : Int) (s : ValueSet) : Decidable (v ∈ s) := decidable_of_iff _ mem_iff.symm

def isEmpty (s : ValueSet) : Bool := s.bits == 0

def toList (s : ValueSet) : List Int :=
  ((List.range s.width).map fun (i : Nat) => s.lo + i).filter s.contains

/-! ## Insertion -/

theorem position_lt_width {s : ValueSet} {v : Int} (h : s.lo ≤ v ∧ v ≤ s.hi) :
    s.position v < s.width := by
  unfold position width
  omega

/-- Adds a value, unless it lies beyond the bounds. -/
def insert (s : ValueSet) (v : Int) : ValueSet :=
  if h : s.lo ≤ v ∧ v ≤ s.hi then
    { s with
      bits := s.bits ||| (1 <<< s.position v)
      bits_lt := or_lt_one_shiftLeft s.bits_lt (position_lt_width h) }
  else s

def insertAll (s : ValueSet) : ValueSet :=
  { s with
    bits := (1 <<< s.width) - 1
    bits_lt := Nat.sub_lt (one_shiftLeft_pos _) Nat.one_pos }

/-- The values that an arithmetic progression from `start` to `stop` has between `lo` and `hi`, in
ascending order. A step below 1 counts as 1. -/
def progression (lo hi start stop step : Int) : List Int :=
  let step := max step 1
  let floor := max start lo
  let least := floor + (start - floor) % step
  (List.range ((min stop hi - least) / step + 1).toNat).map fun (i : Nat) => least + i * step

/-- Adds the values of an arithmetic progression, without those beyond the bounds. -/
def insertRange (s : ValueSet) (start stop step : Int) : ValueSet :=
  (progression s.lo s.hi start stop step).foldl insert s

inductive Insertion where
  | all
  | value (v : Int)
  | range (start stop step : Int)
  deriving DecidableEq, Repr

namespace Insertion

def apply : Insertion → ValueSet → ValueSet
  | all, s => s.insertAll
  | value v, s => s.insert v
  | range start stop step, s => s.insertRange start stop step

/-- Adds the values. All values cannot be added between bounds that are more than one value the
wrong way round. -/
def perform (i : Insertion) (s : ValueSet) : Except Fault ValueSet :=
  if i = all ∧ s.hi + 1 < s.lo then .error .negativeWidth else .ok (i.apply s)

end Insertion

/-! ## Successors -/

/-- The least member at or above a start. -/
def next? (s : ValueSet) (start : Int) : Option Int :=
  let start := max start s.lo
  if s.hi < start then none
  else
    let rest := s.bits >>> s.position start
    if rest = 0 then none else some (start + lowestBit rest)

/-- The least member at or above a start, or `noMatch`. Where the bounds admit `noMatch` itself, the
answer does not tell the two apart. -/
def next (s : ValueSet) (start : Int) : Int := (s.next? start).getD noMatch

/-- The least member, or the lower bound when the successor query answers `noMatch`. -/
def first (s : ValueSet) : Int :=
  let found := s.next s.lo
  if found = noMatch then s.lo else found

/-! ## Written form -/

/-- The bounds and the members of a set; a fault if one of them has too many digits. -/
def text (s : ValueSet) : Except Fault String := do
  let lo ← boundedDecimal s.lo
  let hi ← boundedDecimal s.hi
  let members ← s.toList.mapM boundedDecimal
  .ok (s!"FieldMatcher(min_val={lo}, max_val={hi}, " ++
    "allowed=[" ++ String.intercalate ", " members ++ "])")

end ValueSet

end Timetable
