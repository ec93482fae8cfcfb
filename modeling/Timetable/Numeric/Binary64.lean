import Timetable.Text.Numeral

/-!
# Quotients in binary64

The binary64 number nearest to a quotient of integers; of two that are equally near, the one with
an even last bit.

* A finite number is a sign and a magnitude. The magnitude holds the exponent field above the 52 bits
  of the fraction field, so that a fraction that rounds up past its last value carries into the
  exponent, and subnormal numbers need no case of their own.
* Zero has the sign of the divisor, as if the dividend were positive.
-/

namespace Timetable

open Text

structure Binary64 where
  negative : Bool
  /-- The exponent field times `2 ^ 52`, plus the fraction field. -/
  magnitude : Nat
  deriving DecidableEq, Repr

/-- The integer nearest to `num / den`; half goes to the even neighbour. -/
def roundedQuotient (num den : Nat) : Nat :=
  let quotient := num / den
  let twice := 2 * (num % den)
  if twice < den then quotient
  else if den < twice then quotient + 1
  else quotient + quotient % 2

/-- The greatest `k` with `2 ^ k ≤ num / den`, for positive `num` and `den`. -/
def quotientLog2 (num den : Nat) : Int :=
  let a := num.log2
  let b := den.log2
  if den <<< (a - b) ≤ num <<< (b - a) then (a : Int) - b else (a : Int) - b - 1

namespace Binary64

def one : Binary64 := ⟨false, 0x3ff0000000000000⟩

/-- The least magnitude beyond the finite numbers. -/
def infinity : Nat := 0x7ff0000000000000

/-- The exponent of the unit in the last place of the least numbers. -/
def leastExponent : Int := -1074

/-- The magnitude nearest to `num / den`, for positive `num` and `den`. The unit in the last place
is `2 ^ exponent`, and is chosen so that the quotient has 53 bits before it if it is not too
small. -/
def nearestMagnitude (num den : Nat) : Nat :=
  let exponent := max (quotientLog2 num den - 52) leastExponent
  let significand := roundedQuotient (num <<< (-exponent).toNat) (den <<< exponent.toNat)
  ((exponent - leastExponent).toNat <<< 52) + significand

/-- The number nearest to a quotient; none if it lies beyond the largest number. -/
def ofQuotient? (num den : Int) : Option Binary64 :=
  if num = 0 then some ⟨den < 0, 0⟩
  else
    let magnitude := nearestMagnitude num.natAbs den.natAbs
    if magnitude < infinity then some ⟨(num < 0) != (den < 0), magnitude⟩ else none

/-- The 64 bits of a number, from the sign down, as hexadecimal digits. -/
def hex (x : Binary64) : String :=
  String.ofList (hexDigits 16 ((if x.negative then 0x8000000000000000 else 0) + x.magnitude))

end Binary64

end Timetable
