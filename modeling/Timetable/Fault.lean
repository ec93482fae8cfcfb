import Timetable.Text.Numeral
import Timetable.Text.Quoted

/-!
# Faults

The causes for which an operation ends without an answer, each with the text that explains it.
A fault is not a flaw of an expression: a flawed expression is an answer, and becomes a fault only
when it is put to use.

* `boundedDecimal` writes an integer, and ends in `integerTooLong` when it has too many digits.
-/

namespace Timetable

open Text

/-- Why an operation ended without an answer. -/
inductive Fault where
  /-- A flawed schedule was put to use. -/
  | invalidSchedule (expression reason : String)
  | jobNotFound (id : String)
  /-- A numeral has too many digits to be read. -/
  | numeralTooLong (digits : Nat)
  /-- An integer has too many digits to be written. -/
  | integerTooLong
  /-- The month is so far from the calendar that no length belongs to it. -/
  | noSuchMonth (month : Int)
  /-- All values were asked for between bounds that are more than one value the wrong way round. -/
  | negativeWidth
  | unknownStatus (name : String)
  /-- A scheduler was set up with something that makes no triggers. -/
  | noTriggerSource
  /-- A quotient lies beyond the largest binary64 number. -/
  | quotientTooLarge
  deriving DecidableEq, Repr

/-- Whether an integer fits into a signed word of 64 bits, as the index of a table entry must. -/
def fitsIndex (i : Int) : Bool := -9223372036854775808 ≤ i && i ≤ 9223372036854775807

/-- The text that explains a fault. Months are looked up by the number of months before them in the
year, and the text tells a number that is no index from an index beyond the table. -/
def Fault.message : Fault → String
  | .invalidSchedule expression reason => s!"invalid schedule {quoted expression}: {reason}"
  | .jobNotFound id => s!"Job with ID {quoted id} is not registered."
  | .numeralTooLong digits =>
    s!"Exceeds the limit ({decimal maxDigits} digits) for integer string conversion: " ++
      s!"value has {decimal digits} digits; " ++
      "use sys.set_int_max_str_digits() to increase the limit"
  | .integerTooLong =>
    s!"Exceeds the limit ({decimal maxDigits} digits) for integer string conversion; " ++
      "use sys.set_int_max_str_digits() to increase the limit"
  | .noSuchMonth month =>
    if fitsIndex (month - 1) then "tuple index out of range"
    else "cannot fit 'int' into an index-sized integer"
  | .negativeWidth => "negative shift count"
  | .unknownStatus name => s!"{quoted name} is not a valid JobStatus"
  | .noTriggerSource => "cron_factory must be callable."
  | .quotientTooLarge => "integer division result too large for a float"

/-- An integer in decimal notation; a fault if it has too many digits. -/
def boundedDecimal (n : Int) : Except Fault String :=
  if fitsDecimal n then .ok (decimal n) else .error .integerTooLong

end Timetable
