import Timetable.Cron.Item
import Timetable.Text.Split

/-!
# Reading the text of a field

A field is written as items between commas.

* `Item.read` reads one item. A step is read before what stands in front of it, and the start of a
  range before its end.
* `Field.read` reads a whole field. Characters that no item holds are found first, then the items are
  read from the left, and last the set of values must have a member.
* What is wrong with a text is a `FieldFlaw`. A numeral that is too long to be converted is none: it
  ends the reading with a failure of its own kind.
-/

namespace Timetable

open Text

inductive FieldFlaw where
  /-- The least of the characters that no item holds. -/
  | strayCharacter (c : Char)
  | malformedInteger (text : String)
  | zeroStep
  | invertedRange (start stop : Nat)
  /-- No value between the bounds is denoted. -/
  | noValues (lo hi : Int)
  deriving DecidableEq, Repr

def FieldFlaw.message : FieldFlaw → String
  | strayCharacter c => s!"unexpected character {quoted (String.singleton c)}"
  | malformedInteger text => s!"malformed integer {quoted text}"
  | zeroStep => "step must be positive, got 0"
  | invertedRange start stop => s!"inverted range {decimal start}-{decimal stop}"
  | noValues lo hi => s!"no values within [{decimal lo}, {decimal hi}]"

/-- Why the text of a field could not be read. -/
inductive ReadFailure where
  | flawed (flaw : FieldFlaw)
  | numeralTooLong (digits : Nat)
  deriving DecidableEq, Repr

def readNumeral (text : List Char) : Except ReadFailure Nat :=
  if isNumeral text = false then .error (.flawed (.malformedInteger (String.ofList text)))
  else if maxDigits < text.length then .error (.numeralTooLong text.length)
  else .ok (numeralValue text)

namespace Item

/-- Reads what stands in front of a step, or a whole item without a step. -/
def readBase (base : List Char) (step : Option Nat) : Except ReadFailure Item :=
  if base = ['*'] then
    .ok (match step with
      | none => every
      | some step => everyNth step)
  else match cut '-' base with
    | (startText, some stopText) => do
      let start ← readNumeral startText
      let stop ← readNumeral stopText
      if stop < start then .error (.flawed (.invertedRange start stop))
      else .ok (range start stop (step.getD 1))
    | (_, none) => do
      let n ← readNumeral base
      .ok (match step with
        | none => single n
        | some step => onward n step)

def read (text : List Char) : Except ReadFailure Item :=
  match cut '/' text with
  | (base, some stepText) => do
    let step ← readNumeral stepText
    if step = 0 then .error (.flawed .zeroStep) else readBase base (some step)
  | (base, none) => readBase base none

end Item

/-- The characters that items and the commas between them hold. -/
def isFieldChar (c : Char) : Bool :=
  isDigit c || c == '*' || c == '-' || c == ',' || c == '/'

/-- The least of the characters of a text that are out of place in a field. -/
def leastStray? (text : List Char) : Option Char :=
  match text.filter (!isFieldChar ·) with
  | [] => none
  | c :: strays => some (strays.foldl (fun least d => if d < least then d else least) c)

namespace Field

/-- The set of the values that are denoted by some item of a list. -/
def collect (f : Field) (items : List Item) : ValueSet :=
  items.foldl (fun s item => (item.insertion f).apply s) (.empty f.lo f.hi)

def read (f : Field) (text : String) : Except ReadFailure ValueSet :=
  match leastStray? text.toList with
  | some c => .error (.flawed (.strayCharacter c))
  | none => do
    let items ← (text.toList.splitOnP (· == ',')).mapM Item.read
    let values := f.collect items
    if values.isEmpty then .error (.flawed (.noValues f.lo f.hi)) else .ok values

end Field

end Timetable
