/-!
# Numerals

Reading and writing integers in decimal notation, and writing them in hexadecimal notation.

* `isNumeral` and `numeralValue` read a numeral: a non-empty run of the digits `0` to `9`, leading
  zeros allowed.
* `decimal` writes an integer, with a minus sign when it is negative; `paddedChars` fills it with
  zeros behind the sign up to a width that counts the sign.
* `maxDigits` bounds the decimal numerals that are converted, in either direction.
* `hexDigits width n` are the last `width` hexadecimal digits of `n`, in lowercase.
-/

namespace Timetable.Text

/-- The most digits that a numeral may have, read or written. -/
def maxDigits : Nat := 4300

def isDigit (c : Char) : Bool := '0' ≤ c && c ≤ '9'

/-- A numeral is a non-empty run of digits. -/
def isNumeral (text : List Char) : Bool := !text.isEmpty && text.all isDigit

def numeralValue (text : List Char) : Nat :=
  text.foldl (fun n c => 10 * n + (c.toNat - '0'.toNat)) 0

def signChars (n : Int) : List Char := if n < 0 then ['-'] else []

def digitChars (n : Int) : List Char := Nat.toDigits 10 n.natAbs

def decimal (n : Int) : String := String.ofList (signChars n ++ digitChars n)

/-- An integer in decimal notation with zeros between sign and digits, such that sign, zeros and
digits fill the width. -/
def paddedChars (width : Nat) (n : Int) : List Char :=
  signChars n ++ (List.replicate (width - (signChars n).length - (digitChars n).length) '0' ++
    digitChars n)

/-- Whether an integer has few enough digits to be written. -/
def fitsDecimal (n : Int) : Bool := (digitChars n).length ≤ maxDigits

/-- The last `width` hexadecimal digits of a number. -/
def hexDigits : Nat → Nat → List Char
  | 0, _ => []
  | width + 1, n => hexDigits width (n / 16) ++ [Nat.digitChar (n % 16)]

end Timetable.Text
