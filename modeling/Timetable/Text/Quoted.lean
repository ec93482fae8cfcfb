import Timetable.Text.Numeral
import Timetable.Text.Printable

/-!
# Quoted text

The written form of a text inside messages. It stands between apostrophes, or between quotation
marks when it holds an apostrophe and no quotation mark.

* The mark in use and the backslash are written after a backslash; tab, line feed and carriage return
  have letters; every other unprintable character is written by its code point in lowercase hexadecimal
  digits, two after `x`, four after `u` or eight after `U`, whichever is the least that holds it.
-/

namespace Timetable.Text

/-- The mark that a text is quoted with. -/
def quotationMark (text : List Char) : Char :=
  if text.contains '\'' && !text.contains '"' then '"' else '\''

/-- The written form of one character between marks `mark`. -/
def quotedChar (mark c : Char) : List Char :=
  if c == mark || c == '\\' then ['\\', c]
  else if c == '\t' then ['\\', 't']
  else if c == '\n' then ['\\', 'n']
  else if c == '\r' then ['\\', 'r']
  else if isPrintable c then [c]
  else if c.toNat < 0x100 then '\\' :: 'x' :: hexDigits 2 c.toNat
  else if c.toNat < 0x10000 then '\\' :: 'u' :: hexDigits 4 c.toNat
  else '\\' :: 'U' :: hexDigits 8 c.toNat

def quotedChars (text : List Char) : List Char :=
  let mark := quotationMark text
  mark :: (text.flatMap (quotedChar mark) ++ [mark])

def quoted (text : String) : String :=
  String.ofList (quotedChars text.toList)

def truth (b : Bool) : String := if b then "True" else "False"

end Timetable.Text
