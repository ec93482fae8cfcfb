/-!
# Taking a text apart

* `isBlank` is the class of characters that separate the words of a line: the controls from tab to
  carriage return and from file separator to unit separator, and the spaces, line and paragraph
  separators of Unicode.
* `words` are the longest runs of characters that are not blank, from the left; none is empty.
* `cut c text` is the part of the text before the first `c`, and the part behind it if there is one.
-/

namespace Timetable.Text

/-- The characters that separate words. The zero width space and the byte order mark do not. -/
def isBlank (c : Char) : Bool :=
  let n := c.toNat
  (0x09 ≤ n && n ≤ 0x0D) || (0x1C ≤ n && n ≤ 0x20) || n == 0x85 || n == 0xA0 || n == 0x1680 ||
    (0x2000 ≤ n && n ≤ 0x200A) || n == 0x2028 || n == 0x2029 || n == 0x202F || n == 0x205F ||
    n == 0x3000

/-- The words of a text. Blanks at either end and runs of several blanks make no empty word. -/
def words (text : List Char) : List (List Char) :=
  (text.splitOnP isBlank).filter (!·.isEmpty)

/-- The part before the first `c`, and the part behind it if `c` occurs. -/
def cut (c : Char) : List Char → List Char × Option (List Char)
  | [] => ([], none)
  | d :: text => if d = c then ([], some text) else ((d :: (cut c text).1), (cut c text).2)

theorem cut_of_not_mem {c : Char} {text : List Char} (h : c ∉ text) : cut c text = (text, none) := by
  induction text with
  | nil => rfl
  | cons d text ih =>
    rw [List.mem_cons, not_or] at h
    rw [cut, if_neg (Ne.symm h.1), ih h.2]

/-- A text is cut at the first separator, whatever follows. -/
theorem cut_append_cons {c : Char} {before : List Char} (h : c ∉ before) (behind : List Char) :
    cut c (before ++ c :: behind) = (before, some behind) := by
  induction before with
  | nil => simp [cut]
  | cons d before ih =>
    rw [List.mem_cons, not_or] at h
    rw [List.cons_append, cut, if_neg (Ne.symm h.1), ih h.2]

end Timetable.Text
