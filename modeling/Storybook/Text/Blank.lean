/-
# `Storybook.Text.Blank` — the Unicode property White_Space

The blanks of Unicode, which surround a number in a text and end a quoted excerpt.  The
blanks between the words of a script are a smaller set (`Storybook.Script.Cursor`).
-/
import Storybook.Text.Ranges

namespace Storybook.Text

/-- The code points with the property White_Space. -/
def blankRanges : List (Nat × Nat) :=
  [ (9, 13), (32, 32), (133, 133), (160, 160), (5760, 5760), (8192, 8202), (8232, 8233),
    (8239, 8239), (8287, 8287), (12288, 12288)]

def isBlank (c : Char) : Bool := inRanges blankRanges c.toNat

/-- The text without the blanks at both of its ends. -/
def trim (cs : List Char) : List Char :=
  ((cs.dropWhile isBlank).reverse.dropWhile isBlank).reverse

end Storybook.Text
