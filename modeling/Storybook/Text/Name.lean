/-
# `Storybook.Text.Name` — names of variables, agents and properties

A name begins with a letter or an underscore and goes on with letters, numerals and
underscores.
-/
import Storybook.Text.Letter
import Storybook.Text.Numeral

namespace Storybook.Text

/-- Whether a character may begin a name. -/
def isNameStart (c : Char) : Bool := isLetter c || c == '_'

/-- Whether a character may stand in a name. -/
def isNameChar (c : Char) : Bool := isLetter c || isNumeral c || c == '_'

def isName : List Char → Bool
  | [] => false
  | c :: rest => isNameStart c && rest.all isNameChar

/-- A character that begins a name may also stand inside one. -/
theorem isNameChar_of_isNameStart {c : Char} (h : isNameStart c = true) :
    isNameChar c = true := by
  simp only [isNameStart, Bool.or_eq_true] at h
  simp only [isNameChar, Bool.or_eq_true]
  exact h.elim (fun h => .inl (.inl h)) .inr

end Storybook.Text
