/-
# `Storybook.Text.Ranges` — tables of code point ranges

Unicode properties are given as ascending lists of closed ranges.  A search may stop at the
first range that begins above the code point, so that the common characters, which stand at
the front of every table, are decided after a step or two.
-/

namespace Storybook.Text

/-- Whether a code point lies in one of the closed ranges of an ascending table. -/
def inRanges : List (Nat × Nat) → Nat → Bool
  | [], _ => false
  | (low, high) :: rest, n =>
    if n < low then false
    else if n ≤ high then true
    else inRanges rest n

end Storybook.Text
