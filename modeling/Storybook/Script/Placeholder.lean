/-
# `Storybook.Script.Placeholder` — placeholders in texts

A placeholder is a name in braces.  Braces around anything else are literal text.
-/
import Storybook.Story.Expression
import Storybook.Text.Name

namespace Storybook.Script

/-- The name of a placeholder and the text after it, for a text after an opening brace. -/
def placeholder? (cs : List Char) : Option (List Char × List Char) :=
  match cs.dropWhile (· != '\x7d') with
  | [] => none
  | _ :: rest =>
    let name := cs.takeWhile (· != '\x7d')
    if Text.isName name then some (name, rest) else none

theorem length_dropWhile_le (p : Char → Bool) (cs : List Char) :
    (cs.dropWhile p).length ≤ cs.length :=
  (List.dropWhile_suffix p).length_le

/-- What follows a placeholder is shorter than the text from its name on. -/
theorem length_lt_of_placeholder? {cs name rest : List Char}
    (h : placeholder? cs = some (name, rest)) : rest.length < cs.length := by
  unfold placeholder? at h
  have hle := length_dropWhile_le (· != '\x7d') cs
  split at h
  · exact absurd h (by simp)
  · next heq =>
    rw [heq, List.length_cons] at hle
    dsimp only at h
    split at h
    · simp only [Option.some.injEq, Prod.mk.injEq] at h
      rw [← h.2]
      omega
    · exact absurd h (by simp)

/-- A literal part, unless it is empty; its characters come in reverse order. -/
def literalPart : List Char → List StringPart
  | [] => []
  | reversed => [.text (String.ofList reversed.reverse)]

/-- The parts of a text, where `reversed` holds the literal characters just before it. -/
def splitFrom (reversed : List Char) : List Char → List StringPart
  | [] => literalPart reversed
  | c :: rest =>
    if c = '\x7b' then
      match _h : placeholder? rest with
      | some (name, after) =>
        literalPart reversed ++ .placeholder (String.ofList name) :: splitFrom [] after
      | none => splitFrom (c :: reversed) rest
    else splitFrom (c :: reversed) rest
termination_by cs => cs.length
decreasing_by
  · have := length_lt_of_placeholder? _h
    simp only [List.length_cons]
    omega
  all_goals simp

/-- The literal runs and the placeholders of a text, in their order. -/
def splitParts (text : String) : List StringPart := splitFrom [] text.toList

/-- Whether some part is a placeholder. -/
def hasPlaceholder (parts : List StringPart) : Bool :=
  parts.any fun
    | .placeholder _ => true
    | .text _ => false

/-- A displayed text: always an interpolated string. -/
def interpolated (text : String) : Expression := .interpolated (splitParts text)

/-- A string of an expression: interpolated if it has a placeholder. -/
def stringExpression (text : String) : Expression :=
  let parts := splitParts text
  if hasPlaceholder parts then .interpolated parts else .string text

mutual

/-- The expression with its strings interpolated where they have placeholders. -/
def withPlaceholders : Expression → Expression
  | .string value => stringExpression value
  | .binary op left right => .binary op (withPlaceholders left) (withPlaceholders right)
  | .unary op operand => .unary op (withPlaceholders operand)
  | .range first last => .range (withPlaceholders first) (withPlaceholders last)
  | .random source => .random (withPlaceholders source)
  | .pickOne options => .pickOne (allWithPlaceholders options)
  | other => other

def allWithPlaceholders : List Expression → List Expression
  | [] => []
  | expression :: rest => withPlaceholders expression :: allWithPlaceholders rest

end

end Storybook.Script
