/-
# `Storybook.Value.Operators` — operators on values

`BinaryOperator.apply` computes a binary operator on two values and `rangeList` the list of a
range.  Both are total: operands of any kind are coerced.
-/
import Storybook.Story.Expression
import Storybook.Value.Basic

namespace Storybook

/-- The value of a binary operator.  A sum with a text joins the displayed texts. -/
def BinaryOperator.apply (op : BinaryOperator) (a b : Value) : Value :=
  match op with
  | .add =>
    match a, b with
    | .string _, _ => .string (a.display ++ b.display)
    | _, .string _ => .string (a.display ++ b.display)
    | _, _ => .number (a.toNumber + b.toNumber)
  | .subtract => .number (a.toNumber - b.toNumber)
  | .multiply => .number (a.toNumber * b.toNumber)
  | .divide => .number (a.toNumber / b.toNumber)
  | .modulo => .number (Number.remainder a.toNumber b.toNumber)
  | .equal => .bool (a.strictEq b)
  | .notEqual => .bool (!a.strictEq b)
  | .less => .bool (a.compare b == some .lt)
  | .greater => .bool (a.compare b == some .gt)
  | .lessEqual => .bool (a.compare b == some .lt || a.compare b == some .eq)
  | .greaterEqual => .bool (a.compare b == some .gt || a.compare b == some .eq)
  | .and => .bool (a.isTruthy && b.isTruthy)
  | .or => .bool (a.isTruthy || b.isTruthy)

def UnaryOperator.apply (op : UnaryOperator) (a : Value) : Value :=
  match op with
  | .negate => .number (-a.toNumber)
  | .not => .bool (!a.isTruthy)

/-- The most items a range evaluates to. -/
def maxRangeItems : Nat := 10000

namespace Value

/-- The integer bounds of a range, in the order they are written; none if one of the values
is no finite number. -/
def rangeBounds? (first last : Value) : Option (Int64 × Int64) :=
  let a := first.toNumber
  let b := last.toNumber
  if a.isFinite && b.isFinite then some (Number.roundToInt64 a, Number.roundToInt64 b)
  else none

/-- The integers from one bound toward the other, both included, up to the greatest count of
items. -/
def integersBetween (a b : Int64) : List Int :=
  let count := min ((b.toInt - a.toInt).natAbs + 1) maxRangeItems
  let step : Int := if a ≤ b then 1 else -1
  (List.range count).map fun (i : Nat) => a.toInt + i * step

/-- The list a range evaluates to; empty where a bound is no finite number. -/
def rangeList (first last : Value) : Value :=
  match rangeBounds? first last with
  | some (a, b) => .list ((integersBetween a b).map fun n => .number (Float.ofInt n))
  | none => .list []

end Value

end Storybook
