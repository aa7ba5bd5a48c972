/-
# `Storybook.Eval.Evaluate` — the values of expressions

Evaluation is total: operands are coerced and what has no value is null.  Operands are
evaluated from left to right, and the source of random words passes through all of them;
`pickOne` draws first and evaluates the chosen option alone.
-/
import Storybook.Eval.Environment
import Storybook.Random.Draw
import Storybook.Value.Operators

namespace Storybook

/-- The text of an interpolated string. -/
def interpolate (env : Environment) : List StringPart → String
  | [] => ""
  | .text text :: rest => text ++ interpolate env rest
  | .placeholder name :: rest => (env.read name).display ++ interpolate env rest

namespace Expression

variable {σ : Type} [WordSource σ]

/-- A random integer between two bounds in either order, and the source after it. -/
def drawInteger (a b : Int64) (source : σ) : Value × σ :=
  let (low, high) := if a ≤ b then (a, b) else (b, a)
  let (n, source) := Random.between low high source
  (.number (Float.ofInt n.toInt), source)

/-- A random item of a value, and the source after it; only lists have items. -/
def drawItem : Value → σ → Value × σ
  | .list (item :: items), source =>
    let (n, source) := Random.index (items.length + 1) source
    ((item :: items).getD n .null, source)
  | _, source => (.null, source)

mutual

/-- The value of an expression, and the source after it. -/
def evaluate (env : Environment) : Expression → σ → Value × σ
  | number value, source => (.number value, source)
  | string value, source => (.string value, source)
  | boolean value, source => (.bool value, source)
  | var name, source => (env.read name, source)
  | binary op left right, source =>
    let (a, source) := evaluate env left source
    let (b, source) := evaluate env right source
    (op.apply a b, source)
  | unary op operand, source =>
    let (a, source) := evaluate env operand source
    (op.apply a, source)
  | range first last, source =>
    let (a, source) := evaluate env first source
    let (b, source) := evaluate env last source
    (Value.rangeList a b, source)
  | random members, source =>
    match bounds env members source with
    | (some (a, b), source) => drawInteger a b source
    | (none, source) =>
      let (value, source) := evaluate env members source
      drawItem value source
  | pickOne [], source => (.null, source)
  | pickOne options, source =>
    let (n, source) := Random.index options.length source
    evaluateNth env options n source
  | interpolated parts, source => (.string (interpolate env parts), source)
  | unknown, source => (.null, source)

/-- The value of the option at an index. -/
def evaluateNth (env : Environment) : List Expression → Nat → σ → Value × σ
  | [], _, source => (.null, source)
  | option :: _, 0, source => evaluate env option source
  | _ :: rest, n + 1, source => evaluateNth env rest n source

/-- The integer bounds of a range; none of an expression that is no range, or whose bounds
are no finite numbers. -/
def bounds (env : Environment) : Expression → σ → Option (Int64 × Int64) × σ
  | range first last, source =>
    let (a, source) := evaluate env first source
    let (b, source) := evaluate env last source
    (Value.rangeBounds? a b, source)
  | _, source => (none, source)

end

section Random

variable {env : Environment} {members : Expression}

theorem bounds_of_ne_range (env : Environment) (h : ∀ first last, members ≠ .range first last)
    (s : σ) : bounds env members s = (none, s) := by
  cases members with
  | range first last => exact absurd rfl (h first last)
  | _ => rfl

theorem evaluate_random_of_bounds {s t : σ} {a b : Int64}
    (h : bounds env members s = (some (a, b), t)) :
    evaluate env (.random members) s = drawInteger a b t := by
  rw [evaluate, h]

theorem evaluate_random_of_no_bounds {s t : σ} (h : bounds env members s = (none, t)) :
    evaluate env (.random members) s =
      drawItem (evaluate env members t).1 (evaluate env members t).2 := by
  rw [evaluate, h]

end Random

end Expression

end Storybook
