/-
# `Storybook.Script.Expression` — the rules of expressions

From the loosest to the tightest binding:

| level | operators | grouping |
| :-- | :-- | :-- |
| disjunction | `||` | to the left |
| conjunction | `&&` | to the left |
| comparison | `== != < <= > >=` | one at most |
| range | `..` | one at most |
| sum | `+ -` | to the left |
| product | `* / %` | to the left |
| operand | `- !` in front | |

Parentheses and operators in front of an operand nest only as deep as there is *room*; past
that the reading aborts.  Every level is a function of the rule for operands, which is the
only one that calls itself: each call reads at least one character first, so that the length
of the text bounds their number.
-/
import Storybook.Script.Literal

namespace Storybook.Script

/-- How deep parentheses, operators in front of operands, and blocks may nest together. -/
def maxNesting : Nat := 40

namespace Rule

/-- A rule one level deeper, if there is room for one. -/
def nested (what : String) (p : Nat → Rule α) : Nat → Rule α
  | 0 => abort (.complaint (what ++ " nested too deeply"))
  | room + 1 => p room

/-- Operands with operators between them, grouped to the left. -/
def leftChain (operator : Rule BinaryOperator) (operand : Rule Expression) : Rule Expression := do
  let first ← operand
  let rest ← many do
    let op ← operator
    let right ← cut operand
    pure (op, right)
  pure (rest.foldl (fun left (op, right) => .binary op left right) first)

def sign (op : BinaryOperator) : Rule BinaryOperator := do
  text op.symbol
  pure op

/-! ## Operators -/

/-- The operators of a product; two slashes begin a comment. -/
def productOperator : Rule BinaryOperator :=
  spaced <|
    sign .multiply
      <|> (do let op ← sign .divide; notAhead (text "/"); pure op)
      <|> sign .modulo

def sumOperator : Rule BinaryOperator := spaced (sign .add <|> sign .subtract)

/-- The operators of a comparison, the longer ones first. -/
def comparisonOperator : Rule BinaryOperator :=
  spaced <|
    sign .equal <|> sign .notEqual <|> sign .lessEqual <|> sign .greaterEqual
      <|> sign .less <|> sign .greater

def andOperator : Rule BinaryOperator := do
  symbol "&&"
  pure .and

def orOperator : Rule BinaryOperator := do
  symbol "||"
  pure .or

/-- The operator in front of an operand; an exclamation mark before an equals sign is none. -/
def prefixOperator : Rule UnaryOperator :=
  spaced <|
    (do text "-"; pure .negate) <|> (do text "!"; notAhead (text "="); pure .not)

/-! ## Levels -/

/-- A sum, given the rule of operands. -/
def sumOver (operand : Rule Expression) : Rule Expression :=
  leftChain sumOperator (leftChain productOperator operand)

/-- A range, or a sum alone. -/
def rangeOver (operand : Rule Expression) : Rule Expression := do
  let first ← sumOver operand
  let last ← optional do
    symbol ".."
    cut (sumOver operand)
  pure <| match last with
    | some last => .range first last
    | none => first

/-- A comparison, or a range alone. -/
def comparisonOver (operand : Rule Expression) : Rule Expression := do
  let left ← rangeOver operand
  let right ← optional do
    let op ← comparisonOperator
    let right ← cut (rangeOver operand)
    pure (op, right)
  pure <| match right with
    | some (op, right) => .binary op left right
    | none => left

/-- An expression, given the rule of operands. -/
def expressionOver (operand : Rule Expression) : Rule Expression :=
  leftChain orOperator (leftChain andOperator (comparisonOver operand))

/-! ## Operands -/

/-- A range that must not be a sum alone. -/
def wholeRange (operand : Rule Expression) : Rule Expression := do
  let first ← sumOver operand
  inContext "'..'" (symbol "..")
  let last ← cut (sumOver operand)
  pure (.range first last)

/-- A random member of a range, with or without parentheses around the range. -/
def randomMember (operand : Rule Expression) : Rule Expression := do
  keyword "random"
  let members ← cut <| spaced <|
    (do symbol "("; let range ← wholeRange operand; symbol ")"; pure range)
      <|> wholeRange operand
  pure (.random members)

/-- One of some expressions in brackets. -/
def pickOne (operand : Rule Expression) : Rule Expression := do
  keyword "pick_one"
  cut do
    symbol "["
    let options ← optional (separated (symbol ",") (expressionOver operand))
    symbol "]"
    pure (.pickOne (options.getD []))

/-- An operand without operators in front: `operand` is the rule of the operands inside it,
and `deeper` the expression between parentheses. -/
def primary (operand deeper : Rule Expression) : Rule Expression :=
  inContext "expression" <| spaced <|
    (do pure (.number (← number)))
      <|> (do pure (.string (← stringLiteral)))
      <|> (do pure (.boolean (← boolean)))
      <|> randomMember operand
      <|> pickOne operand
      <|> (do text "("; let value ← cut deeper; cut (symbol ")"); pure value)
      <|> (do pure (.var (← variableName)))

/-- The value of an operator in front of an operand; a minus before a number makes it a
negative number. -/
def applyPrefix : UnaryOperator → Expression → Expression
  | .negate, .number value => .number (-value)
  | op, operand => .unary op operand

/-- An operand in a text with fewer characters than `fuel`. -/
def operandWithin : (fuel : Nat) → (room : Nat) → Rule Expression
  | 0, _ => refuse .unexpected
  | fuel + 1, room => do
    match ← optional prefixOperator with
    | some op =>
      let operand ← cut (nested "expression" (operandWithin fuel) room)
      pure (applyPrefix op operand)
    | none =>
      primary (operandWithin fuel room)
        (nested "expression" (fun room => expressionOver (operandWithin fuel room)) room)

def operand (room : Nat) : Rule Expression := fun c => operandWithin (c.rest.length + 1) room c

def expression (room : Nat) : Rule Expression := fun c =>
  expressionOver (operandWithin (c.rest.length + 1) room) c

/-- A range or a sum. -/
def range (room : Nat) : Rule Expression := fun c =>
  rangeOver (operandWithin (c.rest.length + 1) room) c

end Rule

end Storybook.Script
