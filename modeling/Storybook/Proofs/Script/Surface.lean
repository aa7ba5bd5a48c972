/-
# `Storybook.Proofs.Script.Surface` — expressions as they are written

A surface tree is an expression before it is read: numbers as digits, ranges inside `random`,
and a minus before a number as an operator of its own.  Its text has parentheses exactly
where the levels of the grammar demand them:

| level | written | operands |
| :-- | :-- | :-- |
| disjunction | `a || b` | a disjunction, a conjunction |
| conjunction | `a && b` | a conjunction, a comparison |
| comparison | `a < b` and five others | two ranges |
| range | `a .. b` | two sums |
| sum | `a + b`, `a - b` | a sum, a product |
| product | `a * b`, `a / b`, `a % b` | a product, an operand |
| operand | `- a`, `! a`, `random (a .. b)`, `pick_one [a, b]`, literals, variables | |

Blanks stand between any two tokens; only on the inner side of brackets and before a comma
there may be none.
-/
import Storybook.Proofs.Script.Word

namespace Storybook

namespace Script

/-! ## Levels -/

/-- How tightly an expression binds. -/
inductive Level where
  | disjunction | conjunction | comparison | range | sum | product | operand
deriving DecidableEq, Repr

namespace Level

/-- The place of a level in the order from the loosest to the tightest. -/
def rank : Level → Nat
  | disjunction => 0
  | conjunction => 1
  | comparison => 2
  | range => 3
  | sum => 4
  | product => 5
  | operand => 6

/-- The next tighter level; operands are the tightest. -/
def tighter : Level → Level
  | disjunction => conjunction
  | conjunction => comparison
  | comparison => range
  | range => sum
  | sum => product
  | product | operand => operand

/-- Whether the operators of a level group to the left. -/
def isChain : Level → Bool
  | disjunction | conjunction | sum | product => true
  | comparison | range | operand => false

end Level

end Script

open Script

/-- The level of what an operator makes. -/
def BinaryOperator.level : BinaryOperator → Level
  | or => .disjunction
  | and => .conjunction
  | equal | notEqual | less | greater | lessEqual | greaterEqual => .comparison
  | add | subtract => .sum
  | multiply | divide | modulo => .product

/-- The loosest level that may stand to the left of an operator: its own where operators group
to the left. -/
def BinaryOperator.leftLevel (op : BinaryOperator) : Level :=
  if op.level.isChain then op.level else op.level.tighter

/-- The loosest level that may stand to the right of an operator. -/
def BinaryOperator.rightLevel (op : BinaryOperator) : Level := op.level.tighter

mutual

/-- The expression with every minus before a number folded into a negative number. -/
def Expression.foldNegation : Expression → Expression
  | .unary .negate operand =>
    match operand.foldNegation with
    | .number value => .number (-value)
    | operand => .unary .negate operand
  | .unary .not operand => .unary .not operand.foldNegation
  | .binary op left right => .binary op left.foldNegation right.foldNegation
  | .range first last => .range first.foldNegation last.foldNegation
  | .random source => .random source.foldNegation
  | .pickOne options => .pickOne (foldNegations options)
  | other => other

def Expression.foldNegations : List Expression → List Expression
  | [] => []
  | expression :: rest => expression.foldNegation :: foldNegations rest

end

namespace Script

/-! ## Trees -/

/-- An expression as it is written. -/
inductive Surface where
  | number (literal : Numeral)
  | string (value : String)
  | boolean (value : Bool)
  | var (name : Variable)
  | binary (op : BinaryOperator) (left right : Surface)
  | unary (op : UnaryOperator) (operand : Surface)
  | range (first last : Surface)
  /-- A random member of a range. -/
  | random (first last : Surface)
  | pickOne (options : List Surface)

namespace Surface

mutual

/-- The expression that a surface tree stands for, operator by operator. -/
def tree : Surface → Expression
  | number literal => .number literal.value
  | string value => .string value
  | boolean value => .boolean value
  | var name => .var name.name
  | binary op left right => .binary op left.tree right.tree
  | unary op operand => .unary op operand.tree
  | range first last => .range first.tree last.tree
  | random first last => .random (.range first.tree last.tree)
  | pickOne options => .pickOne (trees options)

def trees : List Surface → List Expression
  | [] => []
  | e :: rest => e.tree :: trees rest

end

def level : Surface → Level
  | binary op _ _ => op.level
  | range .. => .range
  | _ => .operand

/-- Whether a tree needs parentheses where `demanded` is the loosest level that may stand. -/
def isLooser (e : Surface) (demanded : Level) : Bool := e.level.rank < demanded.rank

mutual

/-- How deep parentheses and operators in front of operands nest in the text of a tree. -/
def depth : Surface → Nat
  | number _ | string _ | boolean _ | var _ => 0
  | binary op left right =>
    max (left.depth + (left.isLooser op.leftLevel).toNat)
      (right.depth + (right.isLooser op.rightLevel).toNat)
  | unary _ operand => operand.depth + (operand.isLooser .operand).toNat + 1
  | range first last | random first last =>
    max (first.depth + (first.isLooser .sum).toNat) (last.depth + (last.isLooser .sum).toNat)
  | pickOne options => depths options

def depths : List Surface → Nat
  | [] => 0
  | e :: rest => max e.depth (depths rest)

end

end Surface

/-! ## Texts -/

/-- The blanks of a text: those between two tokens, and those on the inner side of brackets
and before a comma. -/
structure Spacing where
  gap : List Char
  inner : List Char
  gap_ne_nil : gap ≠ []
  gap_isSpace : ∀ c ∈ gap, isSpace c = true
  inner_isSpace : ∀ c ∈ inner, isSpace c = true

namespace Spacing

/-- A single blank between tokens, but none at brackets and before commas. -/
def tight : Spacing where
  gap := [' ']
  inner := []
  gap_ne_nil := List.cons_ne_nil _ _
  gap_isSpace := List.forall_mem_singleton.mpr rfl
  inner_isSpace := Rule.isSpace_nil

/-- A text, in parentheses if they are needed. -/
def enclose (s : Spacing) (needed : Bool) (text : List Char) : List Char :=
  if needed then '(' :: (s.inner ++ (text ++ (s.inner ++ [')']))) else text

end Spacing

namespace Surface

mutual

/-- A tree as it is written. -/
def text (s : Spacing) : Surface → List Char
  | number literal => literal.text
  | string value => quoted value
  | boolean value => (toString value).toList
  | var name => name.name.toList
  | binary op left right =>
    s.enclose (left.isLooser op.leftLevel) (left.text s) ++
      (s.gap ++ (op.symbol.toList ++ (s.gap ++
        s.enclose (right.isLooser op.rightLevel) (right.text s))))
  | unary op operand =>
    op.symbol.toList ++ (s.gap ++ s.enclose (operand.isLooser .operand) (operand.text s))
  | range first last =>
    s.enclose (first.isLooser .sum) (first.text s) ++
      (s.gap ++ ("..".toList ++ (s.gap ++ s.enclose (last.isLooser .sum) (last.text s))))
  | random first last =>
    "random".toList ++ (s.gap ++ ("(".toList ++ (s.inner ++
      (s.enclose (first.isLooser .sum) (first.text s) ++
        (s.gap ++ ("..".toList ++ (s.gap ++
          (s.enclose (last.isLooser .sum) (last.text s) ++ (s.inner ++ ")".toList)))))))))
  | pickOne options =>
    "pick_one".toList ++ (s.gap ++ ("[".toList ++ (s.inner ++
      (listText s [] options ++ "]".toList))))

/-- The elements of a list as they are written, the first one after `before` and the others
after a comma. -/
def listText (s : Spacing) (before : List Char) : List Surface → List Char
  | [] => []
  | e :: rest => before ++ (e.text s ++ (s.inner ++ listText s (',' :: s.gap) rest))

end

/-- A tree as it is written where `demanded` is the loosest level that may stand. -/
def textIn (s : Spacing) (demanded : Level) (e : Surface) : List Char :=
  s.enclose (e.isLooser demanded) (e.text s)

/-- How deep parentheses and operators in front of operands nest in that text. -/
def depthIn (demanded : Level) (e : Surface) : Nat := e.depth + (e.isLooser demanded).toNat

/-- What reading the text of a tree gives. -/
def value (e : Surface) : Expression := e.tree.foldNegation

end Surface

end Script

end Storybook
