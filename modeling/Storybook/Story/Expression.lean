/-
# `Storybook.Story.Expression` — the expressions of a story

Expressions compute the values of variables, the text of labels and the coordinates of
movements.  A text with placeholders, such as `Hello {name}`, is an interpolated string; the
expression `unknown` stands for kinds that a document may name and this library does not
know.
-/

namespace Storybook

/-- The operators between two operands. -/
inductive BinaryOperator where
  | add | subtract | multiply | divide | modulo
  | equal | notEqual | less | greater | lessEqual | greaterEqual
  | and | or
deriving DecidableEq, Repr, Inhabited

namespace BinaryOperator

def all : List BinaryOperator :=
  [add, subtract, multiply, divide, modulo, equal, notEqual, less, greater, lessEqual,
    greaterEqual, and, or]

def symbol : BinaryOperator → String
  | add => "+"
  | subtract => "-"
  | multiply => "*"
  | divide => "/"
  | modulo => "%"
  | equal => "=="
  | notEqual => "!="
  | less => "<"
  | greater => ">"
  | lessEqual => "<="
  | greaterEqual => ">="
  | and => "&&"
  | or => "||"

def ofSymbol? (symbol : String) : Option BinaryOperator := all.find? (·.symbol == symbol)

end BinaryOperator

/-- The operators before one operand. -/
inductive UnaryOperator where
  | negate
  | not
deriving DecidableEq, Repr, Inhabited

namespace UnaryOperator

def symbol : UnaryOperator → String
  | negate => "-"
  | not => "!"

def ofSymbol? (symbol : String) : Option UnaryOperator :=
  [negate, not].find? (·.symbol == symbol)

end UnaryOperator

/-- A segment of an interpolated string. -/
inductive StringPart where
  /-- Literal text. -/
  | text (text : String)
  /-- The displayed value of a variable. -/
  | placeholder (name : String)
deriving DecidableEq, Repr, Inhabited

inductive Expression where
  | number (value : Float)
  | string (value : String)
  | boolean (value : Bool)
  /-- The value of a variable. -/
  | var (name : String)
  | binary (op : BinaryOperator) (left right : Expression)
  | unary (op : UnaryOperator) (operand : Expression)
  /-- The integers from one bound to the other, both included. -/
  | range (first last : Expression)
  /-- A random member of a range or of a list. -/
  | random (source : Expression)
  /-- The value of one of the options. -/
  | pickOne (options : List Expression)
  | interpolated (parts : List StringPart)
  | unknown
deriving Inhabited, Repr

end Storybook
