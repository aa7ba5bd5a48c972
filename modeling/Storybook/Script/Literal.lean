/-
# `Storybook.Script.Literal` — the words of a script

Names, numbers, truth values, strings, durations, positions and the names of agents, each as
a rule.  A keyword is a word of its own: `to` is not the beginning of `total`.
-/
import Storybook.Number.Reading
import Storybook.Script.Rule
import Storybook.Story.Basic
import Storybook.Text.Name

namespace Storybook.Script

inductive DurationUnit where
  | milliseconds | seconds
deriving DecidableEq, Repr, Inhabited

def DurationUnit.symbol : DurationUnit → String
  | milliseconds => "ms"
  | seconds => "s"

/-- A duration as it is written. -/
structure Duration where
  amount : UInt64
  unit : DurationUnit
deriving DecidableEq, Repr, Inhabited

/-- The duration in milliseconds; too long a time stops at the largest word. -/
def Duration.milliseconds (d : Duration) : UInt64 :=
  match d.unit with
  | .milliseconds => d.amount
  | .seconds => UInt64.ofNat (min (d.amount.toNat * 1000) (UInt64.size - 1))

/-- The words that name no variable. -/
def reservedWords : List String :=
  ["true", "false", "random", "pick_one", "do", "end", "to", "from", "in", "else"]

/-- Why a number is above all of a type. -/
def tooLarge : String := "number too large to fit in target type"

/-- Why a number is below all of a type. -/
def tooSmall : String := "number too small to fit in target type"

/-- The integer of 64 bits that a sign and digits stand for. -/
def int64OfDigits (negative : Bool) (digits : List Char) : Except String Int64 :=
  let n := Number.digitsValue digits
  if negative then
    if Int64.minValue.toInt ≤ -(n : Int) then .ok (Int64.ofInt (-(n : Int)))
    else .error tooSmall
  else if (n : Int) ≤ Int64.maxValue.toInt then .ok (Int64.ofInt n)
  else .error tooLarge

/-- The whole number of 64 bits that digits stand for. -/
def uint64OfDigits (digits : List Char) : Except String UInt64 :=
  let n := Number.digitsValue digits
  if n < UInt64.size then .ok (UInt64.ofNat n) else .error tooLarge

/-- An integer as a whole number of 32 bits. -/
def uint32OfInt64 (n : Int64) : Except String UInt32 :=
  if n.toInt < 0 then .error tooSmall
  else if n.toInt < UInt32.size then .ok (UInt32.ofNat n.toInt.toNat)
  else .error tooLarge

/-- The characters of a string up to its closing quote, and the text after that; none where no
quote closes it.  A backslash stands for itself and the next character: a line feed for `n`,
a tab for `t`, and any other for itself. -/
def stringBody : List Char → Option (List Char × List Char)
  | [] => none
  | '"' :: rest => some ([], rest)
  | ['\\'] => none
  | '\\' :: c :: rest =>
    (stringBody rest).map fun (body, rest) =>
      ((if c = 'n' then '\n' else if c = 't' then '\t' else c) :: body, rest)
  | c :: rest => (stringBody rest).map fun (body, rest) => (c :: body, rest)

namespace Rule

/-- A given text, named in the error where it is missing. -/
def token (expected : String) : Rule Unit := named ("'" ++ expected ++ "'") (text expected)

/-- A given word. -/
def keyword (word : String) : Rule Unit :=
  unfollowed ("'" ++ word ++ "'") Text.isNameChar (token word)

/-- A mark with blanks and comments around it. -/
def symbol (mark : String) : Rule Unit := spaced (token mark)

/-- A name. -/
def identifier : Rule String := inContext "identifier" do
  let first ← someChars Text.isNameStart
  let others ← charsWhile Text.isNameChar
  pure (String.ofList (first ++ others))

/-- A name that is no reserved word. -/
def variableName : Rule String :=
  checked "variable name" (!reservedWords.contains ·) identifier

/-- One or more decimal digits. -/
def digits : Rule (List Char) := someChars Char.isDigit

/-- Whether there is a minus sign. -/
def minus : Rule Bool := do pure (← optional (text "-")).isSome

def integer : Rule Int64 := inContext "integer" <|
  computed (do pure (← minus, ← digits)) fun (negative, digits) => int64OfDigits negative digits

/-- A whole number of 64 bits. -/
def wholeNumber : Rule UInt64 := computed digits uint64OfDigits

/-- A whole number of 32 bits, written as an integer. -/
def count : Rule UInt32 := computed integer uint32OfInt64

/-- A number without a sign: digits, and digits after a point. -/
def number : Rule Float := inContext "number" do
  let whole ← digits
  let fraction ← optional (do text "."; digits)
  let fraction := fraction.getD []
  pure (Number.Decimal.toFloat ⟨Number.digitsValue (whole ++ fraction), -(fraction.length : Int)⟩)

/-- A number with or without a minus sign. -/
def signedNumber : Rule Float := inContext "number" do
  let negative ← minus
  let magnitude ← number
  pure (if negative then -magnitude else magnitude)

def boolean : Rule Bool := inContext "boolean" <|
  (do keyword "true"; pure true) <|> (do keyword "false"; pure false)

/-- A string between double quotes. -/
def stringLiteral : Rule String := fun c =>
  match c.rest with
  | '"' :: rest =>
    match stringBody rest with
    | some (body, after) => .ok (String.ofList body) (c.advance (c.rest.length - after.length))
    | none => .abort ⟨c, .complaint "unterminated string literal"⟩
  | _ => .refuse ⟨c, .expected "string"⟩

def durationUnit : Rule DurationUnit :=
  (do text "ms"; pure .milliseconds) <|> (do text "s"; pure .seconds)

/-- A duration: a whole number and its unit. -/
def duration : Rule Duration :=
  unfollowed "duration" Text.isNameChar <|
    inContext "duration" do pure ⟨← wholeNumber, ← durationUnit⟩

/-- Two numbers in brackets. -/
def point : Rule Point := do
  symbol "["
  let x ← spaced signedNumber
  symbol ","
  let y ← spaced signedNumber
  symbol "]"
  pure ⟨x, y⟩

/-- The name of an agent, after a number sign. -/
def target : Rule String := inContext "target" do
  text "#"
  identifier

end Rule

end Storybook.Script
