/-
# `Storybook.Json.Reader` — JSON values at the front of a text

A reader takes a value from the front of a text and leaves the rest, or refuses the text.
Blanks may stand in front of every token.

| number | is read as |
| :-- | :-- |
| digits without fraction and exponent, within 64 bits | an integer |
| any other | a double: the first digits that fit into 64 bits, scaled by a power of ten |
| negative zero | the double −0 |
| beyond the doubles | refused |

A value that nobody asks for is only *passed over*.  It must have the form of a value, but
need not be one that can be held: its numbers may be beyond the doubles, its strings may hold
half a pair of surrogates, and it may nest to any depth.
-/
import Storybook.Json.Basic
import Storybook.Number.Reading

namespace Storybook.Json

/-- A rule that reads a value at the front of a text and leaves the rest. -/
abbrev Reader (α : Type) := List Char → Option (α × List Char)

/-- Whether a character is a blank between tokens. -/
def isSpace (c : Char) : Bool := c == ' ' || c == '\n' || c == '\t' || c == '\r'

/-- The text without the blanks at its front. -/
def skipSpace (cs : List Char) : List Char := cs.dropWhile isSpace

/-- What a value is read for. -/
inductive Purpose where
  /-- The value is asked for. -/
  | hold
  /-- The value is passed over, and null or a zero character stands for what cannot be held. -/
  | passOver
deriving DecidableEq, Repr

/-! ## Strings -/

def hexValue? (c : Char) : Option Nat :=
  if '0' ≤ c ∧ c ≤ '9' then some (c.toNat - '0'.toNat)
  else if 'a' ≤ c ∧ c ≤ 'f' then some (c.toNat - 'a'.toNat + 10)
  else if 'A' ≤ c ∧ c ≤ 'F' then some (c.toNat - 'A'.toNat + 10)
  else none

/-- Four hexadecimal digits: a code unit. -/
def codeUnit : Reader Nat
  | a :: b :: c :: d :: rest => do
    let a ← hexValue? a
    let b ← hexValue? b
    let c ← hexValue? c
    let d ← hexValue? d
    pure (((a * 16 + b) * 16 + c) * 16 + d, rest)
  | _ => none

/-- The character of a code, which is one code unit, or a pair of surrogates written as two
escapes.  A surrogate alone is refused. -/
def pairedChar (cs : List Char) : Option (Char × List Char) := do
  let (unit, rest) ← codeUnit cs
  if 0xDC00 ≤ unit ∧ unit ≤ 0xDFFF then none
  else if 0xD800 ≤ unit ∧ unit ≤ 0xDBFF then
    match rest with
    | '\\' :: 'u' :: rest =>
      let (low, rest) ← codeUnit rest
      if 0xDC00 ≤ low ∧ low ≤ 0xDFFF then
        pure (Char.ofNat (0x10000 + (unit - 0xD800) * 0x400 + (low - 0xDC00)), rest)
      else none
    | _ => none
  else pure (Char.ofNat unit, rest)

/-- The character of an escape that gives its code. -/
def codedChar : Purpose → Reader Char
  | .hold => pairedChar
  | .passOver => fun cs => (codeUnit cs).map fun (unit, rest) => (Char.ofNat unit, rest)

/-- The character of an escape, after its backslash. -/
def escaped (purpose : Purpose) : Reader Char
  | '"' :: rest => some ('"', rest)
  | '\\' :: rest => some ('\\', rest)
  | '/' :: rest => some ('/', rest)
  | 'b' :: rest => some ('\x08', rest)
  | 'f' :: rest => some ('\x0c', rest)
  | 'n' :: rest => some ('\n', rest)
  | 'r' :: rest => some ('\r', rest)
  | 't' :: rest => some ('\t', rest)
  | 'u' :: rest => codedChar purpose rest
  | _ => none

/-- The characters of a string up to its closing quote, in reverse order after those read
before; `fuel` bounds their number. -/
def stringBody (purpose : Purpose) : Nat → List Char → Reader (List Char)
  | 0, _, _ => none
  | _ + 1, read, '"' :: rest => some (read.reverse, rest)
  | fuel + 1, read, '\\' :: rest => do
    let (c, rest) ← escaped purpose rest
    stringBody purpose fuel (c :: read) rest
  | fuel + 1, read, c :: rest =>
    if c.toNat < 0x20 then none else stringBody purpose fuel (c :: read) rest
  | _ + 1, _, [] => none

/-- A string, after its opening quote. -/
def string (purpose : Purpose) (cs : List Char) : Option (String × List Char) :=
  (stringBody purpose (cs.length + 1) [] cs).map fun (body, rest) => (String.ofList body, rest)

/-! ## Numbers -/

/-- The largest integer of 64 bits without sign. -/
def maxWord : Nat := UInt64.size - 1

/-- The largest exponent that is read digit by digit. -/
def maxExponent : Nat := 2147483647

/-- A significand and the digits that did not fit into 64 bits behind it: from the first digit
that does not fit, no further digit is taken. -/
def significand (start : Nat) : List Char → Nat × List Char
  | [] => (start, [])
  | c :: rest =>
    let next := 10 * start + (c.toNat - '0'.toNat)
    if next ≤ maxWord then significand next rest else (start, c :: rest)

/-- Ten to the power of a number up to 308, as a double. -/
def powerOfTen (n : Nat) : Float := Float.ofScientific 1 false n

/-- A double below ten to the power of −308, brought down in steps of that size. -/
def scaleDown : Nat → Float → Nat → Float
  | 0, x, _ => x
  | fuel + 1, x, places =>
    if places ≤ 308 then x / powerOfTen places
    else if x == 0.0 then x
    else scaleDown fuel (x / powerOfTen 308) (places - 308)

/-- The double `significand · 10 ^ exponent`, if it is finite. -/
def scale (significand : Nat) (exponent : Int) : Option Float :=
  let x := significand.toUInt64.toFloat
  if exponent < 0 then some (scaleDown exponent.natAbs x exponent.natAbs)
  else if x == 0.0 then some x
  else if 308 < exponent then none
  else
    let scaled := x * powerOfTen exponent.toNat
    if scaled.isFinite then some scaled else none

/-- The exponent of a number, if it has one: whether it is negative, its digits, and the rest
of the text. -/
def exponentPart : List Char → Option (Option (Bool × Nat) × List Char)
  | c :: rest =>
    if c = 'e' ∨ c = 'E' then
      let (negative, rest) := Number.takeSign rest
      match Number.takeDigits rest with
      | ([], _) => none
      | (digits, rest) => some (some (negative, Number.digitsValue digits), rest)
    else some (none, c :: rest)
  | [] => some (none, [])

/-- The magnitude of a number that is no integer: its whole digits, the digits after its
point, and its exponent. -/
def magnitude (whole fraction : List Char) (exponent : Option (Bool × Nat)) : Option Float :=
  let (m, left) := significand 0 whole
  let (m, skipped) := significand m fraction
  let point := (left.length : Int) - (fraction.length - skipped.length : Nat)
  match exponent with
  | none => scale m point
  | some (negative, e) =>
    if maxExponent < e then
      if m ≠ 0 ∧ !negative then none else some 0.0
    else scale m (if negative then point - e else point + e)

/-- Whether digits are a whole part: one digit, or several without a zero in front. -/
def isWholePart : List Char → Bool
  | [] => false
  | '0' :: _ :: _ => false
  | _ => true

/-- The value of a number: its sign, its whole digits, the digits after its point if there is
a point, and its exponent. -/
def numberValue (negative : Bool) (whole : List Char) (fraction : Option (List Char))
    (exponent : Option (Bool × Nat)) : Option Json :=
  let signed (x : Float) : Json := .float (if negative then -x else x)
  match fraction, exponent with
  | none, none =>
    let n := Number.digitsValue whole
    if negative then
      if n = 0 ∨ -(n : Int) < Int64.minValue.toInt then (magnitude whole [] none).map signed
      else some (.int (-(n : Int)))
    else if n ≤ maxWord then some (.int n)
    else (magnitude whole [] none).map signed
  | fraction, exponent => (magnitude whole (fraction.getD []) exponent).map signed

/-- The digits after a point, if the text begins with a point. -/
def fractionPart : List Char → Option (Option (List Char) × List Char)
  | '.' :: rest =>
    match Number.takeDigits rest with
    | ([], _) => none
    | (digits, rest) => some (some digits, rest)
  | rest => some (none, rest)

def number (purpose : Purpose) (cs : List Char) : Option (Json × List Char) := do
  let (negative, rest) := match cs with
    | '-' :: rest => (true, rest)
    | rest => (false, rest)
  let (whole, rest) := Number.takeDigits rest
  guard (isWholePart whole)
  let (fraction, rest) ← fractionPart rest
  let (exponent, rest) ← exponentPart rest
  match numberValue negative whole fraction exponent, purpose with
  | some value, _ => pure (value, rest)
  | none, .passOver => pure (.null, rest)
  | none, .hold => none

/-! ## Values -/

/-- The value of a word, if the text begins with the rest of that word. -/
def word (expected : String) (value : Json) (cs : List Char) : Option (Json × List Char) :=
  if expected.toList.isPrefixOf cs then some (value, cs.drop expected.length) else none

/-- The items of a list up to its closing bracket, from the rule for the item at each place;
`fuel` bounds their number. -/
def items (item : Nat → Reader Json) (place : Nat) : Nat → Reader (List Json)
  | 0, _ => none
  | fuel + 1, cs => do
    let (value, rest) ← item place cs
    match skipSpace rest with
    | ']' :: rest => pure ([value], rest)
    | ',' :: rest => do
      let (values, rest) ← items item (place + 1) fuel rest
      pure (value :: values, rest)
    | _ => none

/-- A list, after its opening bracket, from the rule for the item at each place. -/
def list (item : Nat → Reader Json) (cs : List Char) : Option (Json × List Char) :=
  match skipSpace cs with
  | ']' :: rest => some (.arr [], rest)
  | _ => (items item 0 (cs.length + 1) cs).map fun (values, rest) => (.arr values, rest)

/-- A name and its value, from the rule for the values of each name. -/
def field (purpose : Purpose) (item : String → Reader Json) (cs : List Char) :
    Option ((String × Json) × List Char) :=
  match skipSpace cs with
  | '"' :: rest => do
    let (name, rest) ← string purpose rest
    match skipSpace rest with
    | ':' :: rest => do
      let (value, rest) ← item name rest
      pure ((name, value), rest)
    | _ => none
  | _ => none

/-- The fields of an object up to its closing brace; `fuel` bounds their number. -/
def fields (purpose : Purpose) (item : String → Reader Json) : Nat → Reader (List (String × Json))
  | 0, _ => none
  | fuel + 1, cs => do
    let (entry, rest) ← field purpose item cs
    match skipSpace rest with
    | '\x7d' :: rest => pure ([entry], rest)
    | ',' :: rest => do
      let (entries, rest) ← fields purpose item fuel rest
      pure (entry :: entries, rest)
    | _ => none

/-- An object, after its opening brace, from the rule for the values of each name. -/
def object (purpose : Purpose) (item : String → Reader Json) (cs : List Char) :
    Option (Json × List Char) :=
  match skipSpace cs with
  | '\x7d' :: rest => some (.obj [], rest)
  | _ => (fields purpose item (cs.length + 1) cs).map fun (entries, rest) => (.obj entries, rest)

/-- A value, given the rule for the values inside lists and objects; without such a rule
lists and objects are refused. -/
def valueOver (purpose : Purpose) (inner : Option (Reader Json)) (cs : List Char) :
    Option (Json × List Char) :=
  match skipSpace cs with
  | 'n' :: rest => word "ull" .null rest
  | 't' :: rest => word "rue" (.bool true) rest
  | 'f' :: rest => word "alse" (.bool false) rest
  | '"' :: rest => (string purpose rest).map fun (s, rest) => (.str s, rest)
  | '[' :: rest => inner.bind fun item => list (fun _ => item) rest
  | '\x7b' :: rest => inner.bind fun item => object purpose (fun _ => item) rest
  | rest => number purpose rest

/-- A value whose lists and objects nest at most `room` deep. -/
def value (purpose : Purpose) : (room : Nat) → Reader Json
  | 0 => valueOver purpose none
  | room + 1 => valueOver purpose (some (value purpose room))

/-- A value that is passed over, at any depth: it nests no deeper than it is long. -/
def passedOver : Reader Json := fun cs => value .passOver cs.length cs

end Storybook.Json
