/-
# `Storybook.Number.Notation` — numbers as text

Three notations of a number: the text a story shows (`display`), the text of a number in a
JSON document (`jsonText`), and a number rounded to a fixed count of decimal places
(`fixed`).
-/
import Storybook.Number.Shortest

namespace Storybook.Number

namespace Decimal

/-- The digits before and after the point; there is at least one before it. -/
def split (d : Decimal) : List Char × List Char :=
  if 0 ≤ d.exponent then
    (Nat.toDigits 10 d.digits ++ List.replicate d.exponent.toNat '0', [])
  else
    let places := (-d.exponent).toNat
    let digits := Nat.toDigits 10 d.digits
    let padded := List.replicate (places + 1 - digits.length) '0' ++ digits
    (padded.take (padded.length - places), padded.drop (padded.length - places))

/-- The text with a point only if digits follow it. -/
def positional (d : Decimal) : String :=
  match d.split with
  | (whole, []) => String.ofList whole
  | (whole, fraction) => String.ofList (whole ++ '.' :: fraction)

/-- One digit, the others after a point, and the exponent with its sign. -/
def scientific (d : Decimal) : String :=
  let mantissa := match Nat.toDigits 10 d.digits with
    | first :: second :: rest => first :: '.' :: second :: rest
    | digits => digits
  let sign := if d.leading < 0 then "e-" else "e+"
  String.ofList mantissa ++ sign ++ toString d.leading.natAbs

end Decimal

/-- The text of the magnitude after a minus sign where the value is negative. -/
def withSign (negative : Bool) (text : String) : String :=
  if negative then "-" ++ text else text

/-- The text of a number in a story: whole numbers below 10^15 without a point (and zero
without a sign), all others with the fewest digits and never an exponent. -/
def display (x : Float) : String :=
  match Dyadic.ofFloat? x with
  | none => if x.isNaN then "NaN" else if x < 0.0 then "-Infinity" else "Infinity"
  | some d =>
    if d.isWhole ∧ d.floor.natAbs < Nat.pow 10 15 then toString d.floor
    else withSign d.negative (Decimal.shortest .up d).positional

/-- The text of a finite number in a JSON document: the fewest digits, with a fraction or an
exponent, positional where the first digit stands for 10^-5 to 10^15.  Infinities and NaN
have no text. -/
def jsonText? (x : Float) : Option String :=
  (Dyadic.ofFloat? x).map fun d =>
    let decimal := Decimal.shortest .toEven d
    withSign d.negative <|
      if -5 ≤ decimal.leading ∧ decimal.leading ≤ 15 then
        if 0 ≤ decimal.exponent then decimal.positional ++ ".0" else decimal.positional
      else decimal.scientific

/-- The value rounded to `places` decimal places, a half to the even neighbour; a value that
rounds to zero has no sign. -/
def fixed (places : Nat) (x : Float) : String :=
  match Dyadic.ofFloat? x with
  | none => if x.isNaN then "NaN" else if x < 0.0 then "-inf" else "inf"
  | some d =>
    let scaled := roundQuotient .toEven (d.ratio.1 * Nat.pow 10 places) d.ratio.2
    withSign (d.negative && scaled != 0) (Decimal.positional ⟨scaled, -(places : Int)⟩)

end Storybook.Number
