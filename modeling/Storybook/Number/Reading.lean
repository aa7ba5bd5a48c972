/-
# `Storybook.Number.Reading` — numbers read from text

The notation of a number in a text: a sign, digits with or without a point, and an exponent;
or infinity and NaN by name, in any letter case.  The value is the double nearest to the
decimal.
-/
import Storybook.Number.Shortest

namespace Storybook.Number

/-- The value of a run of decimal digits. -/
def digitsValue (cs : List Char) : Nat :=
  cs.foldl (fun n c => 10 * n + (c.toNat - '0'.toNat)) 0

namespace Decimal

/-- The double nearest to a decimal.  Beyond the exponents of the doubles the answer is zero
or infinity, whatever the digits. -/
def toFloat (d : Decimal) : Float :=
  if d.digits = 0 then 0.0
  else if d.leading < -330 then 0.0
  else if 310 < d.leading then 1.0 / 0.0
  else if 0 ≤ d.exponent then Float.ofScientific d.digits false d.exponent.toNat
  else Float.ofScientific d.digits true (-d.exponent).toNat

/-- Zero and infinity outside of the guards, and between them what the library makes of the digits
and the exponent. -/
theorem toFloat_eq (d : Decimal) :
    d.toFloat = if d.digits = 0 ∨ d.leading < -330 then 0.0
      else if 310 < d.leading then 1.0 / 0.0
      else Float.ofScientific d.digits (decide (d.exponent < 0)) d.exponent.natAbs := by
  unfold toFloat
  by_cases hzero : d.digits = 0
  · rw [if_pos hzero, if_pos (.inl hzero)]
  · by_cases hleading : d.leading < -330
    · rw [if_neg hzero, if_pos hleading, if_pos (.inr hleading)]
    · rw [if_neg hzero, if_neg hleading, if_neg (not_or.mpr ⟨hzero, hleading⟩)]
      by_cases hexponent : 0 ≤ d.exponent
      · rw [if_pos hexponent, decide_eq_false (by omega),
          show d.exponent.toNat = d.exponent.natAbs by omega]
      · rw [if_neg hexponent, decide_eq_true (by omega),
          show (-d.exponent).toNat = d.exponent.natAbs by omega]

end Decimal

/-- The digits at the front of a text, and the rest of it. -/
def takeDigits (cs : List Char) : List Char × List Char :=
  (cs.takeWhile Char.isDigit, cs.dropWhile Char.isDigit)

/-- Whether a sign at the front makes a number negative, and the text after the sign. -/
def takeSign : List Char → Bool × List Char
  | '-' :: rest => (true, rest)
  | '+' :: rest => (false, rest)
  | rest => (false, rest)

/-- The exponent a text stands for as a whole: nothing, or a mark, a sign and digits. -/
def readExponent : List Char → Option Int
  | [] => some 0
  | mark :: rest =>
    if mark = 'e' ∨ mark = 'E' then
      let (negative, rest) := takeSign rest
      match takeDigits rest with
      | ([], _) => none
      | (digits, []) =>
        some (if negative then -(digitsValue digits : Int) else digitsValue digits)
      | (_, _ :: _) => none
    else none

/-- The decimal a text stands for as a whole, without its sign. -/
def readDecimal (cs : List Char) : Option Decimal :=
  let (whole, rest) := takeDigits cs
  let (fraction, rest) := match rest with
    | '.' :: rest => takeDigits rest
    | _ => ([], rest)
  if whole.isEmpty && fraction.isEmpty then none
  else (readExponent rest).map fun exponent =>
    ⟨digitsValue (whole ++ fraction), exponent - fraction.length⟩

/-- The number a text stands for as a whole. -/
def read (cs : List Char) : Option Float :=
  let (negative, rest) := takeSign cs
  let magnitude := match String.ofList (rest.map Char.toLower) with
    | "inf" | "infinity" => some (1.0 / 0.0)
    | "nan" => some (0.0 / 0.0)
    | _ => (readDecimal rest).map Decimal.toFloat
  magnitude.map fun x => if negative then -x else x

end Storybook.Number
