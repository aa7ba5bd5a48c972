/-
# `Storybook.Number.Shortest` — the fewest decimal digits that read back

A finite double `m · 2 ^ q` is what all reals of an interval around it round to.  The text of
the number is the decimal of that interval with the fewest digits, and among those the one
nearest to the number.  The search goes through grids of one, two, … seventeen digits; on
each grid only the two neighbours of the number can lie in the interval and be nearest.
-/
import Storybook.Number.Dyadic

namespace Storybook.Number

/-- The decimal `digits · 10 ^ exponent`. -/
structure Decimal where
  digits : Nat
  exponent : Int
deriving DecidableEq, Repr

/-- Which of two equally near neighbours is taken. -/
inductive Tie where
  /-- The neighbour whose last digit is even. -/
  | toEven
  /-- The greater neighbour. -/
  | up
deriving DecidableEq, Repr

/-- How many decimal digits a whole number has; zero has one. -/
def digitCount (n : Nat) : Nat := (Nat.toDigits 10 n).length

/-- The quotient rounded to the nearest whole number, a half as `tie` says. -/
def roundQuotient (tie : Tie) (num den : Nat) : Nat :=
  let floor := num / den
  let rest := num % den
  if 2 * rest < den then floor
  else if den < 2 * rest then floor + 1
  else match tie with
    | .up => floor + 1
    | .toEven => if floor % 2 = 0 then floor else floor + 1

namespace Decimal

/-- The decimal exponent of the first digit. -/
def leading (d : Decimal) : Int := d.exponent + (digitCount d.digits : Int) - 1

/-- The same decimal without zeros at the end of its digits; `fuel` bounds their number. -/
def trimZeros : Nat → Decimal → Decimal
  | 0, d => d
  | fuel + 1, d =>
    if d.digits ≠ 0 ∧ d.digits % 10 = 0 then trimZeros fuel ⟨d.digits / 10, d.exponent + 1⟩
    else d

/-- The decimal exponent of the first digit of a positive ratio: the greatest `e` with
`10 ^ e ≤ num / den`. -/
def leadingExponent (num den : Nat) : Int :=
  if den ≤ num then (digitCount (num / den) : Int) - 1
  else -(digitCount ((den - 1) / num) : Int)

/-- The interval of reals that round to a double: it runs from `low / unit` to `high / unit`
around `middle / unit`, and holds its ends when `closed`. -/
structure Interval where
  low : Nat
  middle : Nat
  high : Nat
  unit : Nat
  closed : Bool

/-- The interval that rounds to `mantissa · 2 ^ exponent`.  Below a power of two the doubles
lie twice as close, except at the smallest exponent. -/
def interval (d : Dyadic) : Interval :=
  let scale := Nat.pow 2 (d.exponent - 2).toNat
  let below := if d.mantissa = Dyadic.hiddenBit ∧ d.exponent ≠ -1074 then 1 else 2
  { low := (4 * d.mantissa - below) * scale
    middle := 4 * d.mantissa * scale
    high := (4 * d.mantissa + 2) * scale
    unit := Nat.pow 2 (2 - d.exponent).toNat
    closed := d.mantissa % 2 = 0 }

/-- The multiple of `10 ^ place` in the interval that is nearest to its middle, if there is
one: the neighbour of the middle on either side, or the nearer of both. -/
def onGrid (tie : Tie) (i : Interval) (place : Int) : Option Decimal :=
  let up := Nat.pow 10 (-place).toNat
  let step := i.unit * Nat.pow 10 place.toNat
  let inside (c : Nat) : Bool :=
    if i.closed then i.low * up ≤ c * step && c * step ≤ i.high * up
    else i.low * up < c * step && c * step < i.high * up
  let floor := i.middle * up / step
  match inside floor, inside (floor + 1) with
  | true, true => some ⟨roundQuotient tie (i.middle * up) step, place⟩
  | true, false => some ⟨floor, place⟩
  | false, true => some ⟨floor + 1, place⟩
  | false, false => none

/-- Every digit of a value. -/
def exact (d : Dyadic) : Decimal :=
  if 0 ≤ d.exponent then ⟨d.mantissa * Nat.pow 2 d.exponent.toNat, 0⟩
  else ⟨d.mantissa * Nat.pow 5 (-d.exponent).toNat, d.exponent⟩

/-- The shortest decimal that reads back as the magnitude of a double.  Seventeen digits
always suffice. -/
def shortest (tie : Tie) (d : Dyadic) : Decimal :=
  if d.mantissa = 0 then ⟨0, 0⟩
  else
    let i := interval d
    let lead := leadingExponent i.middle i.unit
    let found := (List.range 17).findSome? fun (k : Nat) => onGrid tie i (lead - k)
    trimZeros 400 (found.getD (exact d))

end Decimal

end Storybook.Number
