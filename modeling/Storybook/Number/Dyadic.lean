/-
# `Storybook.Number.Dyadic` — the exact value of a number

A finite double is a signed whole number of some power of two.  `Dyadic` holds that value
exactly, so that rounding, remainders and decimal notation can be computed on whole numbers,
and `toFloat` goes back to the double whenever the value has one.
-/

namespace Storybook.Number

/-- The value `± mantissa · 2 ^ exponent`. -/
structure Dyadic where
  negative : Bool
  mantissa : Nat
  exponent : Int
deriving DecidableEq, Repr

namespace Dyadic

/-- The bit of a mantissa that is not stored; the stored bits lie below it. -/
def hiddenBit : Nat := Nat.pow 2 52

/-- The value of a finite double; infinities and NaN have none. -/
def ofFloat? (x : Float) : Option Dyadic :=
  let bits : Nat := x.toBits.toNat
  let negative := bits >>> 63 == 1
  let biased := (bits >>> 52) % 2048
  let fraction := bits % hiddenBit
  if biased = 2047 then none
  else if biased = 0 then some ⟨negative, fraction, -1074⟩
  else some ⟨negative, hiddenBit + fraction, (biased : Int) - 1075⟩

/-- The double nearest to `mantissa · 2 ^ exponent`, with the sign of the value. -/
def toFloat (d : Dyadic) : Float :=
  let magnitude :=
    if 0 ≤ d.exponent then Float.ofNat (d.mantissa * Nat.pow 2 d.exponent.toNat)
    else
      let places := (-d.exponent).toNat
      Float.ofScientific (d.mantissa * Nat.pow 5 places) true places
  if d.negative then -magnitude else magnitude

/-- The magnitude as a ratio of two whole numbers. -/
def ratio (d : Dyadic) : Nat × Nat :=
  (d.mantissa * Nat.pow 2 d.exponent.toNat, Nat.pow 2 (-d.exponent).toNat)

def isWhole (d : Dyadic) : Bool := d.ratio.1 % d.ratio.2 == 0

/-- The magnitude with its sign put back. -/
def signed (d : Dyadic) (magnitude : Nat) : Int :=
  if d.negative then -Int.ofNat magnitude else Int.ofNat magnitude

/-- The greatest whole number not above the value. -/
def floor (d : Dyadic) : Int := d.signed d.ratio.1 / (d.ratio.2 : Int)

/-- The nearest whole number; a half goes away from zero. -/
def roundAway (d : Dyadic) : Int :=
  d.signed ((2 * d.ratio.1 + d.ratio.2) / (2 * d.ratio.2))

/-- What is left of `d` after taking away `e` as often as it fits, with the sign of `d`.
The remainder by zero is `d` itself. -/
def remainder (d e : Dyadic) : Dyadic :=
  let unit := min d.exponent e.exponent
  let whole (f : Dyadic) : Nat := f.mantissa * Nat.pow 2 (f.exponent - unit).toNat
  ⟨d.negative, whole d % whole e, unit⟩

end Dyadic

/-- The remainder of a division truncated toward zero: it has the sign of `x`, is `x` itself
for an infinite `y`, and NaN where `x` is infinite or `y` is zero. -/
def remainder (x y : Float) : Float :=
  if x.isNaN || y.isNaN then 0.0 / 0.0
  else match Dyadic.ofFloat? x, Dyadic.ofFloat? y with
    | none, _ => 0.0 / 0.0
    | some _, none => x
    | some d, some e => if e.mantissa = 0 then 0.0 / 0.0 else (d.remainder e).toFloat

/-- An integer of 64 bits for a number, given the integer of a finite value; too large values
stop at the limits of the type and NaN gives zero. -/
def toInt64With (whole : Dyadic → Int) (x : Float) : Int64 :=
  match Dyadic.ofFloat? x with
  | some d => Int64.ofIntClamp (whole d)
  | none => if x.isNaN then 0 else if x < 0.0 then Int64.minValue else Int64.maxValue

/-- The nearest integer of 64 bits, a half away from zero. -/
def roundToInt64 (x : Float) : Int64 := toInt64With Dyadic.roundAway x

/-- The greatest integer of 64 bits not above a number. -/
def floorToInt64 (x : Float) : Int64 := toInt64With Dyadic.floor x

end Storybook.Number
