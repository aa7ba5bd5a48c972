/-
# `Storybook.Proofs.Number.Rounding` — the guards of a decimal only save work

`Decimal.toFloat` looks at the exponent of the first digit before it computes any power of ten, and
answers zero or infinity beyond the exponents of the doubles.  What the library makes of such a
decimal is the same.  Below `10 ^ -330` its quotient has no bit that a double can hold, and what
is left is less than half of the last one; from `10 ^ 311` on the mantissa, rounded or not, has an
exponent that only an infinity has.

| | |
| :-- | :-- |
| rounding keeps the exponent of a number or raises it | `roundWithAccuracy_eq_finite` |
| a number above all doubles becomes an infinity | `pack_roundWithAccuracy_of_large` |
| the value of a decimal, without guards | `Decimal.toFloat_eq_ofScientific` |
-/
import Mathlib.Algebra.Order.Ring.Int
import Storybook.Number.Reading

namespace Storybook.Number

open Float.Model (Format UnpackedFloat totalExponent)
open Float.Model.UnpackedFloat

/-! ## Rounding -/

theorem mantissa_shiftRight (em : ExtendedMantissa) (n : Nat) :
    (em >>> n).mantissa = em.mantissa / 2 ^ n := by
  induction n with
  | zero => exact (Nat.div_one _).symm
  | succ n ih =>
    show (em >>> n).mantissa / 2 = _
    rw [ih, Nat.div_div_eq_div_mul, Nat.pow_succ]

theorem mantissa_le_roundedMantissa (em : ExtendedMantissa) : em.mantissa ≤ em.roundedMantissa := by
  obtain ⟨mantissa, round, sticky⟩ := em
  cases round <;> cases sticky
  · exact Nat.le_refl _
  · exact Nat.le_refl _
  · exact Nat.le_add_right _ _
  · exact Nat.le_succ _

theorem mantissa_ofMantissaAndAccuracy (m : Nat) (accuracy : Accuracy) :
    (ExtendedMantissa.ofMantissaAndAccuracy m accuracy).mantissa = m := by
  cases accuracy with
  | exact => rfl
  | inexact o => cases o <;> rfl

variable (spec : Format) {m : Nat} {e : Int} (accuracy : Accuracy)

/-- A number with its first bit among those that the format holds keeps this bit when it is shifted
to the exponent where it belongs. -/
theorem shiftToTargetExponent_keeps (hm : 0 < m) (he : spec.minExponent ≤ m.log2 + e) :
    0 < (shiftToTargetExponent spec m e accuracy).1.mantissa ∧
      spec.targetExponent (totalExponent m e) ≤ (shiftToTargetExponent spec m e accuracy).2 ∧
        e ≤ (shiftToTargetExponent spec m e accuracy).2 := by
  have htarget : spec.targetExponent (totalExponent m e) - e ≤ m.log2 := by
    unfold Format.targetExponent Format.mantissaBits totalExponent
    omega
  have hexponent : (shiftToTargetExponent spec m e accuracy).2 =
      e + ((spec.targetExponent (totalExponent m e) - e).toNat : Int) := rfl
  refine ⟨?_, by omega, by omega⟩
  unfold shiftToTargetExponent shiftToExponent
  rw [mantissa_shiftRight, mantissa_ofMantissaAndAccuracy]
  refine Nat.div_pos ?_ (Nat.two_pow_pos _)
  exact (Nat.le_log2 (Nat.pos_iff_ne_zero.mp hm)).mp (by omega)

/-- Such a number is not rounded to zero, and not to an exponent below the one where it belongs. -/
theorem roundWithAccuracy_eq_finite (s : Sign) (hm : 0 < m)
    (he : spec.minExponent ≤ m.log2 + e) :
    ∃ m' e' h, roundWithAccuracy spec s m e accuracy = .finite s m' e' h ∧
      spec.targetExponent (totalExponent m e) ≤ e' := by
  obtain ⟨hpos, htarget, -⟩ := shiftToTargetExponent_keeps spec accuracy hm he
  unfold roundWithAccuracy
  generalize shiftToTargetExponent spec m e accuracy = first at hpos htarget
  obtain ⟨em, e₁⟩ := first
  have hrounded : 0 < em.roundedMantissa :=
    Nat.lt_of_lt_of_le hpos (mantissa_le_roundedMantissa em)
  have hmin : spec.minExponent ≤ spec.targetExponent (totalExponent m e) := Int.le_max_right _ _
  have hexponent : spec.targetExponent (totalExponent m e) ≤ e₁ := htarget
  obtain ⟨hfinal, -, hle⟩ := shiftToTargetExponent_keeps spec .exact hrounded
    (show spec.minExponent ≤ em.roundedMantissa.log2 + e₁ by omega)
  dsimp only
  rw [dif_neg (Nat.pos_iff_ne_zero.mp hfinal)]
  exact ⟨_, _, Nat.pos_of_ne_zero (Nat.pos_iff_ne_zero.mp hfinal), rfl, by omega⟩

/-- A number above all doubles becomes an infinity. -/
theorem pack_roundWithAccuracy_of_large (s : Sign) (hm : 0 < m) (he : 1024 ≤ m.log2 + e) :
    Float.Model.pack (roundWithAccuracy .binary64 s m e accuracy) =
      Float.Model.pack (.infinity s) := by
  obtain ⟨m', e', h, hround, hle⟩ :=
    roundWithAccuracy_eq_finite .binary64 accuracy s hm (Int.le_trans (by decide) he)
  have hlarge : (m.log2 : Int) + 1 + e - 53 ≤ e' := Int.le_trans (Int.le_max_left _ _) hle
  have hpack : pack .binary64 (.finite s m' e' h) = packedInfinity .binary64 s :=
    if_pos (show 2048 ≤ (e' + 1023 + 52).toNat + 1 by omega)
  rw [hround]
  unfold Float.Model.pack
  congr 2

/-! ## Powers of ten -/

theorem pow_le_of_digits {n : Nat} (hn : 0 < n) : 10 ^ (digitCount n - 1) ≤ n := by
  cases hcount : digitCount n - 1 with
  | zero => exact hn
  | succ k =>
    rw [← Nat.not_lt, ← Nat.length_toDigits_le_iff (by decide) k.succ_pos]
    show ¬ digitCount n ≤ k + 1
    omega

theorem lt_pow_digitCount (n : Nat) : n < 10 ^ digitCount n :=
  (Nat.length_toDigits_le_iff (by decide) Nat.length_toDigits_pos).mp (Nat.le_refl _)

theorem mul_pow_le_pow {m a c k : Nat} (hm : m ≤ 10 ^ c) (h : c + a ≤ k) :
    m * 10 ^ a ≤ 10 ^ k :=
  calc m * 10 ^ a ≤ 10 ^ c * 10 ^ a := Nat.mul_le_mul_right _ hm
    _ = 10 ^ (c + a) := (Nat.pow_add ..).symm
    _ ≤ 10 ^ k := Nat.pow_le_pow_right (by decide) h

theorem mul_pow_le {m a c k : Nat} (hm : 10 ^ c ≤ m) (h : a + k ≤ c) : 10 ^ a * 10 ^ k ≤ m :=
  calc 10 ^ a * 10 ^ k = 10 ^ (a + k) := (Nat.pow_add ..).symm
    _ ≤ 10 ^ c := Nat.pow_le_pow_right (by decide) h
    _ ≤ m := hm

theorem pow_le_mul_pow {m a c k : Nat} (hm : 10 ^ c ≤ m) (h : a ≤ c + k) :
    10 ^ a ≤ m * 10 ^ k :=
  calc 10 ^ a ≤ 10 ^ (c + k) := Nat.pow_le_pow_right (by decide) h
    _ = 10 ^ c * 10 ^ k := Nat.pow_add ..
    _ ≤ m * 10 ^ k := Nat.mul_le_mul_right _ hm

/-! ## Bits -/

theorem two_mul_shiftLeft_lt {m n s a : Nat} (hm : 0 < m) (hlt : 2 ^ (s + 1) < 10 ^ a)
    (hle : m * 10 ^ a ≤ n) : 2 * m <<< s < n := by
  rw [← Nat.shiftLeft_succ, Nat.shiftLeft_eq]
  exact Nat.lt_of_lt_of_le (Nat.mul_lt_mul_of_pos_left hlt hm) hle

theorem le_log2_of_le {n k b : Nat} (hb : 2 ^ k ≤ b) (h : b ≤ n) : k ≤ n.log2 :=
  have hpos : 0 < n := Nat.lt_of_lt_of_le (Nat.two_pow_pos k) (Nat.le_trans hb h)
  (Nat.le_log2 (Nat.pos_iff_ne_zero.mp hpos)).mpr (Nat.le_trans hb h)

theorem log2_add_le {m n s : Nat} (hm : 0 < m) (h : m <<< s ≤ n) : m.log2 + s ≤ n.log2 := by
  have hpow : 2 ^ (m.log2 + s) ≤ m <<< s := by
    rw [Nat.shiftLeft_eq, Nat.pow_add]
    exact Nat.mul_le_mul_right _ (Nat.log2_self_le (Nat.pos_iff_ne_zero.mp hm))
  exact le_log2_of_le hpow h

/-! ## Quotients -/

/-- The exponent of a quotient of whole numbers. -/
theorem quotientExponent_eq (m n : Nat) :
    min ((0 : Int) - 0)
        (Format.binary64.targetExponent (totalExponent m 0 - totalExponent n 0)) =
      min 0 (max ((m.log2 : Int) - n.log2 - 53) (-1074)) := by
  show min ((0 : Int) - 0) (max ((m.log2 : Int) + 1 + 0 - (n.log2 + 1 + 0) - 53) (-1074)) = _
  omega

/-- A quotient of less than half of the last bit of the doubles. -/
theorem divCore_of_small {m n : Nat} (hm : 0 < m) (h : 2 * m <<< 1074 < n) :
    divCore .binary64 m 0 n 0 = (0, -1074, .inexact .lt) := by
  have hlog : m.log2 + 1074 ≤ n.log2 := log2_add_le hm (by omega)
  have hpos : 0 < m <<< 1074 := Nat.shiftLeft_pos_iff.mpr hm
  have htarget : min 0 (max ((m.log2 : Int) - n.log2 - 53) (-1074)) = -1074 := by omega
  unfold divCore
  dsimp only
  rw [quotientExponent_eq, htarget, show ((0 : Int) - 0 - -1074).toNat = 1074 from rfl, Nat.div_eq_of_lt (by omega),
    Nat.mod_eq_of_lt (by omega), accuracyOfFraction, if_neg (by omega),
    Nat.compare_eq_lt.mpr h]

/-- A quotient with more bits than a double has is the quotient of whole numbers. -/
theorem divCore_of_large {m n : Nat} (hn : 0 < n) (h : n <<< 53 ≤ m) :
    divCore .binary64 m 0 n 0 = (m / n, 0, accuracyOfFraction (m % n) n) := by
  have hlog : n.log2 + 53 ≤ m.log2 := log2_add_le hn h
  have htarget : min 0 (max ((m.log2 : Int) - n.log2 - 53) (-1074)) = 0 := by omega
  unfold divCore
  dsimp only
  rw [quotientExponent_eq, htarget]
  rfl

/-! ## Decimals beyond the doubles -/

theorem zero_lt_exponents : (0 : Int) < 2 ^ Format.binary64.exponentBits := by decide

/-- A decimal below `10 ^ -330`. -/
theorem ofScientific_of_small {m k : Nat} (hm : 0 < m) (hk : 0 < k) (h : m * 10 ^ 330 ≤ 10 ^ k) :
    UnpackedFloat.ofScientific .binary64 m (-k) = .zero .positive := by
  have hcore : divCore .binary64 m 0 (10 ^ k) 0 = (0, -1074, .inexact .lt) :=
    divCore_of_small hm (two_mul_shiftLeft_lt hm (by decide +kernel) h)
  have hroom := zero_lt_exponents
  unfold UnpackedFloat.ofScientific
  rw [dif_neg (Nat.pos_iff_ne_zero.mp hm), if_neg (by omega)]
  by_cases hguard : -(k : Int) < -((2 ^ Format.binary64.exponentBits : Int) + m.log2)
  · rw [if_pos hguard]
  · rw [if_neg hguard, if_neg (by omega)]
    unfold UnpackedFloat.div
    dsimp only
    rw [show (- -(k : Int)).toNat = k by omega, hcore]
    rfl

theorem bits_of_large {n : Nat} (h : 10 ^ 311 ≤ n) : 0 < n ∧ 1024 ≤ n.log2 :=
  ⟨Nat.lt_of_lt_of_le (by decide +kernel) h, le_log2_of_le (by decide +kernel) h⟩

/-- A whole number from `10 ^ 311` on. -/
theorem pack_ofScientific_of_large {m k : Nat} (h : 10 ^ 311 ≤ m * 10 ^ k) :
    Float.Model.pack (UnpackedFloat.ofScientific .binary64 m k) =
      Float.Model.pack (.infinity .positive) := by
  obtain ⟨hpos, hbits⟩ := bits_of_large h
  have hlog : (m * 10 ^ k).log2 + 53 ≤ (m <<< 53 * 10 ^ k).log2 := by
    refine log2_add_le hpos (Nat.le_of_eq ?_)
    rw [Nat.shiftLeft_eq, Nat.shiftLeft_eq, Nat.mul_right_comm]
  have hm : 0 < m := Nat.pos_of_mul_pos_right hpos
  have hten : 0 < 10 ^ k := Nat.pow_pos (by decide)
  have hroom := zero_lt_exponents
  unfold UnpackedFloat.ofScientific
  rw [dif_neg (Nat.pos_iff_ne_zero.mp hm)]
  by_cases hguard : (k : Int) > 2 ^ Format.binary64.exponentBits
  · rw [if_pos hguard]
  · rw [if_neg hguard, if_neg (by omega), if_pos (Int.natCast_nonneg k)]
    exact pack_roundWithAccuracy_of_large _ .positive
      (Nat.mul_pos (Nat.shiftLeft_pos_iff.mpr hm) hten)
      (show (1024 : Int) ≤ (m <<< 53 * 10 ^ k).log2 + (-53 + 0) by omega)

/-- A quotient from `10 ^ 311` on. -/
theorem pack_ofScientific_neg_of_large {m k : Nat} (hk : 0 < k) (h : 10 ^ 311 * 10 ^ k ≤ m) :
    Float.Model.pack (UnpackedFloat.ofScientific .binary64 m (-k)) =
      Float.Model.pack (.infinity .positive) := by
  have hten : 0 < 10 ^ k := Nat.pow_pos (by decide)
  obtain ⟨hpos, hlarge⟩ := bits_of_large ((Nat.le_div_iff_mul_le hten).mpr h)
  have hcore : divCore .binary64 m 0 (10 ^ k) 0 =
      (m / 10 ^ k, 0, accuracyOfFraction (m % 10 ^ k) (10 ^ k)) := by
    have hten53 : 2 ^ 53 ≤ 10 ^ 311 := by decide +kernel
    refine divCore_of_large hten ?_
    calc 10 ^ k <<< 53 = 2 ^ 53 * 10 ^ k := by rw [Nat.shiftLeft_eq, Nat.mul_comm]
      _ ≤ 10 ^ 311 * 10 ^ k := Nat.mul_le_mul_right _ hten53
      _ ≤ m := h
  have hm : m ≠ 0 := by
    rintro rfl
    rw [Nat.zero_div] at hpos
    exact Nat.lt_irrefl 0 hpos
  have hbits : k ≤ m.log2 :=
    le_log2_of_le (Nat.pow_le_pow_left (by decide) k)
      (Nat.le_trans (Nat.le_mul_of_pos_left _ (by decide +kernel)) h)
  have hroom := zero_lt_exponents
  unfold UnpackedFloat.ofScientific
  rw [dif_neg hm, if_neg (by omega), if_neg (by omega), if_neg (by omega)]
  unfold UnpackedFloat.div
  dsimp only
  rw [show (- -(k : Int)).toNat = k by omega, hcore]
  exact pack_roundWithAccuracy_of_large _ .positive hpos
    (show (1024 : Int) ≤ (m / 10 ^ k).log2 + 0 by omega)

/-- Unless digits and power are both doubles as they are, the library goes through its model. -/
theorem ofScientific_eq_ofModel {m k : Nat} (s : Bool) (h : ¬ (m < 2 ^ 53 ∧ k ≤ 22)) :
    Float.ofScientific m s k = Float.ofModel (Float.Model.pack
      (UnpackedFloat.ofScientific .binary64 m (if s then -k else k))) := by
  unfold Float.ofScientific
  rw [dif_neg h]
  cases s with
  | false => rfl
  | true =>
    show Float.ofModel (Float.Model.ofScientific m (Int.negOfNat k)) = _
    rw [Int.negOfNat_eq]
    rfl

theorem ofScientific_zero (s : Bool) (k : Nat) : Float.ofScientific 0 s k = 0.0 := by
  by_cases hk : k ≤ 22
  · have hall : ∀ s, ∀ k : Fin 23, Float.ofScientific 0 s k = 0.0 := by decide +kernel
    exact hall s ⟨k, by omega⟩
  · rw [ofScientific_eq_ofModel s (fun h => hk h.2)]
    rfl

namespace Decimal

variable {d : Decimal}

theorem ofScientific_of_leading_lt (hd : 0 < d.digits) (h : d.leading < -330) :
    Float.ofScientific d.digits (decide (d.exponent < 0)) d.exponent.natAbs = 0.0 := by
  have hcount : 0 < digitCount d.digits := Nat.length_toDigits_pos
  unfold leading at h
  generalize hk : d.exponent.natAbs = k
  have hexponent : d.exponent < 0 := by omega
  have hsmall : d.digits * 10 ^ 330 ≤ 10 ^ k :=
    mul_pow_le_pow (a := 330) (Nat.le_of_lt (lt_pow_digitCount d.digits)) (by omega)
  rw [decide_eq_true hexponent, ofScientific_eq_ofModel true (by omega), if_pos rfl,
    ofScientific_of_small hd (by omega) hsmall]
  rfl

theorem ofScientific_of_lt_leading (hd : 0 < d.digits) (h : 310 < d.leading) :
    Float.ofScientific d.digits (decide (d.exponent < 0)) d.exponent.natAbs = 1.0 / 0.0 := by
  have hcount : 0 < digitCount d.digits := Nat.length_toDigits_pos
  have hdigits := pow_le_of_digits hd
  unfold leading at h
  generalize hk : d.exponent.natAbs = k
  have hslow : ¬ (d.digits < 2 ^ 53 ∧ k ≤ 22) := by
    rintro ⟨hm, hle⟩
    have hten : 2 ^ 53 ≤ 10 ^ (digitCount d.digits - 1) :=
      calc 2 ^ 53 ≤ 10 ^ 16 := by decide
        _ ≤ 10 ^ (digitCount d.digits - 1) := Nat.pow_le_pow_right (by decide) (by omega)
    exact absurd hm (Nat.not_lt.mpr (Nat.le_trans hten hdigits))
  have hlarge : Float.Model.pack (UnpackedFloat.ofScientific .binary64 d.digits
      (if decide (d.exponent < 0) = true then -k else k)) =
        Float.Model.pack (.infinity .positive) := by
    by_cases hexponent : d.exponent < 0
    · rw [if_pos (decide_eq_true hexponent)]
      exact pack_ofScientific_neg_of_large (k := k) (by omega)
        (mul_pow_le (a := 311) (k := k) hdigits (by omega))
    · rw [if_neg (by simpa using hexponent)]
      exact pack_ofScientific_of_large (pow_le_mul_pow (a := 311) hdigits (by omega))
  rw [ofScientific_eq_ofModel _ hslow, hlarge]
  decide +kernel

/-- The value of a decimal is what the library makes of its digits and its exponent. -/
theorem toFloat_eq_ofScientific (d : Decimal) :
    d.toFloat = Float.ofScientific d.digits (decide (d.exponent < 0)) d.exponent.natAbs := by
  rw [toFloat_eq]
  by_cases hzero : d.digits = 0
  · rw [if_pos (.inl hzero), hzero, ofScientific_zero]
  · have hd : 0 < d.digits := Nat.pos_of_ne_zero hzero
    by_cases hsmall : d.leading < -330
    · rw [if_pos (.inr hsmall), ofScientific_of_leading_lt hd hsmall]
    · rw [if_neg (not_or.mpr ⟨hzero, hsmall⟩)]
      by_cases hlarge : 310 < d.leading
      · rw [if_pos hlarge, ofScientific_of_lt_leading hd hlarge]
      · rw [if_neg hlarge]

example : (⟨325, -2⟩ : Decimal).toFloat = 3.25 := by decide +kernel

end Decimal

end Storybook.Number
