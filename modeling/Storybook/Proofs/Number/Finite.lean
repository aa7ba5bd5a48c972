/-
# `Storybook.Proofs.Number.Finite` — minus keeps a number finite

The sign of a double is a bit of its own.  What makes it infinite or NaN is its exponent, the
greatest one there is; and minus leaves the exponent as it was.
-/
import Storybook.Number.Reading

namespace Storybook.Number

open Float.Model (Format UnpackedFloat)
open Float.Model.UnpackedFloat

variable {spec : Format}

theorem isFinite_unpack (b : BitVec spec.numBits) :
    (unpack spec b).isFinite = decide (unpackExponent b ≠ -1#_) := by
  unfold unpack
  by_cases hexponent : unpackExponent b = -1#_
  · rw [if_pos hexponent, decide_eq_false (not_not_intro hexponent)]
    by_cases hmantissa : unpackMantissa b = 0#_
    · rw [if_pos hmantissa]
      rfl
    · rw [if_neg hmantissa]
      rfl
  · rw [if_neg hexponent, decide_eq_true hexponent]
    by_cases hzero : unpackExponent b = 0#_
    · rw [if_pos hzero]
      by_cases hmantissa : unpackMantissa b = 0#_
      · rw [dif_pos hmantissa]
        rfl
      · rw [dif_neg hmantissa]
        rfl
    · rw [if_neg hzero]
      rfl

theorem zero_ne_greatest : (0 : BitVec spec.exponentBits) ≠ -1#_ := by
  simp [Nat.pos_iff_ne_zero.mp spec.he]

/-- A number that is not too large is not packed as an infinity. -/
theorem unpackExponent_pack_finite (s : Sign) {m : Nat} {e : Int} (hm : 0 < m)
    (he : (e + spec.exponentBias + spec.mantissaBitsWithoutImplicit).toNat <
      (BitVec.allOnes spec.exponentBits).toNat) :
    unpackExponent (pack spec (.finite s m e hm)) ≠ -1#_ := by
  rw [BitVec.toNat_allOnes] at he
  delta pack
  dsimp only
  rw [if_neg (by omega)]
  split
  · rw [unpackExponent_packComponents]
    simp only [ne_eq, BitVec.neg_one_eq_allOnes, ← BitVec.toNat_inj, BitVec.toNat_ofNat,
      BitVec.toNat_allOnes]
    rw [Nat.mod_eq_of_lt (by omega)]
    omega
  · rw [unpackExponent_packComponents]
    exact zero_ne_greatest

/-- A format of one exponent bit has no room between zero and the infinities. -/
theorem isFinite_unpack_pack_neg (hspec : 1 < spec.exponentBits) (b : BitVec spec.numBits) :
    (unpack spec (pack spec (unpack spec b).neg)).isFinite = (unpack spec b).isFinite := by
  have hpacked {s : Sign} {exponent : BitVec spec.exponentBits}
      {mantissa : BitVec spec.mantissaBitsWithoutImplicit} :
      unpackExponent (packComponents spec s exponent mantissa) = exponent :=
    unpackExponent_packComponents
  rw [isFinite_unpack (pack _ _)]
  unfold unpack
  by_cases hexponent : unpackExponent b = -1#_
  · rw [if_pos hexponent]
    by_cases hmantissa : unpackMantissa b = 0#_
    · rw [if_pos hmantissa]
      exact decide_eq_false (not_not_intro hpacked)
    · rw [if_neg hmantissa]
      exact decide_eq_false (not_not_intro hpacked)
  · rw [if_neg hexponent]
    have hlt : (unpackExponent b).toNat < (BitVec.allOnes spec.exponentBits).toNat := by
      simp only [BitVec.neg_one_eq_allOnes, ← BitVec.toNat_inj, BitVec.toNat_allOnes] at hexponent ⊢
      have hbound := (unpackExponent b).isLt
      omega
    by_cases hzero : unpackExponent b = 0#_
    · rw [if_pos hzero]
      by_cases hmantissa : unpackMantissa b = 0#_
      · rw [dif_pos hmantissa]
        exact decide_eq_true fun h => zero_ne_greatest (hpacked.symm.trans h)
      · -- below the normal numbers, where the exponent counts as one
        rw [dif_neg hmantissa]
        refine decide_eq_true (unpackExponent_pack_finite _ _ ?_)
        rw [hzero, BitVec.toNat_zero, BitVec.toNat_allOnes]
        have hroom : 2 ^ 2 ≤ 2 ^ spec.exponentBits := Nat.pow_le_pow_right (by decide) hspec
        omega
    · rw [if_neg hzero]
      exact decide_eq_true (unpackExponent_pack_finite _ _ (by omega))

theorem isFinite_neg (x : Float) : (-x).isFinite = x.isFinite :=
  @isFinite_unpack_pack_neg Format.binary64 (by decide) x.toModel.toBits.toBitVec

end Storybook.Number
