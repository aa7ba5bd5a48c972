/-
# `Storybook.Proofs.Number.Order` — the numbers stand on a line

Floats are compared by cases on their signs, exponents and digits.  All the cases are one
comparison, of the places where the numbers stand on a line:

| the number | its place |
| :-- | :-- |
| negative infinity | `(-2, 0, 0)` |
| `-m · 2 ^ e` | `(-1, -e, -m)` |
| zero of either sign | `(0, 0, 0)` |
| `m · 2 ^ e` | `(1, e, m)` |
| infinity | `(2, 0, 0)` |
| NaN | none |

So a number that is not NaN is below, equal to or above any other, and the two compare the other
way round when they change places; and NaN does not compare at all, not even with itself.
-/
import Mathlib.Data.Option.NAry
import Mathlib.Data.Prod.Lex
import Storybook.Number.Reading

namespace Storybook.Number

open Float.Model (UnpackedFloat)

/-! ## The line -/

/-- The places on the line of numbers, which are compared from the left. -/
abbrev Standing := ℤ ×ₗ ℤ ×ₗ ℤ

/-- Where an unpacked number stands; NaN stands nowhere. -/
def standingOf? : UnpackedFloat → Option Standing
  | .notANumber => none
  | .infinity .negative => some (toLex (-2, toLex (0, 0)))
  | .finite .negative m e _ => some (toLex (-1, toLex (-e, -m)))
  | .zero _ => some (toLex (0, toLex (0, 0)))
  | .finite .positive m e _ => some (toLex (1, toLex (e, m)))
  | .infinity .positive => some (toLex (2, toLex (0, 0)))

theorem compare_natCast (m n : ℕ) : compare (m : ℤ) n = compare m n := by
  simp only [Int.compare_eq_ite_lt, Nat.compare_eq_ite_lt, Int.ofNat_lt]

theorem compare_neg (a b : ℤ) : compare (-a) (-b) = compare b a := by
  simp only [Int.compare_eq_ite_lt, Int.neg_lt_neg_iff]

/-- Numbers are compared by their places. -/
theorem compare_eq_map₂ (a b : UnpackedFloat) :
    a.compare b = Option.map₂ compare (standingOf? a) (standingOf? b) := by
  cases a with
  | notANumber => cases b <;> rfl
  | infinity s =>
      cases b with
      | infinity s' | finite s' _ _ _ => cases s <;> cases s' <;> rfl
      | notANumber | zero _ => cases s <;> rfl
  | zero s =>
      cases b with
      | infinity s' | finite s' _ _ _ => cases s' <;> rfl
      | notANumber | zero _ => rfl
  | finite s m e hm =>
      cases b with
      | infinity s' => cases s <;> cases s' <;> rfl
      | notANumber | zero _ => cases s <;> rfl
      | finite s' m' e' hm' =>
          -- of two numbers with one sign, first the exponents are compared, then the digits
          cases s <;> cases s'
          · show some ((compare e e').then (compare m m')).swap =
              some ((compare (-e) (-e')).then (compare (-(m : ℤ)) (-(m' : ℤ))))
            rw [compare_neg, compare_neg, compare_natCast, Ordering.swap_then, Int.compare_swap,
              Nat.compare_swap]
          · rfl
          · rfl
          · show some ((compare e e').then (compare m m')) =
              some ((compare e e').then (compare (m : ℤ) (m' : ℤ)))
            rw [compare_natCast]

theorem compare_swap (a b : UnpackedFloat) : b.compare a = (a.compare b).map Ordering.swap := by
  rw [compare_eq_map₂, compare_eq_map₂, Option.map_map₂, Option.map₂_swap]
  congr
  funext p q
  exact Std.OrientedOrd.eq_swap

/-! ## Doubles -/

section Doubles

variable {x y z : Float}

/-- Where a double stands. -/
def standing? (x : Float) : Option Standing := standingOf? x.toModel.unpack

/-- How two doubles compare, if they do. -/
def order? (x y : Float) : Option Ordering := x.toModel.unpack.compare y.toModel.unpack

theorem order?_eq_map₂ (x y : Float) :
    order? x y = Option.map₂ compare (standing? x) (standing? y) :=
  compare_eq_map₂ _ _

theorem isNaN_eq_false_iff : x.isNaN = false ↔ ∃ p, standing? x = some p := by
  show x.toModel.unpack.isNaN = false ↔ ∃ p, standingOf? x.toModel.unpack = some p
  cases x.toModel.unpack with
  | notANumber => exact iff_of_false (fun h => nomatch h) (fun ⟨_, h⟩ => nomatch h)
  | infinity s | finite s _ _ _ => cases s <;> exact ⟨fun _ => ⟨_, rfl⟩, fun _ => rfl⟩
  | zero s => exact ⟨fun _ => ⟨_, rfl⟩, fun _ => rfl⟩

theorem exists_order_iff :
    (∃ o, order? x y = some o) ↔ x.isNaN = false ∧ y.isNaN = false := by
  simp only [order?_eq_map₂, Option.map₂_eq_some_iff, isNaN_eq_false_iff]
  constructor
  · rintro ⟨o, p, q, hp, hq, -⟩
    exact ⟨⟨p, hp⟩, ⟨q, hq⟩⟩
  · rintro ⟨⟨p, hp⟩, ⟨q, hq⟩⟩
    exact ⟨_, p, q, hp, hq, rfl⟩

theorem order?_swap (x y : Float) : order? y x = (order? x y).map Ordering.swap :=
  compare_swap _ _

theorem order?_trans (hxy : order? x y = some .lt) (hyz : order? y z = some .lt) :
    order? x z = some .lt := by
  rw [order?_eq_map₂, Option.map₂_eq_some_iff] at hxy hyz ⊢
  obtain ⟨p, q, hp, hq, hpq⟩ := hxy
  obtain ⟨q', r, hq', hr, hqr⟩ := hyz
  obtain rfl : q = q' := Option.some.inj (hq.symm.trans hq')
  exact ⟨p, r, hp, hr, Std.TransCmp.lt_trans hpq hqr⟩

theorem lt_iff : x < y ↔ order? x y = some .lt := decide_eq_true_iff.trans beq_iff_eq

theorem not_le_of_lt {a b : Float} (h : a < b) : ¬b ≤ a := by
  intro hle
  have hge : (order? b a).any (·.isLE) = true := of_decide_eq_true hle
  rw [order?_swap, lt_iff.mp h] at hge
  cases hge

theorem beq_iff : (x == y) = true ↔ order? x y = some .eq := by
  show (order? x y == some .eq) = true ↔ _
  rw [beq_iff_eq]

/-- Equal doubles stand at one place. -/
theorem beq_iff_standing :
    (x == y) = true ↔ ∃ p, standing? x = some p ∧ standing? y = some p := by
  rw [beq_iff, order?_eq_map₂, Option.map₂_eq_some_iff]
  constructor
  · rintro ⟨p, q, hp, hq, hpq⟩
    obtain rfl := compare_eq_iff_eq.mp hpq
    exact ⟨p, hp, hq⟩
  · rintro ⟨p, hp, hq⟩
    exact ⟨p, p, hp, hq, compare_eq_iff_eq.mpr rfl⟩

theorem beq_self_iff : (x == x) = true ↔ x.isNaN = false := by
  rw [beq_iff_standing, isNaN_eq_false_iff]
  exact exists_congr fun p => and_self_iff

theorem beq_symm (h : (x == y) = true) : (y == x) = true := by
  obtain ⟨p, hx, hy⟩ := beq_iff_standing.mp h
  exact beq_iff_standing.mpr ⟨p, hy, hx⟩

theorem beq_trans (hxy : (x == y) = true) (hyz : (y == z) = true) : (x == z) = true := by
  obtain ⟨p, hx, hy⟩ := beq_iff_standing.mp hxy
  obtain ⟨q, hy', hz⟩ := beq_iff_standing.mp hyz
  obtain rfl : p = q := Option.some.inj (hy.symm.trans hy')
  exact beq_iff_standing.mpr ⟨p, hx, hz⟩

end Doubles

end Storybook.Number
