/-
# `Storybook.Proofs.Random.Draw` — a drawn index is an index

A number drawn below a size is the upper half of a product with a word of 64 bits, and so below
the size, whichever word was accepted.  Hence a choice from a list that has an item always
finds one.
-/
import Storybook.Random.Draw

namespace Storybook.Random

theorem accept?_le {size word n : UInt64} (h : accept? size word = some n) :
    n.toNat ≤ size.toNat - 1 := by
  simp only [accept?] at h
  split at h
  · obtain rfl := Option.some.inj h
    have hword : word.toNat < UInt64.size := word.toNat_lt
    rw [UInt64.toNat_ofNat']
    refine Nat.le_trans (Nat.mod_le _ _) ?_
    cases hsize : size.toNat with
    | zero => simp
    | succ k =>
        have hmul : word.toNat * (k + 1) < UInt64.size * (k + 1) :=
          Nat.mul_lt_mul_of_pos_right hword k.succ_pos
        have hdiv : word.toNat * (k + 1) / UInt64.size < k + 1 := Nat.div_lt_of_lt_mul hmul
        omega
  · exact absurd h (by simp)

variable {σ : Type} [WordSource σ]

theorem firstAccepted_le (size : UInt64) : ∀ (tries : Nat) (source : σ),
    (firstAccepted size tries source).1.toNat ≤ size.toNat - 1
  | 0, _ => Nat.zero_le _
  | tries + 1, source => by
      rw [firstAccepted]
      obtain ⟨word, rest⟩ := WordSource.next source
      cases haccept : accept? size word with
      | some n => simpa only [haccept] using accept?_le haccept
      | none => simpa only [haccept] using firstAccepted_le size tries rest

/-- The index of a choice among some items is below their count, also where the count is more
than a word can hold. -/
theorem index_lt {count : Nat} (h : 0 < count) (source : σ) : (index count source).1 < count := by
  have hle := firstAccepted_le (UInt64.ofNat count) UInt64.size source
  have hmod : (UInt64.ofNat count).toNat ≤ count := by
    rw [UInt64.toNat_ofNat']
    exact Nat.mod_le _ _
  show (firstAccepted (UInt64.ofNat count) UInt64.size source).1.toNat < count
  omega

end Storybook.Random
