/-
# `Storybook.Proofs.Eval.Chance` — chance is fair

Three expressions choose by chance, each by the first word that its choice does not refuse:

| expression | choice | comes to |
| :-- | :-- | :-- |
| random over two bounds | `integer?` of the lower and the upper one | the number of the integer |
| random over a list with items | `index?` of their count | the item |
| pick one of some options | `index?` of their count | the value of the option |

The choices are uniform, whatever the bounds and the count (`evaluate_uniform`).  The bounds may
come in either order, and be the least and the greatest integer of 64 bits.

The count of a list in memory is a word.  For a longer list the index would be below the rest that
the count leaves by `2 ^ 64`, so that the last items would never be chosen.
-/
import Storybook.Proofs.Eval.Reading
import Storybook.Proofs.Random.Uniform

namespace Storybook.Expression

open Storybook.Random

/-! ## The lower and the upper bound -/

section Bounds

variable (a b : Int64)

theorem min_max_cases :
    min a b = a ∧ max a b = b ∧ a ≤ b ∨ min a b = b ∧ max a b = a ∧ b ≤ a := by
  by_cases hle : a ≤ b
  · exact .inl ⟨if_pos hle, if_pos hle, hle⟩
  · exact .inr ⟨if_neg hle, if_neg hle, Int64.le_of_lt (Int64.not_le.mp hle)⟩

theorem min_le_max : min a b ≤ max a b := by
  obtain ⟨hmin, hmax, hle⟩ | ⟨hmin, hmax, hle⟩ := min_max_cases a b
  all_goals
    rw [hmin, hmax]
    exact hle

/-- The distance between the bounds does not depend on their order. -/
theorem toNat_max_sub_min :
    ((max a b).toInt - (min a b).toInt).toNat = (b.toInt - a.toInt).natAbs := by
  obtain ⟨hmin, hmax, hle⟩ | ⟨hmin, hmax, hle⟩ := min_max_cases a b
  all_goals
    rw [hmin, hmax]
    have hle := Int64.le_iff_toInt_le.mp hle
    omega

end Bounds

/-! ## What is drawn -/

variable {σ : Type} [WordSource σ] {env : Environment}

/-- A random choice between bounds. -/
theorem evaluate_random_bounds {members : Expression} {s t : σ} {a b : Int64}
    (hbounds : bounds env members s = (some (a, b), t)) :
    ∃ n u, evaluate env (.random members) s = (.number (Float.ofInt n.toInt), u) ∧
      (min a b ≤ n ∧ n ≤ max a b) ∧
      (Draws (integer? (min a b) (max a b)) t n u ∨ Refuses (integer? (min a b) (max a b)) t) := by
  have hmem := between_mem (min_le_max a b) t
  cases hbetween : between (min a b) (max a b) t with
  | mk n u =>
    rw [hbetween] at hmem
    refine ⟨n, u, ?_, hmem, between_cases hbetween⟩
    rw [evaluate_random_of_bounds hbounds, drawInteger_eq, hbetween]

/-- A random choice from a list. -/
theorem evaluate_random_list {members : Expression} {s t u : σ} {items : List Value}
    (hbounds : bounds env members s = (none, t))
    (hmembers : evaluate env members t = (.list items, u)) (hitems : items ≠ []) :
    ∃ i item v, items[i]? = some item ∧ evaluate env (.random members) s = (item, v) ∧
      (Draws (index? items.length) u i v ∨ Refuses (index? items.length) u) := by
  have hevaluate : evaluate env (.random members) s = drawItem (.list items) u := by
    rw [evaluate_random_of_no_bounds hbounds, hmembers]
  have hdraws := drawsMember_drawItem (.list items) u
  rw [← hevaluate] at hdraws
  generalize evaluate env (.random members) s = result at hdraws ⊢
  obtain ⟨item, v⟩ := result
  cases hdraws with
  | member hindex hitem => exact ⟨_, item, v, hitem, rfl, index_cases hindex⟩
  | nothing hempty => exact absurd (hempty items rfl) hitems

/-- A choice from options. -/
theorem evaluate_pickOne {options : List Expression} (hoptions : options ≠ []) (s : σ) :
    ∃ i option t, options[i]? = some option ∧
      evaluate env (.pickOne options) s = evaluate env option t ∧
      (Draws (index? options.length) s i t ∨ Refuses (index? options.length) s) := by
  have hlt := index_lt (List.length_pos_iff.mpr hoptions) s
  cases hindex : index options.length s with
  | mk i t =>
    rw [hindex] at hlt
    have hoption : options[i]? = some options[i] := List.getElem?_eq_getElem hlt
    refine ⟨i, options[i], t, hoption, ?_, index_cases hindex⟩
    rw [evaluate]
    · rw [hindex]
      exact evaluateNth_eq env options i t hoption
    · exact hoptions

/-- All that is chosen by chance is chosen uniformly: an integer between two bounds of 64 bits in
either order, both of them included; an item of a list; and an option. -/
theorem evaluate_uniform (env : Environment) :
    (∀ a b : Int64, Uniform (integer? (min a b) (max a b)) {n | min a b ≤ n ∧ n ≤ max a b}
        (share ((b.toInt - a.toInt).natAbs + 1))) ∧
      (∀ count, 0 < count → count < UInt64.size →
        Uniform (index? count) {i | i < count} (share count)) ∧
      (∀ (members : Expression) (s t : σ) (a b : Int64),
        bounds env members s = (some (a, b), t) →
          ∃ n u, evaluate env (.random members) s = (.number (Float.ofInt n.toInt), u) ∧
            (min a b ≤ n ∧ n ≤ max a b) ∧
            (Draws (integer? (min a b) (max a b)) t n u ∨
              Refuses (integer? (min a b) (max a b)) t)) ∧
      (∀ (members : Expression) (s t u : σ) (items : List Value),
        bounds env members s = (none, t) → evaluate env members t = (.list items, u) →
          items ≠ [] →
            ∃ i item v, items[i]? = some item ∧ evaluate env (.random members) s = (item, v) ∧
              (Draws (index? items.length) u i v ∨ Refuses (index? items.length) u)) ∧
      ∀ (options : List Expression) (s : σ), options ≠ [] →
        ∃ i option t, options[i]? = some option ∧
          evaluate env (.pickOne options) s = evaluate env option t ∧
          (Draws (index? options.length) s i t ∨ Refuses (index? options.length) s) := by
  refine ⟨fun a b => ?_, fun _ => uniform_index?, fun _ _ _ _ _ => evaluate_random_bounds,
    fun _ _ _ _ _ => evaluate_random_list, fun _ s hoptions => evaluate_pickOne hoptions s⟩
  rw [← toNat_max_sub_min]
  exact uniform_integer? (min_le_max a b)

def cards : List Value := [.string "ace", .string "king", .string "jack"]

def cardTable : Environment := .ofVariables ((∅ : Variables).insert "cards" (.list cards))

/-- A range that begins with its upper bound. -/
def sides : Expression := .range (.number 6.0) (.number 1.0)

/-- A word for a choice. -/
def middleWord : WordScript := ⟨[9223372036854775808]⟩

theorem evaluate_uniform_cards :
    (0 < cards.length ∧ cards.length < UInt64.size ∧
        Uniform (index? cards.length) {i | i < cards.length} (share cards.length)) ∧
      (bounds cardTable sides middleWord = (some (6, 1), middleWord) ∧
        ∃ n u, evaluate cardTable (.random sides) middleWord = (.number (Float.ofInt n.toInt), u) ∧
          (min 6 1 ≤ n ∧ n ≤ max 6 1) ∧
          (Draws (integer? (min 6 1) (max 6 1)) middleWord n u ∨
            Refuses (integer? (min 6 1) (max 6 1)) middleWord)) ∧
      (bounds cardTable (.var "cards") middleWord = (none, middleWord) ∧
        evaluate cardTable (.var "cards") middleWord = (.list cards, middleWord) ∧ cards ≠ [] ∧
        ∃ i item v, cards[i]? = some item ∧
          evaluate cardTable (.random (.var "cards")) middleWord = (item, v) ∧
          (Draws (index? cards.length) middleWord i v ∨ Refuses (index? cards.length) middleWord)) ∧
      ∃ i option t, [sides, .random sides][i]? = some option ∧
        evaluate cardTable (.pickOne [sides, .random sides]) middleWord =
          evaluate cardTable option t ∧
        (Draws (index? 2) middleWord i t ∨ Refuses (index? 2) middleWord) := by
  obtain ⟨-, hindex, hbounds, hlist, hpick⟩ := @evaluate_uniform WordScript _ cardTable
  have hsides : bounds cardTable sides middleWord = (some (6, 1), middleWord) := rfl
  have hcards : bounds cardTable (.var "cards") middleWord = (none, middleWord) := rfl
  have hitems : evaluate cardTable (.var "cards") middleWord = (.list cards, middleWord) := rfl
  have hne : cards ≠ [] := List.cons_ne_nil _ _
  exact ⟨⟨by decide, by decide, hindex _ (by decide) (by decide)⟩,
    ⟨hsides, hbounds _ _ _ _ _ hsides⟩,
    ⟨hcards, hitems, hne, hlist _ _ _ _ _ hcards hitems hne⟩,
    hpick _ _ (List.cons_ne_nil _ _)⟩

end Storybook.Expression
