/-
# `Storybook.Proofs.Eval.Range` — the list of a range, in words of 64 bits

A range from `a` to `b` counts up to `b`, or down to it, and stops after `maxRangeItems` items.
The integers of `Value.integersBetween` have no bounds.  Here the list is computed in words again,
in operations of which each one gives nothing if its result is no word:

| result | as a word | its bounds |
| :-- | :-- | :-- |
| the gap between `a` and `b` | without a sign | at most `2 ^ 64 - 1` |
| the gap and one more | without a sign, and the greatest one where that is too much | none |
| the count of items | with a sign | at most `maxRangeItems` |
| an index, and the index times the step | with a sign | less than the count away from 0 |
| `a` and that much more | with a sign | between `a` and `b` |

So none of them gives nothing, and the words are the integers (`itemsInWords?_eq`), for all bounds
that are words, the least and the greatest one among them.
-/
import Storybook.Value.Operators

namespace Storybook

/-! ## Words that an integer may have -/

namespace Number

/-- The word with a sign that is an integer, if one is. -/
def signed? (n : Int) : Option Int64 :=
  if Int64.minValue.toInt ≤ n ∧ n ≤ Int64.maxValue.toInt then some (Int64.ofInt n) else none

/-- The word without a sign that is a number, if one is. -/
def unsigned? (n : Nat) : Option UInt64 :=
  if n < UInt64.size then some (UInt64.ofNat n) else none

/-- The sum of two words without a sign, or the greatest word if there is none. -/
def saturatingSum (x y : UInt64) : UInt64 := (unsigned? (x.toNat + y.toNat)).getD (-1)

section Signed

variable {n : Int}

theorem signed?_of_le (hlow : Int64.minValue.toInt ≤ n) (hhigh : n ≤ Int64.maxValue.toInt) :
    signed? n = some (Int64.ofInt n) :=
  if_pos ⟨hlow, hhigh⟩

theorem toInt_ofInt_of_le (hlow : Int64.minValue.toInt ≤ n) (hhigh : n ≤ Int64.maxValue.toInt) :
    (Int64.ofInt n).toInt = n := by
  rw [Int64.toInt_minValue] at hlow
  rw [Int64.toInt_maxValue] at hhigh
  exact Int64.toInt_ofInt_of_le hlow (by omega)

/-- Integers that are not far away from 0 are words. -/
theorem signed?_of_near (h : n.natAbs ≤ 10000) :
    signed? n = some (Int64.ofInt n) ∧ (Int64.ofInt n).toInt = n := by
  have hlow : Int64.minValue.toInt ≤ n := by
    rw [Int64.toInt_minValue]
    omega
  have hhigh : n ≤ Int64.maxValue.toInt := by
    rw [Int64.toInt_maxValue]
    omega
  exact ⟨signed?_of_le hlow hhigh, toInt_ofInt_of_le hlow hhigh⟩

end Signed

theorem unsigned?_of_lt {n : Nat} (h : n < UInt64.size) : unsigned? n = some (UInt64.ofNat n) :=
  if_pos h

/-- The greatest word is more than any count of items, so it does not matter that the sum stops. -/
theorem min_saturatingSum {x : UInt64} {most : Nat} (h : most < UInt64.size) :
    min (saturatingSum x 1).toNat most = min (x.toNat + 1) most := by
  unfold saturatingSum
  by_cases hx : x.toNat + 1 < UInt64.size
  · have hsum : unsigned? (x.toNat + (1 : UInt64).toNat) = some (UInt64.ofNat (x.toNat + 1)) :=
      unsigned?_of_lt hx
    rw [hsum, Option.getD_some, UInt64.toNat_ofNat_of_lt' hx]
  · have hsum : unsigned? (x.toNat + (1 : UInt64).toNat) = none := if_neg hx
    have hgreatest : (-1 : UInt64).toNat = UInt64.size - 1 := rfl
    rw [hsum, Option.getD_none, hgreatest]
    omega

end Number

open Number

/-! ## Ranges in words -/

namespace Value

def rangeCount (a b : Int64) : Nat := min ((b.toInt - a.toInt).natAbs + 1) maxRangeItems

/-- From one item of a range to the next. -/
def rangeStep (a b : Int64) : Int := if a ≤ b then 1 else -1

def countInWords? (a b : Int64) : Option Int64 := do
  let gap ← unsigned? (b.toInt - a.toInt).natAbs
  signed? (min (saturatingSum gap 1).toNat maxRangeItems : Nat)

def itemInWords? (a b : Int64) (i : Nat) : Option Int64 := do
  let index ← signed? i
  let step ← signed? (rangeStep a b)
  let offset ← signed? (index.toInt * step.toInt)
  signed? (a.toInt + offset.toInt)

def itemsInWords? (a b : Int64) : Option (List Int64) := do
  let count ← countInWords? a b
  (List.range count.toInt.toNat).mapM (itemInWords? a b)

section Words

variable (a b : Int64)

theorem integersBetween_eq : integersBetween a b =
    (List.range (rangeCount a b)).map fun (i : Nat) => a.toInt + i * rangeStep a b :=
  rfl

theorem rangeStep_cases : a.toInt ≤ b.toInt ∧ rangeStep a b = 1 ∨
    b.toInt < a.toInt ∧ rangeStep a b = -1 := by
  by_cases hle : a ≤ b
  · exact .inl ⟨Int64.le_iff_toInt_le.mp hle, if_pos hle⟩
  · exact .inr ⟨Int.not_le.mp (mt Int64.le_iff_toInt_le.mpr hle), if_neg hle⟩

variable {a b} in
/-- Every item is a word, since it lies between the bounds. -/
theorem rangeItem_le {i : Nat} (h : i < rangeCount a b) :
    Int64.minValue.toInt ≤ a.toInt + i * rangeStep a b ∧
      a.toInt + i * rangeStep a b ≤ Int64.maxValue.toInt := by
  have hi : i < (b.toInt - a.toInt).natAbs + 1 := Nat.lt_of_lt_of_le h (Nat.min_le_left _ _)
  have ha := a.le_toInt
  have ha' := a.toInt_lt
  have hb := b.le_toInt
  have hb' := b.toInt_lt
  rw [Int64.toInt_minValue, Int64.toInt_maxValue]
  rcases rangeStep_cases a b with ⟨hle, hstep⟩ | ⟨hlt, hstep⟩
  · rw [hstep]
    omega
  · rw [hstep]
    omega

theorem rangeCount_near : (rangeCount a b : Int).natAbs ≤ 10000 := Nat.min_le_right _ _

theorem countInWords?_eq : countInWords? a b = some (Int64.ofInt (rangeCount a b)) := by
  have hgap : (b.toInt - a.toInt).natAbs < UInt64.size := by
    have ha := a.le_toInt
    have ha' := a.toInt_lt
    have hb := b.le_toInt
    have hb' := b.toInt_lt
    rw [UInt64.size]
    omega
  have hmost : maxRangeItems < UInt64.size := by decide
  rw [countInWords?, unsigned?_of_lt hgap, Option.bind_eq_bind, Option.bind_some,
    min_saturatingSum hmost, UInt64.toNat_ofNat_of_lt' hgap]
  exact (signed?_of_near (rangeCount_near a b)).1

variable {a b} in
/-- No result on the way to an item is far away from 0, and the item is a word itself. -/
theorem itemInWords?_eq {i : Nat} (h : i < rangeCount a b) :
    itemInWords? a b i = some (Int64.ofInt (a.toInt + i * rangeStep a b)) := by
  have hi : i < 10000 := Nat.lt_of_lt_of_le h (Nat.min_le_right _ _)
  obtain ⟨hstep, hoffset⟩ :
      (rangeStep a b).natAbs ≤ 10000 ∧ (i * rangeStep a b).natAbs ≤ 10000 := by
    rcases rangeStep_cases a b with ⟨-, hstep⟩ | ⟨-, hstep⟩
    · rw [hstep]
      omega
    · rw [hstep]
      omega
  obtain ⟨hindex, hindex'⟩ := signed?_of_near (n := i) (by omega)
  obtain ⟨hstep, hstep'⟩ := signed?_of_near hstep
  obtain ⟨hoffset, hoffset'⟩ := signed?_of_near hoffset
  obtain ⟨hlow, hhigh⟩ := rangeItem_le h
  rw [itemInWords?, hindex, Option.bind_eq_bind, Option.bind_some, hindex', hstep,
    Option.bind_some, hstep', hoffset, Option.bind_some, hoffset']
  exact signed?_of_le hlow hhigh

theorem mapM_eq_some_map {α β : Type} {l : List α} {f : α → Option β} {g : α → β}
    (h : ∀ x ∈ l, f x = some (g x)) : l.mapM f = some (l.map g) := by
  induction l with
  | nil => rfl
  | cons x rest ih =>
    obtain ⟨hx, hrest⟩ := List.forall_mem_cons.mp h
    rw [List.mapM_cons, hx, ih hrest]
    rfl

/-- No operation leaves its words. -/
theorem itemsInWords?_eq : itemsInWords? a b = some ((integersBetween a b).map Int64.ofInt) := by
  have hcount := (signed?_of_near (rangeCount_near a b)).2
  rw [itemsInWords?, countInWords?_eq, Option.bind_eq_bind, Option.bind_some, hcount,
    Int.toNat_natCast, integersBetween_eq, List.map_map]
  exact mapM_eq_some_map fun i hi => itemInWords?_eq (List.mem_range.mp hi)

/-- The words are the integers. -/
theorem map_toInt_items {α : Type} (f : Int → α) :
    ((integersBetween a b).map Int64.ofInt).map (fun n => f n.toInt) =
      (integersBetween a b).map f := by
  rw [List.map_map]
  refine List.map_congr_left fun n hn => congrArg f ?_
  rw [integersBetween_eq] at hn
  obtain ⟨i, hi, rfl⟩ := List.mem_map.mp hn
  obtain ⟨hlow, hhigh⟩ := rangeItem_le (List.mem_range.mp hi)
  exact toInt_ofInt_of_le hlow hhigh

/-! ## The items of a range -/

/-- The integers of a range by their indices. -/
theorem getElem?_integersBetween (i : Nat) : (integersBetween a b)[i]? =
    if i < rangeCount a b then some (if a ≤ b then a.toInt + i else a.toInt - i) else none := by
  have hitem : a.toInt + i * rangeStep a b = if a ≤ b then a.toInt + i else a.toInt - i := by
    unfold rangeStep
    split <;> omega
  rw [integersBetween_eq, List.getElem?_map]
  split
  · next hi => rw [List.getElem?_range hi, Option.map_some, hitem]
  · next hi => rw [List.getElem?_eq_none (by rw [List.length_range]; omega), Option.map_none]

variable {a b} in
/-- A range that is not cut off ends at its last bound. -/
theorem getLast?_integersBetween (h : (b.toInt - a.toInt).natAbs + 1 ≤ maxRangeItems) :
    (integersBetween a b).getLast? = some b.toInt := by
  have hcount : rangeCount a b = (b.toInt - a.toInt).natAbs + 1 := Nat.min_eq_left h
  have hlast : a.toInt + (b.toInt - a.toInt).natAbs * rangeStep a b = b.toInt := by
    rcases rangeStep_cases a b with ⟨hle, hstep⟩ | ⟨hlt, hstep⟩
    · rw [hstep]
      omega
    · rw [hstep]
      omega
  rw [integersBetween_eq, List.getLast?_map, List.getLast?_range, hcount,
    if_neg (Nat.succ_ne_zero _), Option.map_some, Nat.add_sub_cancel, hlast]

end Words

/-- A range between words is counted out in words: the items go from its first bound toward the
last one, and reach it unless there are too many; and the list that two values with finite numbers
evaluate to is such a range, from one of their bounds to the other. -/
theorem rangeList_in_words :
    (∀ a b : Int64, ∃ items, itemsInWords? a b = some items ∧
        (∀ i : Nat, items[i]?.map Int64.toInt =
          if i < min ((b.toInt - a.toInt).natAbs + 1) maxRangeItems then
            some (if a ≤ b then a.toInt + i else a.toInt - i)
          else none) ∧
        ((b.toInt - a.toInt).natAbs + 1 ≤ maxRangeItems → items.getLast? = some b)) ∧
      ∀ first last : Value, first.toNumber.isFinite = true → last.toNumber.isFinite = true →
        ∃ a b items, rangeBounds? first last = some (a, b) ∧ itemsInWords? a b = some items ∧
          rangeList first last = .list (items.map fun n => .number (Float.ofInt n.toInt)) := by
  constructor
  · intro a b
    refine ⟨_, itemsInWords?_eq a b, fun i => ?_, fun hall => ?_⟩
    · have hitems : ((integersBetween a b).map Int64.ofInt).map Int64.toInt = integersBetween a b :=
        (map_toInt_items a b id).trans (List.map_id _)
      rw [← List.getElem?_map, hitems]
      exact getElem?_integersBetween a b i
    · rw [List.getLast?_map, getLast?_integersBetween hall, Option.map_some, Int64.ofInt_toInt]
  · intro first last hfirst hlast
    have hbounds : rangeBounds? first last =
        some (roundToInt64 first.toNumber, roundToInt64 last.toNumber) :=
      if_pos (Bool.and_eq_true_iff.mpr ⟨hfirst, hlast⟩)
    refine ⟨_, _, _, hbounds, itemsInWords?_eq _ _, ?_⟩
    rw [rangeList, hbounds]
    exact congrArg list (map_toInt_items _ _ fun n => number (Float.ofInt n)).symm

/-- From beyond the greatest word to beyond the least one, and up to the greatest one exactly. -/
theorem rangeList_at_limits :
    let first : Value := .string " 1e19 "
    let last : Value := .number (-1e19)
    first.toNumber.isFinite = true ∧ last.toNumber.isFinite = true ∧
      rangeBounds? first last = some (Int64.maxValue, Int64.minValue) ∧
      (∃ a b items, rangeBounds? first last = some (a, b) ∧ itemsInWords? a b = some items ∧
        rangeList first last = .list (items.map fun n => .number (Float.ofInt n.toInt))) ∧
      ∃ items, itemsInWords? (Int64.maxValue - 9999) Int64.maxValue = some items ∧
        items.getLast? = some Int64.maxValue := by
  intro first last
  have hfirst : first.toNumber.isFinite = true := by decide +kernel
  have hlast : last.toNumber.isFinite = true := by decide +kernel
  have hbounds : rangeBounds? first last = some (Int64.maxValue, Int64.minValue) := by
    decide +kernel
  obtain ⟨items, hitems, -, hgetLast⟩ :=
    rangeList_in_words.1 (Int64.maxValue - 9999) Int64.maxValue
  exact ⟨hfirst, hlast, hbounds, rangeList_in_words.2 first last hfirst hlast, items, hitems,
    hgetLast (by decide)⟩

end Value

end Storybook
