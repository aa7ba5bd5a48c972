/-
# `Storybook.Proofs.Value.Comparison` — what the comparisons tell about values

A story compares two values of any kinds, and each comparison says yes or no:

| the two values | `==` | `<` and `>` | `<=` and `>=` |
| :-- | :-- | :-- | :-- |
| numbers, none of them NaN | at one place of the line | before, behind on the line | so or equal |
| texts | one text | before, behind in the order of texts | so or equal |
| lists | as long as each other, and item by item | no | no |
| truth values, or nothing twice | one value | no | no |
| any others | no | no | no |

Equality goes into lists of any depth, so its laws are shown by induction on the value
(`Value.items_induction`).  The order looks at the two values alone, and its laws are those of the
line and of the texts (`Value.exists_compare`).
-/
import Mathlib.Data.List.Forall2
import Mathlib.Data.String.Basic
import Storybook.Proofs.Number.Order
import Storybook.Value.Operators

namespace Storybook

open Number (order? order?_swap order?_trans exists_order_iff lt_iff beq_iff beq_self_iff beq_symm
  beq_trans)

namespace Value

/-! ## Items -/

/-- Whether a value occurs in another one, which is that value itself or has it in an item. -/
inductive OccursIn (a : Value) : Value → Prop
  | self : OccursIn a a
  | item {items : List Value} {b : Value} (hb : b ∈ items) (h : OccursIn a b) :
      OccursIn a (list items)

theorem occursIn_list_iff {items : List Value} {x : Float} :
    OccursIn (number x) (list items) ↔ ∃ item ∈ items, OccursIn (number x) item := by
  constructor
  · intro h
    cases h with
    | item hb h => exact ⟨_, hb, h⟩
  · rintro ⟨item, hitem, h⟩
    exact .item hitem h

/-! ## Equality -/

section Equality

variable {a b c : Value}

theorem strictEq_number_iff {x : Float} :
    (number x).strictEq b = true ↔ ∃ y, b = number y ∧ (x == y) = true := by
  rw [strictEq_iff]
  simp

theorem strictEq_string_iff {s : String} : (string s).strictEq b = true ↔ string s = b := by
  rw [strictEq_iff]
  simp

theorem strictEq_bool_iff {t : Bool} : (bool t).strictEq b = true ↔ bool t = b := by
  rw [strictEq_iff]
  simp

theorem strictEq_null_iff : null.strictEq b = true ↔ null = b := by
  rw [strictEq_iff]
  simp

theorem strictEqAll_iff {as bs : List Value} :
    strictEqAll as bs = true ↔ List.Forall₂ (fun a b => a.strictEq b = true) as bs := by
  induction as generalizing bs with
  | nil => cases bs <;> simp [strictEqAll]
  | cons a as ih => cases bs <;> simp [strictEqAll, ih]

/-- Lists are equal if they are as long as each other and equal at each index. -/
theorem strictEq_list_iff {as : List Value} :
    (list as).strictEq b = true ↔ ∃ bs, b = list bs ∧ as.length = bs.length ∧
      ∀ i (hi : i < as.length) (hi' : i < bs.length), as[i].strictEq bs[i] = true := by
  rw [strictEq_iff]
  simp [strictEqAll_iff, List.forall₂_iff_get]

theorem strictEq_symm (h : a.strictEq b = true) : b.strictEq a = true := by
  induction a using items_induction generalizing b with
  | number x =>
    obtain ⟨y, rfl, hxy⟩ := strictEq_number_iff.mp h
    exact strictEq_number_iff.mpr ⟨x, rfl, beq_symm hxy⟩
  | string s =>
    obtain rfl := strictEq_string_iff.mp h
    exact h
  | bool t =>
    obtain rfl := strictEq_bool_iff.mp h
    exact h
  | list as ih =>
    obtain ⟨bs, rfl, hlength, hitems⟩ := strictEq_list_iff.mp h
    refine strictEq_list_iff.mpr ⟨as, rfl, hlength.symm, fun i hi hi' => ?_⟩
    exact ih as[i] (List.getElem_mem hi') (hitems i hi' hi)
  | null =>
    obtain rfl := strictEq_null_iff.mp h
    exact h

theorem strictEq_trans (hab : a.strictEq b = true) (hbc : b.strictEq c = true) :
    a.strictEq c = true := by
  induction a using items_induction generalizing b c with
  | number x =>
    obtain ⟨y, rfl, hxy⟩ := strictEq_number_iff.mp hab
    obtain ⟨z, rfl, hyz⟩ := strictEq_number_iff.mp hbc
    exact strictEq_number_iff.mpr ⟨z, rfl, beq_trans hxy hyz⟩
  | string s =>
    obtain rfl := strictEq_string_iff.mp hab
    exact hbc
  | bool t =>
    obtain rfl := strictEq_bool_iff.mp hab
    exact hbc
  | list as ih =>
    obtain ⟨bs, rfl, hlength, hitems⟩ := strictEq_list_iff.mp hab
    obtain ⟨cs, rfl, hlength', hitems'⟩ := strictEq_list_iff.mp hbc
    refine strictEq_list_iff.mpr ⟨cs, rfl, hlength.trans hlength', fun i hi hi' => ?_⟩
    have hmid : i < bs.length := hlength ▸ hi
    exact ih as[i] (List.getElem_mem hi) (hitems i hi hmid) (hitems' i hmid hi')
  | null =>
    obtain rfl := strictEq_null_iff.mp hab
    exact hbc

/-- A value is equal to itself exactly if no NaN occurs in it. -/
theorem strictEq_self_iff :
    a.strictEq a = true ↔ ∀ x, OccursIn (number x) a → x.isNaN = false := by
  induction a using items_induction with
  | number y =>
    show (y == y) = true ↔ _
    rw [beq_self_iff]
    constructor
    · intro h x hx
      cases hx
      exact h
    · intro h
      exact h y .self
  | string s => exact iff_of_true (strictEq_string_iff.mpr rfl) fun x hx => nomatch hx
  | bool t => exact iff_of_true (strictEq_bool_iff.mpr rfl) fun x hx => nomatch hx
  | list items ih =>
    have hitems : (list items).strictEq (list items) = true ↔
        ∀ item ∈ items, item.strictEq item = true := by
      rw [List.forall_mem_iff_getElem]
      simp [strictEq_list_iff]
    simp only [hitems, occursIn_list_iff]
    constructor
    · rintro h x ⟨item, hitem, hx⟩
      exact (ih item hitem).mp (h item hitem) x hx
    · intro h item hitem
      exact (ih item hitem).mpr fun x hx => h x ⟨item, hitem, hx⟩
  | null => exact iff_of_true (strictEq_null_iff.mpr rfl) fun x hx => nomatch hx

end Equality

/-! ## Order -/

/-- The values that stories order: two numbers, none of them NaN, and two texts. -/
inductive AreOrdered : Value → Value → Prop
  | numbers {x y : Float} (hx : x.isNaN = false) (hy : y.isNaN = false) :
      AreOrdered (number x) (number y)
  | texts (s t : String) : AreOrdered (string s) (string t)

section Order

variable {a b c : Value}

theorem compare_number (x y : Float) : (number x).compare (number y) = order? x y := by
  simp only [compare, compareNumbers, lt_iff, beq_iff, order?_swap x y]
  cases order? x y with
  | none => rfl
  | some o => cases o <;> rfl

theorem compare_string (s t : String) :
    (string s).compare (string t) = some (Ord.compare s t) :=
  congrArg some (LinearOrder.compare_eq_compareOfLessAndEq s t).symm

theorem areOrdered_of_compare {o : Ordering} (h : a.compare b = some o) : AreOrdered a b := by
  cases a with
  | number x =>
    cases b with
    | number y =>
      obtain ⟨hx, hy⟩ := exists_order_iff.mp ⟨o, (compare_number x y).symm.trans h⟩
      exact .numbers hx hy
    | _ => cases h
  | string s =>
    cases b with
    | string t => exact .texts s t
    | _ => cases h
  | _ => cases b <;> cases h

theorem compare_of_not_areOrdered (h : ¬AreOrdered a b) : a.compare b = none :=
  Option.eq_none_iff_forall_ne_some.mpr fun _ ho => h (areOrdered_of_compare ho)

/-- Values that are ordered compare in one way, and as equals exactly if they are equal. -/
theorem exists_compare (h : AreOrdered a b) :
    ∃ o, a.compare b = some o ∧ (a.strictEq b = true ↔ o = .eq) := by
  cases h with
  | numbers hx hy =>
    obtain ⟨o, ho⟩ := exists_order_iff.mpr ⟨hx, hy⟩
    refine ⟨o, (compare_number _ _).trans ho, ?_⟩
    show (_ == _) = true ↔ _
    rw [beq_iff, ho]
    exact Option.some_inj
  | texts s t =>
    refine ⟨Ord.compare s t, compare_string s t, ?_⟩
    show (s == t) = true ↔ _
    rw [beq_iff_eq, compare_eq_iff_eq]

theorem compare_eq_some_eq_iff (h : AreOrdered a b) :
    a.compare b = some .eq ↔ a.strictEq b = true := by
  obtain ⟨o, hcompare, hequal⟩ := exists_compare h
  rw [hcompare, hequal]
  exact Option.some_inj

theorem compare_trans (hab : a.compare b = some .lt) (hbc : b.compare c = some .lt) :
    a.compare c = some .lt := by
  cases areOrdered_of_compare hab with
  | numbers =>
    cases areOrdered_of_compare hbc with
    | numbers =>
      rw [compare_number] at hab hbc ⊢
      exact order?_trans hab hbc
  | texts =>
    cases areOrdered_of_compare hbc with
    | texts =>
      rw [compare_string, Option.some.injEq] at hab hbc ⊢
      exact Std.TransCmp.lt_trans hab hbc

end Order

end Value

/-! ## The operators -/

namespace BinaryOperator

variable {op : BinaryOperator} {a b : Value}

def comparisons : List BinaryOperator := [equal, notEqual, less, greater, lessEqual, greaterEqual]

/-- Whether an operator says yes about two values. -/
def Holds (op : BinaryOperator) (a b : Value) : Prop := op.apply a b = .bool true

theorem holds_iff {yes : Bool} (h : op.apply a b = .bool yes) : op.Holds a b ↔ yes = true :=
  ⟨fun hyes => Value.bool.inj (h.symm.trans hyes), fun hyes => h.trans (congrArg Value.bool hyes)⟩

theorem holds_equal_iff : equal.Holds a b ↔ a.strictEq b = true := holds_iff rfl

theorem holds_notEqual_iff : notEqual.Holds a b ↔ ¬equal.Holds a b := by
  rw [holds_equal_iff]
  exact (holds_iff rfl).trans (by simp)

theorem holds_less_iff : less.Holds a b ↔ a.compare b = some .lt :=
  (holds_iff rfl).trans beq_iff_eq

theorem holds_greater_iff : greater.Holds a b ↔ a.compare b = some .gt :=
  (holds_iff rfl).trans beq_iff_eq

theorem holds_lessEqual_iff :
    lessEqual.Holds a b ↔ less.Holds a b ∨ a.compare b = some .eq := by
  rw [holds_less_iff]
  exact (holds_iff rfl).trans (by simp)

theorem holds_greaterEqual_iff :
    greaterEqual.Holds a b ↔ greater.Holds a b ∨ a.compare b = some .eq := by
  rw [holds_greater_iff]
  exact (holds_iff rfl).trans (by simp)

/-- The operator among `<`, `==` and `>` that says yes about two values that compare so. -/
def ofOrdering : Ordering → BinaryOperator
  | .lt => less
  | .eq => equal
  | .gt => greater

theorem existsUnique_holds (h : Value.AreOrdered a b) :
    ∃! op, op ∈ [less, equal, greater] ∧ op.Holds a b := by
  obtain ⟨o, hcompare, hequal⟩ := Value.exists_compare h
  have hholds : ∀ op ∈ [less, equal, greater], op.Holds a b ↔ op = ofOrdering o := by
    simp only [List.forall_mem_cons, holds_less_iff, holds_equal_iff, holds_greater_iff, hcompare,
      hequal, Option.some.injEq]
    cases o <;> simp [ofOrdering]
  have hmem : ofOrdering o ∈ [less, equal, greater] := by cases o <;> simp [ofOrdering]
  exact ⟨ofOrdering o, ⟨hmem, (hholds _ hmem).mpr rfl⟩, fun op ⟨hop, h⟩ => (hholds op hop).mp h⟩

/-- Every comparison says yes or no about any two values.  Equality is symmetric and transitive, is
denied by `!=`, and holds of a value and itself exactly if no NaN occurs in the value.  Of two
values that are ordered, exactly one of `<`, `==` and `>` holds; `<=` holds if `<` or `==` does,
and `>=` if `>` or `==` does.  `<` is transitive; and of two values that are not ordered none of
`<`, `>`, `<=` and `>=` holds. -/
theorem comparisons_coherent :
    (∀ op ∈ comparisons, ∀ a b, ∃ yes, op.apply a b = .bool yes) ∧
      (∀ a b, equal.Holds a b → equal.Holds b a) ∧
      (∀ a b c, equal.Holds a b → equal.Holds b c → equal.Holds a c) ∧
      (∀ a, equal.Holds a a ↔ ∀ x, Value.OccursIn (.number x) a → x.isNaN = false) ∧
      (∀ a b, notEqual.Holds a b ↔ ¬equal.Holds a b) ∧
      (∀ a b, Value.AreOrdered a b →
        (∃! op, op ∈ [less, equal, greater] ∧ op.Holds a b) ∧
        (lessEqual.Holds a b ↔ less.Holds a b ∨ equal.Holds a b) ∧
        (greaterEqual.Holds a b ↔ greater.Holds a b ∨ equal.Holds a b)) ∧
      (∀ a b c, less.Holds a b → less.Holds b c → less.Holds a c) ∧
      ∀ a b, ¬Value.AreOrdered a b →
        ∀ op ∈ [less, greater, lessEqual, greaterEqual], op.apply a b = .bool false := by
  refine ⟨?_, ?_, ?_, ?_, fun a b => holds_notEqual_iff, ?_, ?_, ?_⟩
  · intro op hop a b
    simp only [comparisons, List.mem_cons, List.not_mem_nil, or_false] at hop
    rcases hop with rfl | rfl | rfl | rfl | rfl | rfl <;> exact ⟨_, rfl⟩
  · intro a b h
    rw [holds_equal_iff] at h ⊢
    exact Value.strictEq_symm h
  · intro a b c hab hbc
    rw [holds_equal_iff] at hab hbc ⊢
    exact Value.strictEq_trans hab hbc
  · intro a
    rw [holds_equal_iff]
    exact Value.strictEq_self_iff
  · intro a b h
    have hequal : a.compare b = some .eq ↔ equal.Holds a b :=
      (Value.compare_eq_some_eq_iff h).trans holds_equal_iff.symm
    rw [holds_lessEqual_iff, holds_greaterEqual_iff, hequal]
    exact ⟨existsUnique_holds h, .rfl, .rfl⟩
  · intro a b c hab hbc
    rw [holds_less_iff] at hab hbc ⊢
    exact Value.compare_trans hab hbc
  · intro a b h op hop
    have hnone := Value.compare_of_not_areOrdered h
    simp only [List.mem_cons, List.not_mem_nil, or_false] at hop
    rcases hop with rfl | rfl | rfl | rfl <;> simp [apply, hnone]

/-- Lists with zeros of both signs, a list with a NaN in it, and numbers around zero. -/
theorem comparisons_coherent_zeros :
    let waxing : Value := .list [.number 0.0, .list [.string "moon"]]
    let waning : Value := .list [.number (-0.0), .list [.string "moon"]]
    let nan : Value := .number (0.0 / 0.0)
    let eclipse : Value := .list [.string "moon", .list [nan]]
    let least : Value := .number (-1.0 / 0.0)
    let zero : Value := .number 0.0
    let dot : Value := .number 5e-324
    equal.Holds waxing waning ∧ equal.Holds waning waxing ∧ equal.Holds waxing waxing ∧
      Value.OccursIn nan eclipse ∧ ¬equal.Holds eclipse eclipse ∧
      Value.AreOrdered zero dot ∧ (∃! op, op ∈ [less, equal, greater] ∧ op.Holds zero dot) ∧
      less.Holds least zero ∧ less.Holds zero dot ∧ less.Holds least dot ∧
      ¬Value.AreOrdered waxing waning ∧ lessEqual.apply waxing waning = .bool false := by
  intro waxing waning nan eclipse least zero dot
  obtain ⟨-, hsymm, htrans, hself, -, hordered, hless, hother⟩ := comparisons_coherent
  have hequal : equal.Holds waxing waning := holds_equal_iff.mpr (by decide)
  have hnan : Value.OccursIn nan eclipse :=
    .item (.tail _ (.head _)) (.item (.head _) .self)
  have hdot : Value.AreOrdered zero dot := .numbers (by decide) (by decide +kernel)
  have hbelow : less.Holds least zero := holds_less_iff.mpr (by decide)
  have habove : less.Holds zero dot := holds_less_iff.mpr (by decide +kernel)
  have hlists : ¬Value.AreOrdered waxing waning := by
    show ¬Value.AreOrdered (.list _) (.list _)
    exact fun h => nomatch h
  refine ⟨hequal, hsymm _ _ hequal, htrans _ _ _ hequal (hsymm _ _ hequal), hnan, ?_, hdot,
    (hordered _ _ hdot).1, hbelow, habove, hless _ _ _ hbelow habove, hlists,
    hother _ _ hlists _ (by decide)⟩
  rw [hself]
  intro h
  exact absurd (h _ hnan) (by decide)

end BinaryOperator

end Storybook
