/-
# `Storybook.Value.Basic` — the values of variables

A variable holds a number, a text, a truth value, a list or nothing.  Every value has a
displayed text, a truth value and a number, and values are compared without coercion.
-/
import Storybook.Json.Basic
import Storybook.Number.Notation
import Storybook.Number.Reading
import Storybook.Text.Blank

namespace Storybook

inductive Value where
  | number (value : Float)
  | string (value : String)
  | bool (value : Bool)
  | list (items : List Value)
  | null
deriving Inhabited, Repr

namespace Value

/-- Induction on a value: what all items of a list have, the list has. -/
@[elab_as_elim]
theorem items_induction {motive : Value → Prop} (number : ∀ x, motive (.number x))
    (string : ∀ s, motive (.string s)) (bool : ∀ t, motive (.bool t))
    (list : ∀ items, (∀ item ∈ items, motive item) → motive (.list items))
    (null : motive .null) : ∀ a, motive a
  | .number x => number x
  | .string s => string s
  | .bool t => bool t
  | .list items => list items fun item _ => items_induction number string bool list null item
  | .null => null

/-! ## Coercions -/

mutual

/-- The text a story shows for a value; the items of a list stand between commas. -/
def display : Value → String
  | number value => Number.display value
  | string value => value
  | bool value => if value then "true" else "false"
  | list items => ",".intercalate (displays items)
  | null => "null"

def displays : List Value → List String
  | [] => []
  | item :: rest => display item :: displays rest

end

/-- Zero, NaN, the empty text, `false` and null count as false; all else, the empty list
included, counts as true. -/
def isTruthy : Value → Bool
  | number value => value != 0.0 && !value.isNaN
  | string value => !value.isEmpty
  | bool value => value
  | list _ => true
  | null => false

/-- The number a text stands for, blanks around it left out; the blank text is zero, and a
text that is no number NaN. -/
def numberOfText (text : String) : Float :=
  match Text.trim text.toList with
  | [] => 0.0
  | cs => (Number.read cs).getD (0.0 / 0.0)

def toNumber : Value → Float
  | number value => value
  | string value => numberOfText value
  | bool value => if value then 1.0 else 0.0
  | list _ => 0.0 / 0.0
  | null => 0.0

/-- Whether a value is a number without coercion. -/
def isNumber : Value → Bool
  | number _ => true
  | _ => false

/-! ## Comparison -/

mutual

/-- Equality without coercion: values of different kinds differ, and lists are equal item by
item. -/
def strictEq : Value → Value → Bool
  | number a, number b => a == b
  | string a, string b => a == b
  | bool a, bool b => a == b
  | list a, list b => strictEqAll a b
  | null, null => true
  | _, _ => false

def strictEqAll : List Value → List Value → Bool
  | [], [] => true
  | a :: as, b :: bs => strictEq a b && strictEqAll as bs
  | _, _ => false

end

/-- Equal values are of one kind. -/
theorem strictEq_iff {a b : Value} : a.strictEq b = true ↔
    (∃ x y, a = number x ∧ b = number y ∧ (x == y) = true) ∨
      (∃ s, a = string s ∧ string s = b) ∨ (∃ t, a = bool t ∧ bool t = b) ∨
        (∃ as bs, a = list as ∧ b = list bs ∧ strictEqAll as bs = true) ∨
          a = null ∧ null = b := by
  cases a <;> cases b <;> simp [strictEq]

/-- The order of two numbers, none of them NaN. -/
def compareNumbers (a b : Float) : Option Ordering :=
  if a < b then some .lt
  else if b < a then some .gt
  else if a == b then some .eq
  else none

/-- The order of two numbers, or of two texts by their code points; no other values have
one. -/
def compare : Value → Value → Option Ordering
  | number a, number b => compareNumbers a b
  | string a, string b => some (if a < b then .lt else if a = b then .eq else .gt)
  | _, _ => none

/-! ## JSON -/

mutual

def toJson : Value → Json
  | number value => .ofFloat value
  | string value => .str value
  | bool value => .bool value
  | list items => .arr (toJsons items)
  | null => .null

def toJsons : List Value → List Json
  | [] => []
  | item :: rest => toJson item :: toJsons rest

end

mutual

/-- The value of a JSON value; objects have none. -/
def ofJson? : Json → Option Value
  | .null => some null
  | .bool value => some (bool value)
  | .int n => some (number (Float.ofInt n))
  | .float value => some (number value)
  | .str value => some (string value)
  | .arr items => (ofJsons? items).map list
  | .obj _ => none

def ofJsons? : List Json → Option (List Value)
  | [] => some []
  | item :: rest => do pure ((← ofJson? item) :: (← ofJsons? rest))

end

end Value

end Storybook
