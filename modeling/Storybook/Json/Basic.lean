/-
# `Storybook.Json.Basic` — JSON values

Integers and floating-point numbers are kept apart, because a field of integers accepts only
the former.  An object keeps its fields in the order of the text, repeated ones included.
-/
import Storybook.Number.Dyadic

namespace Storybook

inductive Json where
  | null
  | bool (value : Bool)
  | int (value : Int)
  | float (value : Float)
  | str (value : String)
  | arr (items : List Json)
  | obj (fields : List (String × Json))
deriving Inhabited, Repr

namespace Json

mutual

/-- Whether two values are the same, down to the order of their fields. -/
def same : Json → Json → Bool
  | null, null => true
  | bool b, bool b' => b == b'
  | int n, int n' => n == n'
  | float x, float x' => decide (x = x')
  | str s, str s' => s == s'
  | arr items, arr items' => sameItems items items'
  | obj fields, obj fields' => sameFields fields fields'
  | _, _ => false

def sameItems : List Json → List Json → Bool
  | [], [] => true
  | item :: items, item' :: items' => same item item' && sameItems items items'
  | _, _ => false

def sameFields : List (String × Json) → List (String × Json) → Bool
  | [], [] => true
  | (name, value) :: fields, (name', value') :: fields' =>
    name == name' && same value value' && sameFields fields fields'
  | _, _ => false

end

mutual

theorem same_iff : ∀ a b : Json, same a b = true ↔ a = b
  | null, b | bool _, b | int _, b | float _, b | str _, b => by cases b <;> simp [same]
  | arr items, b => by cases b <;> simp [same, sameItems_iff items]
  | obj fields, b => by cases b <;> simp [same, sameFields_iff fields]

theorem sameItems_iff : ∀ l l' : List Json, sameItems l l' = true ↔ l = l'
  | [], l' => by cases l' <;> simp [sameItems]
  | item :: items, l' => by cases l' <;> simp [sameItems, same_iff item, sameItems_iff items]

theorem sameFields_iff : ∀ l l' : List (String × Json), sameFields l l' = true ↔ l = l'
  | [], l' => by cases l' <;> simp [sameFields]
  | (name, value) :: fields, l' => by
    cases l' <;> simp [sameFields, Prod.ext_iff, same_iff value, sameFields_iff fields]

end

/-- Floats are compared by their bits here: a NaN is the same as itself, and the zeros differ. -/
instance : DecidableEq Json := fun a b => decidable_of_iff _ (same_iff a b)

/-- The number as a field of floating-point numbers holds it: infinities and NaN have no JSON
form and become null. -/
def ofFloat (x : Float) : Json := if x.isFinite then .float x else .null

/-- The optional field of an object: left out where there is no value. -/
def field? (name : String) (value : Option Json) : List (String × Json) :=
  match value with
  | none => []
  | some value => [(name, value)]

end Json

end Storybook
