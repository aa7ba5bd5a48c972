/-
# `Storybook.Json.Record` — records, variants and names in JSON

What the documents of the library have in common, read from the side of the reader:

| in the library | in JSON |
| :-- | :-- |
| a record | an object; or a list of its fields in their order, of which the last may be left out |
| a variant | a record whose first field `type` names the variant |
| a name out of several | a string; or an object whose one field has that name and the value null |
| an optional value | null, or no field, where there is none |
| a map | an object, of whose repeated fields the last counts |

Fields that a record does not know are passed over; a field it knows may not be repeated.
Within a variant, another variant may also be given by its index and the null of a name may
be an empty object.
-/
import Storybook.Json.Basic
import Storybook.Table

namespace Storybook.Json

/-! ## How deep a value goes -/

mutual

/-- How deep lists and objects nest in a value. -/
def depth : Json → Nat
  | .arr items => depthItems items + 1
  | .obj fields => depthFields fields + 1
  | _ => 0

def depthItems : List Json → Nat
  | [] => 0
  | item :: rest => max (depth item) (depthItems rest)

def depthFields : List (String × Json) → Nat
  | [] => 0
  | (_, value) :: rest => max (depth value) (depthFields rest)

end

/-! ## Plain values -/

def str? : Json → Option String
  | .str s => some s
  | _ => none

def bool? : Json → Option Bool
  | .bool b => some b
  | _ => none

/-- A number; an integer stands for the nearest double. -/
def float? : Json → Option Float
  | .float x => some x
  | .int n => some (Float.ofInt n)
  | _ => none

/-- An integer within bounds. -/
def intWithin? (low high : Int) : Json → Option Int
  | .int n => if low ≤ n ∧ n ≤ high then some n else none
  | _ => none

def int64? (j : Json) : Option Int64 :=
  (intWithin? Int64.minValue.toInt Int64.maxValue.toInt j).map Int64.ofInt

def uint64? (j : Json) : Option UInt64 :=
  (intWithin? 0 (UInt64.size - 1) j).map fun n => UInt64.ofNat n.toNat

def uint32? (j : Json) : Option UInt32 :=
  (intWithin? 0 (UInt32.size - 1) j).map fun n => UInt32.ofNat n.toNat

def list? (read : Json → Option α) : Json → Option (List α)
  | .arr items => items.mapM read
  | _ => none

def table? (read : Json → Option α) : Json → Option (Table α)
  | .obj fields =>
    (fields.mapM fun field => (read field.2).map fun value => (field.1, value)).map Table.ofList
  | _ => none

/-- A name out of several, given by the function that knows them. -/
def name? (nested : Bool) (ofName? : String → Option α) : Json → Option α
  | .str name => ofName? name
  | .obj [(name, .null)] => ofName? name
  | .obj [(name, .obj [])] => if nested then ofName? name else none
  | _ => none

/-! ## Fields -/

/-- The values of the named fields of a record, in the order of the names; none for a field
that is absent. -/
def slots? (names : List String) : Json → Option (List (Option Json))
  | .obj fields => names.mapM fun name =>
    match fields.filter (·.1 == name) with
    | [] => some none
    | [field] => some (some field.2)
    | _ => none
  | .arr items =>
    if items.length ≤ names.length then
      some (items.map some ++ List.replicate (names.length - items.length) none)
    else none
  | _ => none

/-- A field that must be present. -/
def required (read : Json → Option α) (slot : Option Json) : Option α := slot.bind read

/-- A field that may be absent or null. -/
def optional (read : Json → Option α) : Option Json → Option (Option α)
  | none => some none
  | some .null => some none
  | some value => (read value).map some

/-- A field that has a value of its own when absent. -/
def defaulted (read : Json → Option α) (value : α) : Option Json → Option α
  | none => some value
  | some j => read j

/-- The name that a field `type` gives; within a variant also by its index, an index beyond
the names giving no name of a variant. -/
def tagName? (nested : Bool) (names : List String) : Json → Option String
  | .str name => some name
  | .int n => if nested ∧ 0 ≤ n then some (names.getD n.toNat "") else none
  | _ => none

/-- The name of a variant, and the record of its other fields. -/
def variant? (nested : Bool) (names : List String) : Json → Option (String × Json)
  | .obj fields =>
    match fields.filter (·.1 == "type") with
    | [field] => (tagName? nested names field.2).map fun name =>
      (name, .obj (fields.filter (·.1 != "type")))
    | _ => none
  | .arr (tag :: rest) => (tagName? nested names tag).map fun name => (name, .arr rest)
  | _ => none

/-- A variant of at most a given depth.  What reads the fields of a kind is given what reads
the variants inside it. -/
def variantWithin? (kinds : List String)
    (ofFields? : (inner : Json → Option α) → (kind : String) → (fields : Json) → Option α) :
    Nat → (nested : Bool) → Json → Option α
  | 0, _, _ => none
  | depth + 1, nested, j => do
    let (kind, fields) ← variant? nested kinds j
    ofFields? (variantWithin? kinds ofFields? depth true) kind fields

end Storybook.Json
