/-
# `Storybook.Json.Sorted` — objects with their fields in the order of their names
-/
import Storybook.Json.Basic
import Storybook.Table

namespace Storybook.Json

mutual

/-- The value with the fields of every object in ascending order; of repeated fields the last
one remains. -/
def sorted : Json → Json
  | arr items => arr (sortedItems items)
  | obj fields => obj (Table.ofList (sortedFields fields)).entries
  | value => value

def sortedItems : List Json → List Json
  | [] => []
  | item :: rest => sorted item :: sortedItems rest

def sortedFields : List (String × Json) → List (String × Json)
  | [] => []
  | (name, value) :: rest => (name, sorted value) :: sortedFields rest

end

end Storybook.Json
