/-
# `Storybook.Json.Layout` — JSON documents and what is asked for in them

`Json.read` reads a whole text as one value: nothing but blanks may follow it, and lists and
objects nest at most 127 deep.  `Json.readAs` reads a text of which it is known what somebody
asks for; the fields of records that nobody asks for are only passed over.

| layout | what is asked for |
| :-- | :-- |
| `whole` | everything |
| `flat` | the named fields of a record |
| `record` | the named fields of a record, each after its own layout |
| `listOf`, `mapOf` | every item of a list or a map, after the same layout |

A value of another shape than its layout expects is read whole.
-/
import Storybook.Json.Reader

namespace Storybook.Json

/-- How the values of a document are read: the rule for them, given how deep lists and
objects may nest. -/
abbrev Layout := (room : Nat) → Reader Json

namespace Layout

/-- Everything in the value is asked for. -/
def whole : Layout := value .hold

/-- A list whose items have a layout. -/
def listOf (item : Layout) : Layout
  | 0, cs => whole 0 cs
  | room + 1, cs =>
    match skipSpace cs with
    | '[' :: rest => list (fun _ => item room) rest
    | _ => whole (room + 1) cs

/-- A map whose values have a layout. -/
def mapOf (item : Layout) : Layout
  | 0, cs => whole 0 cs
  | room + 1, cs =>
    match skipSpace cs with
    | '\x7b' :: rest => object .hold (fun _ => item room) rest
    | _ => whole (room + 1) cs

/-- The rule for a field of a record by its name; fields that are not known are passed
over. -/
def fieldRule (known : List (String × Layout)) (room : Nat) (name : String) : Reader Json :=
  match known.find? (·.1 == name) with
  | some (_, layout) => layout room
  | none => passedOver

/-- The rule for a field of a record by its place. -/
def placeRule (known : List (String × Layout)) (room : Nat) (place : Nat) : Reader Json :=
  match known[place]? with
  | some (_, layout) => layout room
  | none => whole room

/-- A record whose known fields have layouts. -/
def record (known : List (String × Layout)) : Layout
  | 0, cs => whole 0 cs
  | room + 1, cs =>
    match skipSpace cs with
    | '\x7b' :: rest => object .hold (fieldRule known room) rest
    | '[' :: rest => list (placeRule known room) rest
    | _ => whole (room + 1) cs

/-- A record whose known fields are asked for as a whole. -/
def flat (names : List String) : Layout := record (names.map (·, whole))

end Layout

/-- How deep lists and objects may nest. -/
def maxDepth : Nat := 127

/-- The value that a whole text of a layout stands for. -/
def readAs (layout : Layout) (text : String) : Option Json :=
  match layout maxDepth text.toList with
  | some (json, rest) => if (skipSpace rest).isEmpty then some json else none
  | none => none

/-- The value that a whole text stands for. -/
def read (text : String) : Option Json := readAs .whole text

end Storybook.Json
