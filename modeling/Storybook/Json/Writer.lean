/-
# `Storybook.Json.Writer` — JSON values as text

Two layouts: compact, without any blanks, and pretty, with one item a line and two blanks of
indentation for each level.  Empty lists and objects stay on one line in both.
-/
import Storybook.Json.Basic
import Storybook.Number.Notation

namespace Storybook.Json

/-- The lowercase hexadecimal digit of a number below sixteen. -/
def hexDigit (n : Nat) : Char :=
  if n < 10 then Char.ofNat ('0'.toNat + n) else Char.ofNat ('a'.toNat + (n - 10))

/-- A character inside a quoted string. -/
def escape (c : Char) : List Char :=
  if c = '"' then ['\\', '"']
  else if c = '\\' then ['\\', '\\']
  else if c = '\n' then ['\\', 'n']
  else if c = '\r' then ['\\', 'r']
  else if c = '\t' then ['\\', 't']
  else if c = '\x08' then ['\\', 'b']
  else if c = '\x0c' then ['\\', 'f']
  else if c.toNat < 0x20 then
    ['\\', 'u', '0', '0', hexDigit (c.toNat / 16), hexDigit (c.toNat % 16)]
  else [c]

/-- A string between quotes. -/
def quote (s : String) : String :=
  String.ofList ('"' :: s.toList.flatMap escape ++ ['"'])

/-- The text of a value that holds no other values. -/
def scalar : Json → String
  | .bool true => "true"
  | .bool false => "false"
  | .int n => toString n
  | .float x => (Number.jsonText? x).getD "null"
  | .str s => quote s
  | _ => "null"

mutual

/-- The compact text of a value. -/
def compact : Json → String
  | .arr items => "[" ++ ",".intercalate (compactItems items) ++ "]"
  | .obj fields => "\x7b" ++ ",".intercalate (compactFields fields) ++ "\x7d"
  | value => scalar value

def compactItems : List Json → List String
  | [] => []
  | item :: rest => compact item :: compactItems rest

def compactFields : List (String × Json) → List String
  | [] => []
  | (name, value) :: rest => (quote name ++ ":" ++ compact value) :: compactFields rest

end

/-- A new line with the indentation of a level. -/
def newline (level : Nat) : String :=
  String.ofList ('\n' :: List.replicate (2 * level) ' ')

mutual

/-- The indented text of a value that stands at a level. -/
def prettyAt (level : Nat) : Json → String
  | .arr [] => "[]"
  | .arr items =>
    "[" ++ ",".intercalate (prettyItems (level + 1) items) ++ newline level ++ "]"
  | .obj [] => "\x7b\x7d"
  | .obj fields =>
    "\x7b" ++ ",".intercalate (prettyFields (level + 1) fields) ++ newline level ++ "\x7d"
  | value => scalar value

/-- The indented texts of the items of a list, each on a new line. -/
def prettyItems (level : Nat) : List Json → List String
  | [] => []
  | item :: rest => (newline level ++ prettyAt level item) :: prettyItems level rest

/-- The indented texts of the fields of an object, each on a new line. -/
def prettyFields (level : Nat) : List (String × Json) → List String
  | [] => []
  | (name, value) :: rest =>
    (newline level ++ quote name ++ ": " ++ prettyAt level value) :: prettyFields level rest

end

/-- The indented text of a value. -/
def pretty (value : Json) : String := prettyAt 0 value

end Storybook.Json
