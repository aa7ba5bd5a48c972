/-
# `Storybook.Script.Cursor` — places in the text of a script

A cursor is the rest of a text together with the place where the rest begins.  A line ends
with a line feed; columns count characters, and offsets count bytes of UTF-8.

Between the words of a script stand blanks (space, tab, carriage return, line feed) and
comments, which run from two slashes to the end of the line.  A carriage return ends a line
only before a line feed; two slashes whose line meets another carriage return first are no
comment.
-/

namespace Storybook.Script

/-- A line and a column, both counted from one. -/
structure Position where
  line : Nat
  column : Nat
deriving DecidableEq, Repr, Inhabited

/-- A place in a text. -/
structure Place extends Position where
  offset : Nat
deriving DecidableEq, Repr, Inhabited

/-- The place after a character. -/
def Place.after (p : Place) (c : Char) : Place :=
  if c = '\n' then { line := p.line + 1, column := 1, offset := p.offset + c.utf8Size }
  else { line := p.line, column := p.column + 1, offset := p.offset + c.utf8Size }

/-- The rest of a text, and the place where it begins. -/
structure Cursor extends Place where
  rest : List Char
deriving DecidableEq, Repr, Inhabited

namespace Cursor

/-- The beginning of a text. -/
def ofText (text : String) : Cursor :=
  { line := 1, column := 1, offset := 0, rest := text.toList }

/-- The place of a cursor, with another rest. -/
def withRest (p : Place) (rest : List Char) : Cursor := { toPlace := p, rest }

theorem ofText_ofList (cs : List Char) :
    ofText (String.ofList cs) = .withRest ⟨⟨1, 1⟩, 0⟩ cs :=
  congrArg (withRest ⟨⟨1, 1⟩, 0⟩) String.toList_ofList

/-- The cursor after the first `n` characters. -/
def advance : Nat → Cursor → Cursor
  | 0, c => c
  | n + 1, c =>
    match c.rest with
    | [] => c
    | first :: rest => advance n (withRest (c.toPlace.after first) rest)

end Cursor

/-- Whether a character is a blank between words. -/
def isSpace (c : Char) : Bool := c == ' ' || c == '\t' || c == '\r' || c == '\n'

/-- Whether the text after two slashes is a comment: no carriage return that ends no line
comes before the end of its line. -/
def isComment : List Char → Bool
  | [] => true
  | '\n' :: _ => true
  | '\r' :: rest => rest.head? == some '\n'
  | _ :: rest => isComment rest

/-- The cursor after the blanks and comments at a place; `inComment` tells whether the place
is inside a comment. -/
def skipFrom : List Char → (inComment : Bool) → Place → Cursor
  | [], _, p => .withRest p []
  | c :: rest, true, p => skipFrom rest (c != '\n' && c != '\r') (p.after c)
  | c :: rest, false, p =>
    if isSpace c then skipFrom rest false (p.after c)
    else if c = '/' then
      match rest with
      | '/' :: text =>
        if isComment text then skipFrom text true ((p.after '/').after '/')
        else .withRest p (c :: rest)
      | _ => .withRest p (c :: rest)
    else .withRest p (c :: rest)

/-- The cursor after the blanks and comments in front of it. -/
def Cursor.skip (c : Cursor) : Cursor := skipFrom c.rest false c.toPlace

end Storybook.Script
