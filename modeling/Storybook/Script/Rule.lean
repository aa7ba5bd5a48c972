/-
# `Storybook.Script.Rule` — rules of the grammar and their errors

A rule reads something at a cursor.  It either succeeds, or *refuses*, which lets another
rule try the same place, or *aborts*, which ends the reading.

Where several rules refuse the same place, the error of the one that got furthest is kept,
and of those that got equally far the last one.  An error names what was expected; a rule in
a context lends its name to the errors at its beginning, and to all errors that name
nothing.
-/
import Storybook.Script.Cursor
import Storybook.Text.Blank

namespace Storybook.Script

/-! ## Errors -/

/-- Why a text was refused at a place. -/
inductive Cause where
  /-- What stands there fits no rule. -/
  | unexpected
  /-- Something else was expected there. -/
  | expected (what : String)
  /-- A complaint of its own. -/
  | complaint (message : String)
deriving DecidableEq, Repr, Inhabited

/-- An error of the grammar. -/
structure SyntaxError where
  cursor : Cursor
  cause : Cause
deriving DecidableEq, Repr, Inhabited

/-- A blank character as an error shows it. -/
def showBlank (c : Char) : String :=
  let shown :=
    if c = ' ' then " "
    else if c = '\t' then "\\t"
    else if c = '\n' then "\\n"
    else if c = '\r' then "\\r"
    else "\\u\x7b" ++ String.ofList (Nat.toDigits 16 c.toNat) ++ "\x7d"
  "'" ++ shown ++ "'"

/-- The first word of a text as an error shows it, cut after twenty characters. -/
def showFound (rest : List Char) : String :=
  match rest with
  | [] => "end of input"
  | c :: _ =>
    match (rest.takeWhile (!Text.isBlank ·)).take 20 with
    | [] => showBlank c
    | word => "'" ++ String.ofList word ++ "'"

namespace SyntaxError

def message (e : SyntaxError) : String :=
  match e.cause with
  | .unexpected => "unexpected " ++ showFound e.cursor.rest
  | .expected what => "expected " ++ what ++ ", found " ++ showFound e.cursor.rest
  | .complaint message => message

/-- The error that got further; the second one if both got equally far. -/
def further (e f : SyntaxError) : SyntaxError :=
  if e.cursor.offset ≤ f.cursor.offset then f else e

/-- The error of a rule in a context that begins at an offset. -/
def inContext (what : String) (start : Nat) (e : SyntaxError) : SyntaxError :=
  match e.cause with
  | .unexpected => { e with cause := .expected what }
  | .expected _ => if e.cursor.offset ≤ start then { e with cause := .expected what } else e
  | .complaint _ => e

end SyntaxError

/-! ## Rules -/

/-- What a rule comes to. -/
inductive Outcome (α : Type) where
  | ok (value : α) (rest : Cursor)
  | refuse (error : SyntaxError)
  | abort (error : SyntaxError)
deriving Repr, Inhabited

namespace Outcome

/-- The outcome with its errors replaced. -/
def mapError (f : SyntaxError → SyntaxError) : Outcome α → Outcome α
  | ok value rest => ok value rest
  | refuse error => refuse (f error)
  | abort error => abort (f error)

end Outcome

/-- A rule of the grammar. -/
def Rule (α : Type) : Type := Cursor → Outcome α

namespace Rule

instance : Monad Rule where
  pure value := fun c => .ok value c
  bind p f := fun c =>
    match p c with
    | .ok value rest => f value rest
    | .refuse error => .refuse error
    | .abort error => .abort error

/-- The rule that refuses every place. -/
def refuse (cause : Cause) : Rule α := fun c => .refuse ⟨c, cause⟩

/-- The rule that aborts at every place. -/
def abort (cause : Cause) : Rule α := fun c => .abort ⟨c, cause⟩

/-- The second rule at the places that the first one refuses. -/
def orElse (p q : Rule α) : Rule α := fun c =>
  match p c with
  | .refuse e =>
    match q c with
    | .refuse f => .refuse (e.further f)
    | outcome => outcome
  | outcome => outcome

instance : OrElse (Rule α) where
  orElse p q := orElse p (q ())

/-- The rule, aborting where it would refuse. -/
def cut (p : Rule α) : Rule α := fun c =>
  match p c with
  | .refuse error => .abort error
  | outcome => outcome

/-- The rule in a context: its errors name the context. -/
def inContext (what : String) (p : Rule α) : Rule α := fun c =>
  (p c).mapError (.inContext what c.skip.offset)

/-- The rule, or nothing at a place that it refuses. -/
def optional (p : Rule α) : Rule (Option α) := fun c =>
  match p c with
  | .ok value rest => .ok (some value) rest
  | .refuse _ => .ok none c
  | .abort error => .abort error

/-- The rule again and again until it refuses.  A rule that reads nothing is refused. -/
def many (p : Rule α) (c : Cursor) : Outcome (List α) :=
  match p c with
  | .ok value next =>
    if next.rest.length < c.rest.length then
      match many p next with
      | .ok values last => .ok (value :: values) last
      | outcome => outcome
    else .refuse ⟨c, .unexpected⟩
  | .refuse _ => .ok [] c
  | .abort error => .abort error
termination_by c.rest.length

/-- The rule once and then again after each separator; a separator that nothing follows is
left in the text. -/
def separated (separator : Rule Unit) (p : Rule α) : Rule (List α) := do
  let first ← p
  let others ← many (do separator; p)
  pure (first :: others)

/-- Reads over blanks and comments. -/
def skip : Rule Unit := fun c => .ok () c.skip

/-- The rule with blanks and comments around it. -/
def spaced (p : Rule α) : Rule α := do
  skip
  let value ← p
  skip
  pure value

def position : Rule Position := fun c => .ok c.toPosition c

/-- A given text. -/
def text (expected : String) : Rule Unit := fun c =>
  if expected.toList.isPrefixOf c.rest then .ok () (c.advance expected.length)
  else .refuse ⟨c, .unexpected⟩

/-- The characters at the front that pass a test. -/
def charsWhile (test : Char → Bool) : Rule (List Char) := fun c =>
  let read := c.rest.takeWhile test
  .ok read (c.advance read.length)

/-- One or more characters that pass a test. -/
def someChars (test : Char → Bool) : Rule (List Char) := fun c =>
  match c.rest.takeWhile test with
  | [] => .refuse ⟨c, .unexpected⟩
  | read => .ok read (c.advance read.length)

/-- Refuses a place where a rule succeeds, and reads nothing elsewhere. -/
def notAhead (p : Rule α) : Rule Unit := fun c =>
  match p c with
  | .ok _ _ => .refuse ⟨c, .unexpected⟩
  | .refuse _ => .ok () c
  | .abort error => .abort error

/-- Refuses, from the beginning of a rule, what does not pass a test. -/
def checked (what : String) (test : α → Bool) (p : Rule α) : Rule α := fun c =>
  match p c with
  | .ok value rest => if test value then .ok value rest else .refuse ⟨c, .expected what⟩
  | outcome => outcome

/-- Refuses, from the beginning of a rule, what a character that passes a test follows. -/
def unfollowed (what : String) (test : Char → Bool) (p : Rule α) : Rule α := fun c =>
  match p c with
  | .ok value rest =>
    if rest.rest.head?.any test then .refuse ⟨c, .expected what⟩ else .ok value rest
  | outcome => outcome

/-- The rule, expecting `what` where it refuses. -/
def named (what : String) (p : Rule α) : Rule α := fun c =>
  match p c with
  | .refuse _ => .refuse ⟨c, .expected what⟩
  | outcome => outcome

/-- The value of a rule computed further; where it has none, there is a complaint about the
place where the rule began. -/
def computed (p : Rule α) (f : α → Except String β) : Rule β := fun c =>
  match p c with
  | .ok value rest =>
    match f value with
    | .ok result => .ok result rest
    | .error message => .refuse ⟨c, .complaint message⟩
  | .refuse error => .refuse error
  | .abort error => .abort error

def endOfText : Rule Unit := fun c =>
  if c.rest.isEmpty then .ok () c else .refuse ⟨c, .unexpected⟩

end Rule

end Storybook.Script
