/-
# `Storybook.Script.Compile` — from the text of a script to its story

`compile` reads a script and assembles its story; `validate` only says whether that is
possible.  Errors of both stages are reported alike, with a position.
-/
import Storybook.Json.Basic
import Storybook.Script.Assembly
import Storybook.Script.Grammar

namespace Storybook.Script

/-- A problem in a script. -/
structure Diagnostic where
  message : String
  position : Position
deriving DecidableEq, Repr, Inhabited

namespace Diagnostic

/-- The report of an error of the grammar. -/
def ofSyntaxError (e : SyntaxError) : Diagnostic := ⟨e.message, e.cursor.toPosition⟩

/-- The report of a fault of a tree. -/
def ofFault (f : Located Fault) : Diagnostic := ⟨f.value.message, f.position⟩

/-- The problem and where it is, in one line. -/
def display (d : Diagnostic) : String :=
  d.message ++ " at line " ++ toString d.position.line ++ ", column " ++
    toString d.position.column

end Diagnostic

/-- The story of a script, and the source of ids after it. -/
def compile [IdSource ι] (ids : ι) (source : String) : Except Diagnostic (Story × ι) :=
  match Tree.read source with
  | .error e => .error (.ofSyntaxError e)
  | .ok tree =>
    match tree.assemble ids with
    | .error f => .error (.ofFault f)
    | .ok result => .ok result

theorem compile_eq_ok_iff [IdSource ι] {ids : ι} {source : String}
    {result : Story × ι} : compile ids source = .ok result ↔
      ∃ tree, Tree.read source = .ok tree ∧ tree.assemble ids = .ok result := by
  unfold compile
  cases hread : Tree.read source with
  | error e => exact ⟨nofun, nofun⟩
  | ok tree =>
    cases hassemble : tree.assemble ids with
    | error f => simp [hassemble]
    | ok result' => simp [hassemble]

/-- What is seen in a result is seen in the value of a success. -/
theorem exists_ok_of_map {ε β α : Type} {result : Except ε β} {see : β → α} {a : α}
    (h : result.toOption.map see = some a) : ∃ b, result = .ok b ∧ see b = a := by
  cases result with
  | error e => exact nomatch h
  | ok b => exact ⟨b, rfl, Option.some.inj h⟩

/-- The story of a script whose agents are numbered where they have no id. -/
def compileNumbered (source : String) : Except Diagnostic Story :=
  (compile (⟨0⟩ : IdCounter) source).map (·.1)

/-- Whether a script has a story, and why not. -/
structure Validation where
  error : Option String
deriving DecidableEq, Repr, Inhabited

namespace Validation

def isValid (v : Validation) : Bool := v.error.isNone

def toJson (v : Validation) : Json :=
  .obj (("valid", .bool v.isValid) :: Json.field? "error" (v.error.map Json.str))

end Validation

def validate (source : String) : Validation :=
  match compileNumbered source with
  | .ok _ => ⟨none⟩
  | .error d => ⟨some d.display⟩

end Storybook.Script
