/-
# `Storybook.Eval.Environment` — the variables an expression sees

An environment finds the value of a name.  A name without a value reads as zero.
-/
import Storybook.Table
import Storybook.Value.Basic

namespace Storybook

abbrev Variables := Table Value

/-- What names stand for during an evaluation. -/
structure Environment where
  lookup : String → Option Value

namespace Environment

def ofVariables (values : Variables) : Environment := ⟨values.find?⟩

/-- An environment with one more variable, which hides another of its name. -/
def layered (env : Environment) (name : String) (value : Value) : Environment :=
  ⟨fun other => if other = name then some value else env.lookup other⟩

/-- The value of a name; zero where it has none. -/
def read (env : Environment) (name : String) : Value := (env.lookup name).getD (.number 0.0)

end Environment

end Storybook
