/-
# `Storybook.Session.Navigation` — the current page and the way back

Turning to a page remembers the page that is left, unless it was the last one remembered;
going back turns to the page remembered last and forgets it.
-/

namespace Storybook

/-- The current page, and the pages to go back to, the last one at the end. -/
structure Navigation where
  current : Option Int64
  history : List Int64
deriving DecidableEq, Repr

namespace Navigation

/-- No current page, and no way back. -/
def start : Navigation := ⟨none, []⟩

instance : Inhabited Navigation := ⟨start⟩

/-- Another current page, and no way back. -/
def reset (page : Option Int64) : Navigation := ⟨page, []⟩

/-- The history with a page that is left, unless it is the last one there already. -/
def remember (history : List Int64) (left : Int64) : List Int64 :=
  if history.getLast? = some left then history else history ++ [left]

def goTo (nav : Navigation) (page : Int64) : Navigation :=
  { current := some page
    history := match nav.current with
      | some left => remember nav.history left
      | none => nav.history }

/-- Goes back, if there is a page to go back to. -/
def back? (nav : Navigation) : Option Navigation :=
  nav.history.getLast?.map fun previous => ⟨some previous, nav.history.dropLast⟩

end Navigation

end Storybook
