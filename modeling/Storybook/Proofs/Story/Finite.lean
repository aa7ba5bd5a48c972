/-
# `Storybook.Proofs.Story.Finite` — stories whose numbers are finite

JSON has no form for infinities and NaN.  Here is said of every part of a story that its
numbers have one: the numbers in expressions, the coordinates of agents, their sizes and the
sizes of their letters, and the volumes of sounds.
-/
import Storybook.Story.Basic

namespace Storybook

/-- Whether both coordinates are finite. -/
def Point.isFinite (p : Point) : Bool := p.x.isFinite && p.y.isFinite

namespace Expression

mutual

/-- Whether every number in an expression is finite. -/
def isFinite : Expression → Bool
  | number value => value.isFinite
  | binary _ left right => isFinite left && isFinite right
  | unary _ operand => isFinite operand
  | range first last => isFinite first && isFinite last
  | random source => isFinite source
  | pickOne options => areFinite options
  | string _ | boolean _ | var _ | interpolated _ | unknown => true

def areFinite : List Expression → Bool
  | [] => true
  | expression :: rest => isFinite expression && areFinite rest

end

end Expression

namespace Statement

mutual

def isFinite : Statement → Bool
  | init _ value | set _ value | add _ value | subtract _ value => value.isFinite
  | move _ x y _ => x.isFinite && y.isFinite
  | tween _ properties _ => properties.entries.all (·.2.isFinite)
  | playSound _ volume => volume.all Float.isFinite
  | music _ options => options.volume.all Float.isFinite
  | wait _ actions | timer _ _ actions => areFinite actions
  | goToPage _ | goBack | animate _ _ | stopAnimation _ | stopSound _ | stopMusic | unknown =>
    true

def areFinite : List Statement → Bool
  | [] => true
  | statement :: rest => isFinite statement && areFinite rest

end

theorem areFinite_eq_all (l : List Statement) : areFinite l = l.all isFinite := by
  induction l with
  | nil => rfl
  | cons statement rest ih => rw [areFinite, ih, List.all_cons]

end Statement

def Handler.isFinite (h : Handler) : Bool := Statement.areFinite h.statements

namespace Agent

mutual

def isFinite : Agent → Bool
  | text a =>
    a.content.isFinite && a.position.all Point.isFinite && a.fontSize.all Float.isFinite
  | button a =>
    a.label.isFinite && a.position.all Point.isFinite && a.size.all Point.isFinite &&
      a.handlers.all Handler.isFinite
  | image a => a.position.all Point.isFinite && a.size.all Point.isFinite
  | video a => a.position.all Point.isFinite && a.size.all Point.isFinite
  | choice condition agents elseAgents =>
    condition.isFinite && areFinite agents && areFinite elseAgents
  | forEach _ range agents => range.isFinite && areFinite agents
  | wait _ agents actions => areFinite agents && Statement.areFinite actions
  | timer _ _ actions => Statement.areFinite actions

def areFinite : List Agent → Bool
  | [] => true
  | agent :: rest => isFinite agent && areFinite rest

end

theorem areFinite_eq_all (l : List Agent) : areFinite l = l.all isFinite := by
  induction l with
  | nil => rfl
  | cons agent rest ih => rw [areFinite, ih, List.all_cons]

end Agent

def Page.isFinite (page : Page) : Bool :=
  Agent.areFinite page.agents && Statement.areFinite page.statements

/-- Whether every number in a story is finite. -/
def Story.isFinite (story : Story) : Bool :=
  story.pages.all Page.isFinite && Statement.areFinite story.statements

end Storybook
