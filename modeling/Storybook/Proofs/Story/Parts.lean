/-
# `Storybook.Proofs.Story.Parts` — stories whose parts are of a kind

A kind says which numbers, which names of variables, which expressions and which displayed
texts may occur.  A story is of the kind if all of its parts are, at any depth, and if its
statements stand as scripts have them: each of them is one that this library knows, a `tween`
has properties, and where agents stand too, among those of a page or of a `wait`, the statements
all run at once.

The numbers here are the ones outside of expressions: coordinates, sizes and volumes.
-/
import Storybook.Story.Basic

namespace Storybook

/-- Which parts a story may have. -/
structure Parts where
  number : Float → Prop
  name : String → Prop
  expression : Expression → Prop
  /-- Contents of texts and labels of buttons. -/
  label : Expression → Prop

variable (q : Parts)

/-- Whether both coordinates are of a kind. -/
def Point.Has (p : Point) : Prop := q.number p.x ∧ q.number p.y

namespace Statement

def isScheduled : Statement → Bool
  | wait .. | timer .. => true
  | _ => false

mutual

/-- Whether all parts of a statement are of a kind. -/
def Has : Statement → Prop
  | init name value | set name value => q.name name ∧ q.expression value
  | add name amount | subtract name amount => q.name name ∧ q.expression amount
  | move _ x y _ => q.expression x ∧ q.expression y
  | tween _ properties _ =>
    properties.isEmpty = false ∧ ∀ p ∈ properties.entries, q.expression p.2
  | playSound _ volume => ∀ x ∈ volume, q.number x
  | music _ options => ∀ x ∈ options.volume, q.number x
  | wait _ actions | timer _ _ actions => AllHave actions
  | goToPage _ | goBack | animate _ _ | stopAnimation _ | stopSound _ | stopMusic => True
  | unknown => False

def AllHave : List Statement → Prop
  | [] => True
  | statement :: rest => Has statement ∧ AllHave rest

end

theorem allHave_iff {l : List Statement} : AllHave q l ↔ ∀ s ∈ l, s.Has q := by
  induction l with
  | nil => exact ⟨fun _ _ h => (nomatch h), fun _ => trivial⟩
  | cons s rest ih => rw [AllHave, ih, List.forall_mem_cons]

/-- Whether all parts of a statement are of a kind, and it runs at once. -/
def HasAtOnce (s : Statement) : Prop := s.Has q ∧ s.isScheduled = false

end Statement

namespace Agent

mutual

def Has : Agent → Prop
  | text a =>
    q.label a.content ∧ (∀ p ∈ a.position, p.Has q) ∧ ∀ x ∈ a.fontSize, q.number x
  | button a =>
    q.label a.label ∧ (∀ p ∈ a.position, p.Has q) ∧ (∀ p ∈ a.size, p.Has q) ∧
      ∀ h ∈ a.handlers, Statement.AllHave q h.statements
  | image a => (∀ p ∈ a.position, p.Has q) ∧ ∀ p ∈ a.size, p.Has q
  | video a => (∀ p ∈ a.position, p.Has q) ∧ ∀ p ∈ a.size, p.Has q
  | choice condition agents elseAgents =>
    q.expression condition ∧ AllHave agents ∧ AllHave elseAgents
  | forEach name range agents => q.name name ∧ q.expression range ∧ AllHave agents
  | wait _ agents actions => AllHave agents ∧ ∀ s ∈ actions, Statement.HasAtOnce q s
  | timer _ _ actions => Statement.AllHave q actions

def AllHave : List Agent → Prop
  | [] => True
  | agent :: rest => Has agent ∧ AllHave rest

end

theorem allHave_iff {l : List Agent} : AllHave q l ↔ ∀ a ∈ l, a.Has q := by
  induction l with
  | nil => exact ⟨fun _ _ h => (nomatch h), fun _ => trivial⟩
  | cons a rest ih => rw [AllHave, ih, List.forall_mem_cons]

end Agent

def Page.Has (page : Page) : Prop :=
  (∀ a ∈ page.agents, a.Has q) ∧ ∀ s ∈ page.statements, s.HasAtOnce q

/-- Whether all parts of a story are of a kind. -/
def Story.Has (story : Story) : Prop :=
  (∀ page ∈ story.pages, page.Has q) ∧ ∀ s ∈ story.statements, s.Has q

/-- Parts of all sorts. -/
def Parts.any : Parts := ⟨fun _ => True, fun _ => True, fun _ => True, fun _ => True⟩

end Storybook
