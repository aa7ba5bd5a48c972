/-
# `Storybook.Proofs.Story.Occurrences` — what occurs in a story

The walks through a story list its agents and its statements.  Each of them has expressions of its
own, and an expression has others inside it; so the walks list every expression and every name of
a variable that a story has.

| | |
| :-- | :-- |
| the expressions of a story | `Story.expressions` |
| an expression and those inside it | `Expression.subtree` |
| the ways from an expression down to a leaf | `Expression.Path` |
| names of variables outside of texts | `Story.names` |
| names in placeholders of texts | `Story.placeholders` |
| the agents with an id | `Story.named` |

The search for an id (`Story.findAgent?`) gives the first of the agents with it (`findAgent?_eq`).
A story whose parts are of a kind (`Story.Has`) has only such expressions and names.
-/
import Storybook.Proofs.Story.Parts
import Storybook.Story.Traversal

namespace Storybook

/-! ## Expressions inside of others -/

def StringPart.placeholder? : StringPart → Option String
  | placeholder name => some name
  | text _ => none

namespace Expression

/-- The operands, bounds or options that an expression is made of. -/
def children : Expression → List Expression
  | binary _ left right => [left, right]
  | unary _ operand => [operand]
  | range first last => [first, last]
  | random source => [source]
  | pickOne options => options
  | number _ | string _ | boolean _ | var _ | interpolated _ | unknown => []

/-- The ways from an expression down to a leaf, with both ends. -/
inductive Path : Expression → List Expression → Prop
  | leaf {e : Expression} : e.children = [] → Path e [e]
  | step {e child : Expression} {path : List Expression} :
    child ∈ e.children → Path child path → Path e (e :: path)

mutual

/-- An expression and those inside it. -/
def subtree : Expression → List Expression
  | binary op left right => binary op left right :: (subtree left ++ subtree right)
  | unary op operand => unary op operand :: subtree operand
  | range first last => range first last :: (subtree first ++ subtree last)
  | random source => random source :: subtree source
  | pickOne options => pickOne options :: subtrees options
  | leaf => [leaf]

def subtrees : List Expression → List Expression
  | [] => []
  | expression :: rest => subtree expression ++ subtrees rest

end

mutual

/-- What goes over from an expression to its children goes over to all expressions inside it. -/
theorem forall_mem_subtree {P : Expression → Prop}
    (hchild : ∀ e child, P e → child ∈ e.children → P child) :
    (e : Expression) → P e → ∀ inside ∈ e.subtree, P inside
  | binary op left right, h => by
    have hleft := forall_mem_subtree hchild left (hchild _ left h (List.mem_cons_self ..))
    have hright := forall_mem_subtree hchild right
      (hchild _ right h (List.mem_cons_of_mem _ (List.mem_singleton_self right)))
    exact List.forall_mem_cons.mpr ⟨h, List.forall_mem_append.mpr ⟨hleft, hright⟩⟩
  | unary op operand, h => by
    have hoperand :=
      forall_mem_subtree hchild operand (hchild _ operand h (List.mem_singleton_self _))
    exact List.forall_mem_cons.mpr ⟨h, hoperand⟩
  | range first last, h => by
    have hfirst := forall_mem_subtree hchild first (hchild _ first h (List.mem_cons_self ..))
    have hlast := forall_mem_subtree hchild last
      (hchild _ last h (List.mem_cons_of_mem _ (List.mem_singleton_self last)))
    exact List.forall_mem_cons.mpr ⟨h, List.forall_mem_append.mpr ⟨hfirst, hlast⟩⟩
  | random source, h => by
    have hsource :=
      forall_mem_subtree hchild source (hchild _ source h (List.mem_singleton_self _))
    exact List.forall_mem_cons.mpr ⟨h, hsource⟩
  | pickOne options, h => by
    have hoptions := forall_mem_subtrees hchild options fun e he => hchild _ e h he
    exact List.forall_mem_cons.mpr ⟨h, hoptions⟩
  | number _, h | string _, h | boolean _, h | var _, h | interpolated _, h | unknown, h =>
    List.forall_mem_singleton.mpr h

theorem forall_mem_subtrees {P : Expression → Prop}
    (hchild : ∀ e child, P e → child ∈ e.children → P child) :
    (l : List Expression) → (∀ e ∈ l, P e) → ∀ inside ∈ subtrees l, P inside
  | [], _ => fun _ hinside => absurd hinside List.not_mem_nil
  | e :: rest, h => by
    obtain ⟨he, hrest⟩ := List.forall_mem_cons.mp h
    exact List.forall_mem_append.mpr
      ⟨forall_mem_subtree hchild e he, forall_mem_subtrees hchild rest hrest⟩

end

/-- The constructs with which expressions nest. -/
inductive Layer where
  /-- An operator in front of an operand. -/
  | unary
  | random
  | pickOne
deriving DecidableEq, Repr

/-- The layer that an expression lays around those inside it, if it is such a construct. -/
def layer : Expression → List Layer
  | unary .. => [.unary]
  | random _ => [.random]
  | pickOne _ => [.pickOne]
  | _ => []

/-- The variable that an expression is. -/
def name? : Expression → Option String
  | var name => some name
  | _ => none

/-- The placeholders of an expression that is a text. -/
def placeholders : Expression → List String
  | interpolated parts => parts.filterMap StringPart.placeholder?
  | _ => []

end Expression

/-! ## Expressions and names of a story -/

namespace Statement

/-- The expressions of a statement itself. -/
def expressions : Statement → List Expression
  | init _ value | set _ value => [value]
  | add _ amount | subtract _ amount => [amount]
  | move _ x y _ => [x, y]
  | tween _ properties _ => properties.entries.map (·.2)
  | _ => []

/-- The variable that a statement writes. -/
def target? : Statement → Option String
  | init name _ | set name _ | add name _ | subtract name _ => some name
  | _ => none

end Statement

namespace Agent

/-- The expressions of an agent itself. -/
def expressions : Agent → List Expression
  | text a => [a.content]
  | button a => [a.label]
  | choice condition _ _ => [condition]
  | forEach _ range _ => [range]
  | _ => []

/-- The variable that an agent gives a value. -/
def target? : Agent → Option String
  | forEach name _ _ => some name
  | _ => none

end Agent

namespace Story

/-- The expressions that stand in a story, without those inside them. -/
def expressions (story : Story) : List Expression :=
  story.agents.flatMap Agent.expressions ++ story.allStatements.flatMap Statement.expressions

/-- Every name of a variable in a story outside of placeholders. -/
def names (story : Story) : List String :=
  story.agents.filterMap Agent.target? ++ story.allStatements.filterMap Statement.target? ++
    (Expression.subtrees story.expressions).filterMap Expression.name?

/-- Every name in a placeholder of a story. -/
def placeholders (story : Story) : List String :=
  (Expression.subtrees story.expressions).flatMap Expression.placeholders

end Story

/-! ## Agents with an id -/

/-- The agents of a story that are drawn under an id, in the order of the walks. -/
def Story.named (story : Story) (id : String) : List Agent :=
  story.agents.filter (·.id? = some id)

namespace Agent

variable (id : String)

theorem find?_singleton (a : Agent) :
    [a].find? (·.id? = some id) = if a.id? = some id then some a else none := by
  rw [List.find?_singleton]
  simp only [decide_eq_true_eq]

mutual

/-- The search inside an agent follows the walk: control agents have no id of their own. -/
theorem findIn?_eq : (a : Agent) → findIn? id a = a.subtree.find? (·.id? = some id)
  | choice _ agents elseAgents => by
    rw [findIn?, subtree, findAmong?_eq agents, findAmong?_eq elseAgents, ← List.find?_append]
    rfl
  | forEach _ _ agents => by
    rw [findIn?, subtree, findAmong?_eq agents]
    rfl
  | wait _ agents _ => by
    rw [findIn?, subtree, findAmong?_eq agents]
    rfl
  | text a => (find?_singleton id (text a)).symm
  | button a => (find?_singleton id (button a)).symm
  | image a => (find?_singleton id (image a)).symm
  | video a => (find?_singleton id (video a)).symm
  | timer .. => rfl

theorem findAmong?_eq : (l : List Agent) →
    findAmong? id l = (subtrees l).find? (·.id? = some id)
  | [] => rfl
  | a :: rest => by
    rw [findAmong?, subtrees, findIn?_eq a, findAmong?_eq rest, List.find?_append]

end

end Agent

/-- The search finds the first agent with the id. -/
theorem Story.findAgent?_eq (story : Story) (id : String) :
    story.findAgent? id = (story.named id).head? := by
  rw [named, List.head?_filter, agents, List.find?_flatMap]
  exact congrArg story.pages.findSome? (funext fun page => Agent.findAmong?_eq id page.agents)

/-! ## Stories of a kind -/

variable {q : Parts}

namespace Statement

mutual

theorem Has.subtree : (s : Statement) → s.Has q → ∀ t ∈ s.subtree, t.Has q
  | wait _ actions, h | timer _ _ actions, h =>
    List.forall_mem_cons.mpr ⟨h, AllHave.subtrees actions h⟩
  | init .., h | set .., h | add .., h | subtract .., h | goToPage _, h | goBack, h | move .., h
  | tween .., h | animate .., h | stopAnimation _, h | playSound .., h | stopSound _, h
  | stopMusic, h | music .., h | unknown, h => List.forall_mem_singleton.mpr h

theorem AllHave.subtrees : (l : List Statement) → AllHave q l → ∀ t ∈ subtrees l, t.Has q
  | [], _ => fun _ ht => absurd ht List.not_mem_nil
  | s :: rest, h =>
    List.forall_mem_append.mpr ⟨Has.subtree s h.1, AllHave.subtrees rest h.2⟩

end

theorem Has.expressions {s : Statement} (h : s.Has q) : ∀ e ∈ s.expressions, q.expression e := by
  cases s with
  | init | set | add | subtract => exact List.forall_mem_singleton.mpr h.2
  | move => exact List.forall_mem_cons.mpr ⟨h.1, List.forall_mem_singleton.mpr h.2⟩
  | tween => exact List.forall_mem_map.mpr h.2
  | _ => exact fun _ he => absurd he List.not_mem_nil

theorem Has.target {s : Statement} (h : s.Has q) {name : String} (hname : s.target? = some name) :
    q.name name := by
  cases s with
  | init | set | add | subtract =>
    cases hname
    exact h.1
  | _ => cases hname

end Statement

namespace Agent

mutual

theorem Has.subtree : (a : Agent) → a.Has q → ∀ b ∈ a.subtree, b.Has q
  | choice _ agents elseAgents, h => by
    have hagents := AllHave.subtrees agents h.2.1
    have helse := AllHave.subtrees elseAgents h.2.2
    exact List.forall_mem_cons.mpr ⟨h, List.forall_mem_append.mpr ⟨hagents, helse⟩⟩
  | forEach _ _ agents, h => List.forall_mem_cons.mpr ⟨h, AllHave.subtrees agents h.2.2⟩
  | wait _ agents _, h => List.forall_mem_cons.mpr ⟨h, AllHave.subtrees agents h.1⟩
  | text _, h | button _, h | image _, h | video _, h | timer .., h =>
    List.forall_mem_singleton.mpr h

theorem AllHave.subtrees : (l : List Agent) → AllHave q l → ∀ b ∈ subtrees l, b.Has q
  | [], _ => fun _ hb => absurd hb List.not_mem_nil
  | a :: rest, h =>
    List.forall_mem_append.mpr ⟨Has.subtree a h.1, AllHave.subtrees rest h.2⟩

end

mutual

theorem Has.statements : (a : Agent) → a.Has q → ∀ s ∈ a.statements, s.Has q
  | button a, h => by
    obtain ⟨-, -, -, hhandlers⟩ := h
    intro s hs
    obtain ⟨handler, hhandler, hs⟩ := List.mem_flatMap.mp hs
    exact Statement.AllHave.subtrees _ (hhandlers handler hhandler) s hs
  | wait _ agents actions, h => by
    have hactions : Statement.AllHave q actions :=
      (Statement.allHave_iff q).mpr fun s hs => (h.2 s hs).1
    exact List.forall_mem_append.mpr
      ⟨Statement.AllHave.subtrees actions hactions, AllHave.statementsOf agents h.1⟩
  | timer _ _ actions, h => Statement.AllHave.subtrees actions h
  | choice _ agents elseAgents, h =>
    List.forall_mem_append.mpr
      ⟨AllHave.statementsOf agents h.2.1, AllHave.statementsOf elseAgents h.2.2⟩
  | forEach _ _ agents, h => AllHave.statementsOf agents h.2.2
  | text _, _ | image _, _ | video _, _ => fun _ hs => absurd hs List.not_mem_nil

theorem AllHave.statementsOf : (l : List Agent) → AllHave q l → ∀ s ∈ statementsOf l, s.Has q
  | [], _ => fun _ hs => absurd hs List.not_mem_nil
  | a :: rest, h =>
    List.forall_mem_append.mpr ⟨Has.statements a h.1, AllHave.statementsOf rest h.2⟩

end

theorem Has.expressions {a : Agent} (h : a.Has q) :
    ∀ e ∈ a.expressions, q.expression e ∨ q.label e := by
  cases a with
  | text | button => exact List.forall_mem_singleton.mpr (.inr h.1)
  | choice => exact List.forall_mem_singleton.mpr (.inl h.1)
  | forEach => exact List.forall_mem_singleton.mpr (.inl h.2.1)
  | _ => exact fun _ he => absurd he List.not_mem_nil

theorem Has.target {a : Agent} (h : a.Has q) {name : String} (hname : a.target? = some name) :
    q.name name := by
  cases a with
  | forEach =>
    cases hname
    exact h.1
  | _ => cases hname

end Agent

namespace Story.Has

variable {story : Story}

theorem agents (h : story.Has q) : ∀ a ∈ story.agents, a.Has q := by
  intro a ha
  obtain ⟨page, hpage, ha⟩ := List.mem_flatMap.mp ha
  exact Agent.AllHave.subtrees _ ((Agent.allHave_iff q).mpr (h.1 page hpage).1) a ha

theorem allStatements (h : story.Has q) : ∀ s ∈ story.allStatements, s.Has q := by
  have hown := Statement.AllHave.subtrees _ ((Statement.allHave_iff q).mpr h.2)
  refine List.forall_mem_append.mpr ⟨hown, fun s hs => ?_⟩
  obtain ⟨page, hpage, hs⟩ := List.mem_flatMap.mp hs
  obtain ⟨hagents, hstatements⟩ := h.1 page hpage
  have hturned : Statement.AllHave q page.statements :=
    (Statement.allHave_iff q).mpr fun s hs => (hstatements s hs).1
  exact List.forall_mem_append.mpr ⟨Statement.AllHave.subtrees _ hturned,
    Agent.AllHave.statementsOf _ ((Agent.allHave_iff q).mpr hagents)⟩ s hs

/-- The expressions of a story of a kind are of the kind, or displayed texts of the kind. -/
theorem expressions (h : story.Has q) :
    ∀ e ∈ story.expressions, q.expression e ∨ q.label e := by
  refine List.forall_mem_append.mpr ⟨fun e he => ?_, fun e he => ?_⟩
  · obtain ⟨a, ha, he⟩ := List.mem_flatMap.mp he
    exact (h.agents a ha).expressions e he
  · obtain ⟨s, hs, he⟩ := List.mem_flatMap.mp he
    exact .inl ((h.allStatements s hs).expressions e he)

/-- The variables that agents and statements write have names of the kind. -/
theorem targets (h : story.Has q) :
    ∀ name ∈ story.agents.filterMap Agent.target? ++
      story.allStatements.filterMap Statement.target?, q.name name := by
  refine List.forall_mem_append.mpr ⟨fun name hname => ?_, fun name hname => ?_⟩
  · obtain ⟨a, ha, hname⟩ := List.mem_filterMap.mp hname
    exact (h.agents a ha).target hname
  · obtain ⟨s, hs, hname⟩ := List.mem_filterMap.mp hname
    exact (h.allStatements s hs).target hname

end Story.Has

end Storybook
