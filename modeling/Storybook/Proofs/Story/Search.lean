/-
# `Storybook.Proofs.Story.Search` — the search for an agent

Two recursions go down from the agents of a page to those inside them.  The walk lists all of them,
the search for an id stops as soon as it has an agent:

| | at an agent | at several agents |
| :-- | :-- | :-- |
| the walk | the agent, then its children (`Agent.subtree_eq`) | one after the other |
| the search | the agent, or else its children (`Agent.findIn?_eq_or`) | the first that has any |

So what the search finds is the first agent of the walk with the id, wherever the agents with it
stand: on a page (`Page.findAgent?_eq_some_iff`), and in a story, page by page
(`Story.findAgent?_isFirst`).
-/
import Storybook.Proofs.Story.Occurrences

namespace Storybook

namespace Agent

/-- The walk meets an agent before those in its lists of children, and these list by list. -/
theorem subtree_eq (a : Agent) : a.subtree = a :: a.children.flatMap subtrees := by
  cases a with
  | choice | forEach | wait => simp only [subtree, children, List.flatMap_cons, List.flatMap_nil,
      List.append_nil]
  | text | button | image | video | timer => rfl

variable {id : String}

/-- The search looks at an agent before its lists of children, and stops at the first list in
which it finds an agent. -/
theorem findIn?_eq_or (a : Agent) :
    findIn? id a =
      (if a.id? = some id then some a else none).or (a.children.findSome? (findAmong? id)) := by
  cases a with
  | choice _ agents elseAgents =>
    show (findAmong? id agents).or (findAmong? id elseAgents) =
      [agents, elseAgents].findSome? (findAmong? id)
    simp only [List.findSome?_cons, List.findSome?_nil]
    cases findAmong? id agents <;> cases findAmong? id elseAgents <;> rfl
  | forEach _ _ agents | wait _ agents _ =>
    show findAmong? id agents = [agents].findSome? (findAmong? id)
    simp only [List.findSome?_cons, List.findSome?_nil]
    cases findAmong? id agents <;> rfl
  | text | button | image | video => exact Option.or_none.symm
  | timer => rfl

/-- Whether an agent is the first of some agents with an id. -/
def IsFirst (id : String) (agents : List Agent) (a : Agent) : Prop :=
  a.id? = some id ∧ ∃ before after, agents = before ++ a :: after ∧ ∀ b ∈ before, b.id? ≠ some id

theorem isFirst_iff {agents : List Agent} {a : Agent} :
    IsFirst id agents a ↔ agents.find? (·.id? = some id) = some a := by
  simp [IsFirst, List.find?_eq_some_iff_append]

end Agent

/-- The search of a page finds the first agent of its walk. -/
theorem Page.findAgent?_eq_some_iff {page : Page} {id : String} {a : Agent} :
    page.findAgent? id = some a ↔ Agent.IsFirst id (Agent.subtrees page.agents) a := by
  rw [findAgent?, Agent.findAmong?_eq, Agent.isFirst_iff]

/-- The search of a story finds the first agent of the walk that has the id, and none exactly if
the walk meets no such agent; and it is the search of the first page in which one is found. -/
theorem Story.findAgent?_isFirst (story : Story) (id : String) :
    (∀ a, story.findAgent? id = some a ↔ Agent.IsFirst id story.agents a) ∧
      (story.findAgent? id = none ↔ ∀ a ∈ story.agents, a.id? ≠ some id) ∧
      ∀ a, story.findAgent? id = some a ↔
        ∃ earlier page later, story.pages = earlier ++ page :: later ∧
          page.findAgent? id = some a ∧ ∀ p ∈ earlier, p.findAgent? id = none := by
  have hwalk : story.findAgent? id = story.agents.find? (·.id? = some id) := by
    rw [findAgent?_eq, named, List.head?_filter]
  refine ⟨fun a => ?_, ?_, fun a => ?_⟩
  · rw [hwalk, Agent.isFirst_iff]
  · rw [hwalk]
    simp
  · rw [findAgent?, List.findSome?_eq_some_iff]

end Storybook
