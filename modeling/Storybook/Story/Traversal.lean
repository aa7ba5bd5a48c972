/-
# `Storybook.Story.Traversal` — walks through a story

Every walk goes through a story in the order of its text, a parent before its children.
`Story.agents` and `Story.allStatements` list what they meet; `Story.findAgent?` stops at the
first agent with an id.
-/
import Storybook.Story.Basic

namespace Storybook

namespace Statement

mutual

/-- A statement and those inside it. -/
def subtree : Statement → List Statement
  | wait duration actions => wait duration actions :: subtrees actions
  | timer interval times actions => timer interval times actions :: subtrees actions
  | statement => [statement]

def subtrees : List Statement → List Statement
  | [] => []
  | statement :: rest => subtree statement ++ subtrees rest

end

end Statement

namespace Agent

mutual

/-- An agent and those inside it. -/
def subtree : Agent → List Agent
  | choice condition agents elseAgents =>
    choice condition agents elseAgents :: (subtrees agents ++ subtrees elseAgents)
  | forEach name range agents => forEach name range agents :: subtrees agents
  | wait duration agents actions => wait duration agents actions :: subtrees agents
  | agent => [agent]

def subtrees : List Agent → List Agent
  | [] => []
  | agent :: rest => subtree agent ++ subtrees rest

end

mutual

/-- The statements of an agent: those of its own first, then those of the agents in it. -/
def statements : Agent → List Statement
  | button a => a.handlers.flatMap fun handler => Statement.subtrees handler.statements
  | wait _ agents actions => Statement.subtrees actions ++ statementsOf agents
  | timer _ _ actions => Statement.subtrees actions
  | choice _ agents elseAgents => statementsOf agents ++ statementsOf elseAgents
  | forEach _ _ agents => statementsOf agents
  | _ => []

def statementsOf : List Agent → List Statement
  | [] => []
  | agent :: rest => statements agent ++ statementsOf rest

end

mutual

/-- The agent with an id, if it is this one or inside it. -/
def findIn? (id : String) : Agent → Option Agent
  | choice _ agents elseAgents => (findAmong? id agents).or (findAmong? id elseAgents)
  | forEach _ _ agents => findAmong? id agents
  | wait _ agents _ => findAmong? id agents
  | agent => if agent.id? = some id then some agent else none

/-- The first agent with an id among some agents and those inside them. -/
def findAmong? (id : String) : List Agent → Option Agent
  | [] => none
  | agent :: rest => (findIn? id agent).or (findAmong? id rest)

end

end Agent

/-- The first agent of a page with an id. -/
def Page.findAgent? (page : Page) (id : String) : Option Agent := Agent.findAmong? id page.agents

namespace Story

/-- The first agent of a story with an id. -/
def findAgent? (story : Story) (id : String) : Option Agent :=
  story.pages.findSome? (·.findAgent? id)

def agents (story : Story) : List Agent :=
  story.pages.flatMap fun page => Agent.subtrees page.agents

/-- Every statement of a story: its own, then page by page those of the page and those of its
agents. -/
def allStatements (story : Story) : List Statement :=
  Statement.subtrees story.statements ++
    story.pages.flatMap fun page =>
      Statement.subtrees page.statements ++ Agent.statementsOf page.agents

/-- The names that an init or a set anywhere in a story writes. -/
def declared (story : Story) : List String := story.allStatements.filterMap Statement.declared?

end Story

end Storybook
