/-
# `Storybook.Session.Basic` — playing a story

A session holds the story that is played, its variables, the current page with the way back,
where agents have moved to, everything that moves, the nodes of the host, a source of random
words, and the events that it has published.  Statements never fail: what cannot be done is
left out.
-/
import Storybook.Animation.Engine
import Storybook.Eval.Evaluate
import Storybook.Session.Event
import Storybook.Session.Navigation

namespace Storybook

/-- A session over nodes `ν`, with random words from `σ`. -/
structure Session (σ ν : Type) where
  settings : RuntimeSettings
  story : Option Story
  bindings : Variables
  /-- The variables that the story declares. -/
  declared : Table Unit
  navigation : Navigation
  /-- Where movements have taken agents. -/
  positions : Table Point
  engine : Engine Unit
  nodes : Table ν
  source : σ
  /-- The events so far, the first one first. -/
  published : List Event

namespace Session

variable {σ ν : Type} [WordSource σ] [RenderNode ν]

/-- The session that has loaded no story. -/
def new (settings : Settings) (nodes : Table ν) (source : σ) : Session σ ν where
  settings := settings.runtime
  story := none
  bindings := ∅
  declared := ∅
  navigation := .start
  positions := ∅
  engine := .new settings.animation
  nodes
  source
  published := []

def publish (s : Session σ ν) (event : Event) : Session σ ν :=
  { s with published := s.published ++ [event] }

/-! ## Variables -/

/-- The value of a variable; zero where it has none. -/
def valueOf (s : Session σ ν) (name : String) : Value :=
  (Environment.ofVariables s.bindings).read name

def setVariable (s : Session σ ν) (name : String) (value : Value) : Session σ ν :=
  { s with bindings := s.bindings.insert name value }.publish (.variableChanged name value)

/-- The value of an expression, and the session with the source after it. -/
def evaluate (s : Session σ ν) (expression : Expression) : Value × Session σ ν :=
  let (value, source) := expression.evaluate (.ofVariables s.bindings) s.source
  (value, { s with source })

/-! ## Pages -/

/-- The current page, if the story has it. -/
def currentPage? (s : Session σ ν) : Option Page := do
  let id ← s.navigation.current
  let story ← s.story
  story.page? id

/-- The id of the page after the current one in the order of the story. -/
def nextPage? (s : Session σ ν) : Option Int64 := do
  let story ← s.story
  let current ← s.navigation.current
  let index ← story.pages.findIdx? (·.id == current)
  let next ← story.pages[index + 1]?
  pure next.id

/-- Whether the settings allow to turn to a page. -/
def allows (s : Session σ ν) (page : Int64) : Bool :=
  !s.settings.strictNavigation || s.story.any (·.hasPage page)

/-- Turns to a page, unless the settings forbid it; tells whether they do not. -/
def goToPage (s : Session σ ν) (page : Int64) : Session σ ν × Bool :=
  if s.allows page then
    ({ s with navigation := s.navigation.goTo page }.publish
      (.pageChanged s.navigation.current (some page)), true)
  else (s, false)

/-- Goes back; tells whether there is a page to go back to. -/
def goBack (s : Session σ ν) : Session σ ν × Bool :=
  match s.navigation.back? with
  | some navigation =>
    ({ s with navigation }.publish
      (.pageChanged s.navigation.current navigation.current), true)
  | none => (s, false)

/-! ## Statements -/

/-- The values of the properties of a tween that are finite numbers. -/
def tweenTargets (s : Session σ ν) :
    List (String × Expression) → List (String × Float) × Session σ ν
  | [] => ([], s)
  | (name, expression) :: rest =>
    let (value, s) := s.evaluate expression
    let (targets, s) := s.tweenTargets rest
    let x := value.toNumber
    (if x.isFinite then (name, x) :: targets else targets, s)

/-- Moves an agent, unless a coordinate is no finite number or the agent has no node. -/
def moveAgent (s : Session σ ν) (target : String) (x y : Float) (options : TweenOptions) :
    Session σ ν :=
  if x.isFinite && y.isFinite then
    match s.engine.move s.nodes target ⟨x, y⟩ options none with
    | .ok engine => { s with engine, positions := s.positions.insert target ⟨x, y⟩ }
    | .error _ => s
  else s

/-- Runs a statement. -/
def execute (s : Session σ ν) : Statement → Session σ ν
  | .init name value | .set name value =>
    let (value, s) := s.evaluate value
    s.setVariable name value
  | .add name amount =>
    let (amount, s) := s.evaluate amount
    s.setVariable name (BinaryOperator.add.apply (s.valueOf name) amount)
  | .subtract name amount =>
    let (amount, s) := s.evaluate amount
    s.setVariable name (BinaryOperator.subtract.apply (s.valueOf name) amount)
  | .goToPage page => (s.goToPage page).1
  | .goBack => s.goBack.1
  | .move target x y options =>
    let (x, s) := s.evaluate x
    let (y, s) := s.evaluate y
    s.moveAgent target x.toNumber y.toNumber options
  | .tween target properties options =>
    let (properties, s) := s.tweenTargets properties.entries
    match s.engine.tween s.nodes target ⟨properties, options.duration, options.easing⟩ none with
    | .ok engine => { s with engine }
    | .error _ => s
  | .animate target animation =>
    match s.engine.start s.nodes target animation with
    | .ok (engine, nodes) => { s with engine, nodes }
    | .error _ => s
  | .stopAnimation target =>
    let (engine, nodes, _) := s.engine.stop s.nodes target
    { s with engine, nodes }
  | .playSound src volume => s.publish (.playSound src (volume.getD 1.0))
  | .stopSound src => s.publish (.stopSound src)
  | .stopMusic => s.publish .stopMusic
  | .music src options => s.publish (.playMusic src options.looping (options.volume.getD 1.0))
  | .wait duration actions => s.publish (.scheduled (.after duration) actions)
  | .timer interval times actions => s.publish (.scheduled (.every interval times) actions)
  | .unknown => s

def executeAll (s : Session σ ν) (statements : List Statement) : Session σ ν :=
  statements.foldl execute s

/-- Runs the statements of the current page. -/
def enterPage (s : Session σ ν) : Session σ ν :=
  match s.currentPage? with
  | some page => s.executeAll page.statements
  | none => s

/-- Runs what an agent does first at a gesture; tells whether it does anything. -/
def dispatch (s : Session σ ν) (gesture : Gesture) (agent : Agent) : Session σ ν × Bool :=
  match agent.handlers.find? (·.gesture == gesture) with
  | some handler => (s.executeAll handler.statements, true)
  | none => (s, false)

/-- The same for the agent with an id on the current page. -/
def dispatchById (s : Session σ ν) (gesture : Gesture) (id : String) : Session σ ν × Bool :=
  match s.currentPage?.bind (·.findAgent? id) with
  | some agent => s.dispatch gesture agent
  | none => (s, false)

/-! ## Loading -/

/-- The statements of a story that give variables their first values: those of the story and
of its first page. -/
def initializers (story : Story) : List Statement :=
  (story.statements ++ (story.firstPage?.map (·.statements)).getD []).filter
    fun statement => statement.declared?.isSome

/-- Loads a story in place of the one before.  The variables that the story declares are
reset, and the others too unless they shall be preserved; everything that moves stops, and
the story opens at its first page. -/
def load (s : Session σ ν) (story : Story) (preserve : Bool) : Session σ ν :=
  let declared := Table.ofList (story.declared.map fun name => (name, ()))
  let (engine, nodes) := s.engine.stopAll s.nodes
  let first := story.firstPage?.map (·.id)
  let fresh : Session σ ν :=
    { s with
      story := some story
      bindings :=
        if preserve then s.bindings.filter fun name _ => !declared.contains name else ∅
      declared
      navigation := .reset first
      positions := ∅
      engine
      nodes }
  (fresh.executeAll (initializers story)).publish (.pageChanged s.navigation.current first)

/-- Loads a story, preserving variables as the settings say. -/
def openStory (s : Session σ ν) (story : Story) : Session σ ν :=
  s.load story s.settings.preserveExternal

/-! ## The host -/

/-- Where an agent stands: where a movement has taken it, or else where the story puts it. -/
def agentPosition? (s : Session σ ν) (id : String) : Option Point :=
  (s.positions.find? id).or ((s.story.bind (·.findAgent? id)).bind Agent.position?)

/-- Lets time pass for everything that moves. -/
def tick (s : Session σ ν) (elapsed : Float) : Session σ ν :=
  let (engine, nodes, _) := s.engine.tick s.nodes elapsed
  { s with engine, nodes }

end Session

end Storybook
