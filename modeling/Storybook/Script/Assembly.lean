/-
# `Storybook.Script.Assembly` — from the tree of a script to its story

Assembly walks a tree once, in the order of its text: it splits the contents of blocks into
agents and statements, gives ids to the agents that have none, turns durations into
milliseconds and texts into interpolated strings, and flattens the lists of attributes and
options, in which nothing may be repeated.
-/
import Storybook.Script.Identity
import Storybook.Script.Placeholder
import Storybook.Script.Tree
import Storybook.Table

namespace Storybook.Script

/-- What can be wrong with a tree. -/
inductive Fault where
  /-- An attribute, an option or the delay of a page is repeated. -/
  | duplicate (key : String)
  /-- A property is repeated. -/
  | duplicateProperty (name : String)
  /-- Agents of a kind do not take an attribute. -/
  | notAttribute (key kind : String)
  /-- A statement does not take an option. -/
  | notOption (key owner : String)
  /-- A node stands in a story and may not. -/
  | notInStory (kind : String)
  /-- A node stands in a block and may not. -/
  | notInBlock (kind : String)
  /-- A node is no agent. -/
  | notAgent (kind : String)
deriving DecidableEq, Repr, Inhabited

def Fault.message : Fault → String
  | duplicate key => "duplicate '" ++ key ++ "'"
  | duplicateProperty name => "duplicate property '" ++ name ++ "'"
  | notAttribute key kind => "'" ++ key ++ "' is not an attribute of " ++ kind
  | notOption key owner => "'" ++ key ++ "' is not an option of " ++ owner
  | notInStory kind => kind ++ " is not allowed at story level"
  | notInBlock kind => kind ++ " is not allowed here"
  | notAgent kind => kind ++ " is not an agent"

/-- A value, or the first fault. -/
abbrev Checked := Except (Located Fault)

/-- A step of assembly, which may take ids from a source. -/
abbrev Assembly (ι : Type) := StateT ι (Except (Located Fault))

/-- The fault at a position. -/
def fault (position : Position) (f : Fault) : Checked α := .error ⟨position, f⟩

/-! ## Options -/

/-- Goes through options in order, none of which may be repeated, and adds each of them to
what the options before it gave. -/
def collect (key : β → String) (add : α → Located β → Checked α) :
    (seen : List String) → α → List (Located β) → Checked α
  | _, done, [] => .ok done
  | seen, done, item :: rest =>
    if seen.contains (key item.value) then
      fault item.position (.duplicate (key item.value))
    else do
      let done ← add done item
      collect key add (key item.value :: seen) done rest

def animationSpec (kind : String) (modifiers : List (Located Modifier)) : Checked AnimationSpec :=
  collect Modifier.key (fun spec m =>
    match m.value with
    | .duration d => .ok { spec with duration := some d.milliseconds }
    | .cycles n => .ok { spec with cycles := some n }
    | other => fault m.position (.notOption other.key "animate")) [] ⟨kind, none, none⟩ modifiers

def tweenOptions (modifiers : List (Located Modifier)) : Checked TweenOptions :=
  collect Modifier.key (fun options m =>
    match m.value with
    | .duration d => .ok { options with duration := some d.milliseconds }
    | .easing name => .ok { options with easing := some name }
    | other => fault m.position (.notOption other.key "move/tween")) [] ⟨none, none⟩ modifiers

def musicOptions (modifiers : List (Located Modifier)) : Checked MusicOptions :=
  collect Modifier.key (fun options m =>
    match m.value with
    | .looping b => .ok { options with looping := b }
    | .volume x => .ok { options with volume := some x }
    | other => fault m.position (.notOption other.key "music")) [] ⟨false, none⟩ modifiers

/-- The properties of a movement. -/
def propertyTable (done : Table Expression) : List (Located Property) → Checked (Table Expression)
  | [] => .ok done
  | p :: rest =>
    if done.contains p.value.name then fault p.position (.duplicateProperty p.value.name)
    else propertyTable (done.insert p.value.name (withPlaceholders p.value.value)) rest

/-! ## Attributes -/

/-- What the attributes of an agent say. -/
structure Look where
  id : Option String := none
  position : Option Point := none
  size : Option Point := none
  color : Option String := none
  fontSize : Option Float := none
  autoplay : Option Bool := none
  looping : Option Bool := none
  animation : Option AnimationSpec := none
deriving Inhabited

/-- The look with one more attribute. -/
def Look.add (look : Look) : Attribute → Checked Look
  | .id name => .ok { look with id := some name }
  | .place point => .ok { look with position := some point }
  | .size extent => .ok { look with size := some extent }
  | .color name => .ok { look with color := some name }
  | .fontSize value => .ok { look with fontSize := some value }
  | .autoplay value => .ok { look with autoplay := some value }
  | .looping value => .ok { look with looping := some value }
  | .animate kind modifiers => do
    let spec ← animationSpec kind modifiers
    .ok { look with animation := some spec }

/-- Goes through the attributes of an agent in order; only `allowed` ones may occur, and none
of them twice. -/
def Look.collect (kind : String) (allowed : List String) :
    (seen : List String) → Look → List (Located Attribute) → Checked Look
  | _, look, [] => .ok look
  | seen, look, a :: rest =>
    if !allowed.contains a.value.key then fault a.position (.notAttribute a.value.key kind)
    else if seen.contains a.value.key then fault a.position (.duplicate a.value.key)
    else do
      let look ← look.add a.value
      Look.collect kind allowed (a.value.key :: seen) look rest

def textAttributes : List String := ["#id", "at", "color", "font_size", "animate"]

def buttonAttributes : List String := ["#id", "at", "size", "color", "animate"]

def imageAttributes : List String := ["#id", "at", "size", "animate"]

def videoAttributes : List String := ["#id", "at", "size", "autoplay", "loop", "animate"]

/-! ## Blocks -/

/-- The contents of a block, agents and statements apart. -/
structure Block where
  agents : List Agent := []
  statements : List Statement := []
  autoAdvance : Option UInt64 := none
deriving Inhabited

def Block.addAgent (b : Block) (agent : Agent) : Block := { b with agents := b.agents ++ [agent] }

def Block.addStatement (b : Block) (statement : Statement) : Block :=
  { b with statements := b.statements ++ [statement] }

variable {ι : Type} [IdSource ι]

/-- Stops with the fault at a position. -/
def stop (position : Position) (f : Fault) : Assembly ι α := fun _ => .error ⟨position, f⟩

/-- The id of an agent: its own, or the next one of the source. -/
def agentId (kind : String) : Option String → Assembly ι String
  | some id => pure id
  | none => fun ids => .ok (IdSource.next kind ids)

mutual

def assembleAgent (position : Position) : Node → Assembly ι Agent
  | .text content attributes => do
    let look ← Look.collect "text" textAttributes [] {} attributes
    let id ← agentId "text" look.id
    pure (.text ⟨id, interpolated content, look.position, look.fontSize, look.color,
      look.animation⟩)
  | .button label attributes handlers => do
    let look ← Look.collect "button" buttonAttributes [] {} attributes
    let id ← agentId "button" look.id
    let handlers ← assembleHandlers handlers
    pure (.button ⟨id, interpolated label, look.position, look.size, look.color, look.animation,
      handlers⟩)
  | .image src attributes => do
    let look ← Look.collect "image" imageAttributes [] {} attributes
    let id ← agentId "image" look.id
    pure (.image ⟨id, src, look.position, look.size, look.animation⟩)
  | .video src attributes => do
    let look ← Look.collect "video" videoAttributes [] {} attributes
    let id ← agentId "video" look.id
    pure (.video ⟨id, src, look.position, look.size, look.autoplay.getD false,
      look.looping.getD false, look.animation⟩)
  | .choice condition items elseItems => do
    let agents ← assembleAgents items
    let elseAgents ← assembleAgents elseItems
    pure (.choice (withPlaceholders condition) agents elseAgents)
  | .forEach name range items => do
    let agents ← assembleAgents items
    pure (.forEach name (withPlaceholders range) agents)
  | .wait delay items => do
    let b ← assembleBlock false {} items
    pure (.wait delay.milliseconds b.agents b.statements)
  | .timer interval times items => do
    let actions ← assembleStatements items
    pure (.timer interval.milliseconds times actions)
  | .page .. => stop position (.notAgent "page")
  | .autoAdvance _ => stop position (.notAgent "auto_advance")
  | .statement _ => stop position (.notAgent "statement")

def assembleStatement : Command → Assembly ι Statement
  | .init name value => pure (.init name (withPlaceholders value))
  | .set name value => pure (.set name (withPlaceholders value))
  | .add name amount => pure (.add name (withPlaceholders amount))
  | .subtract name amount => pure (.subtract name (withPlaceholders amount))
  | .goToPage page => pure (.goToPage page)
  | .goBack => pure .goBack
  | .move target x y modifiers => do
    let options ← tweenOptions modifiers
    pure (.move target (withPlaceholders x) (withPlaceholders y) options)
  | .tween target properties modifiers => do
    let properties ← propertyTable .empty properties
    let options ← tweenOptions modifiers
    pure (.tween target properties options)
  | .animate target kind modifiers => do
    let spec ← animationSpec kind modifiers
    pure (.animate target spec)
  | .stopAnimation target => pure (.stopAnimation target)
  | .playSound src volume => pure (.playSound src volume)
  | .stopSound src => pure (.stopSound src)
  | .stopMusic => pure .stopMusic
  | .music src modifiers => do
    let options ← musicOptions modifiers
    pure (.music src options)
  | .wait delay body => do
    let actions ← assembleStatements body
    pure (.wait delay.milliseconds actions)
  | .timer interval times body => do
    let actions ← assembleStatements body
    pure (.timer interval.milliseconds times actions)

/-- The agents of a block that holds nothing else. -/
def assembleAgents : List (Located Node) → Assembly ι (List Agent)
  | [] => pure []
  | ⟨position, node⟩ :: rest => do
    let agent ←
      if node.isAgent then assembleAgent position node
      else stop position (.notInBlock node.kind)
    let agents ← assembleAgents rest
    pure (agent :: agents)

/-- The statements of a block that holds nothing else. -/
def assembleStatements : List (Located Node) → Assembly ι (List Statement)
  | [] => pure []
  | ⟨position, node⟩ :: rest => do
    let statement ← match node with
      | .statement command => assembleStatement command
      | other => stop position (.notInBlock other.kind)
    let statements ← assembleStatements rest
    pure (statement :: statements)

/-- The contents of a block of agents and statements; in a page it may also hold the delay
after which the page is turned. -/
def assembleBlock (inPage : Bool) : Block → List (Located Node) → Assembly ι Block
  | done, [] => pure done
  | done, ⟨position, node⟩ :: rest => do
    let done ← match node with
      | .autoAdvance delay =>
        if !inPage then stop position (.notInBlock "auto_advance")
        else if done.autoAdvance.isSome then
          stop position (.duplicate "auto_advance")
        else pure { done with autoAdvance := some delay.milliseconds }
      | .statement command => do pure (done.addStatement (← assembleStatement command))
      | .page .. => stop position (.notInBlock "page")
      | agent => do pure (done.addAgent (← assembleAgent position agent))
    assembleBlock inPage done rest

/-- What a button does at gestures. -/
def assembleHandlers : List (HandlerNode Node) → Assembly ι (List Handler)
  | [] => pure []
  | ⟨gesture, body⟩ :: rest => do
    let statements ← assembleStatements body
    let handlers ← assembleHandlers rest
    pure (⟨gesture, statements⟩ :: handlers)

end

/-- The pages and statements of a story. -/
def assembleStory : List (Located Node) → Assembly ι (List Page × List Statement)
  | [] => pure ([], [])
  | ⟨position, node⟩ :: rest =>
    match node with
    | .page id items => do
      let b ← assembleBlock true {} items
      let (pages, statements) ← assembleStory rest
      pure (⟨id, b.agents, b.statements, b.autoAdvance⟩ :: pages, statements)
    | .statement command => do
      let statement ← assembleStatement command
      let (pages, statements) ← assembleStory rest
      pure (pages, statement :: statements)
    | other => stop position (.notInStory other.kind)

/-- The story of a tree, or its first fault. -/
def Tree.assemble (tree : Tree) : Assembly ι Story := do
  let (pages, statements) ← assembleStory tree.items
  pure ⟨tree.title, pages, statements⟩

end Storybook.Script
