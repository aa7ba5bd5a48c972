/-
# `Storybook.Script.Grammar` — the rules of scripts

A construct is known by its first word; after that word its rules abort instead of refusing,
so that an error is reported where the construct breaks.  The one exception is the attribute
`animate`: the same word may begin a statement on the next line.

Blocks nest only as deep as there is room, of which the expressions in a block take from the
same.  Rules that contain blocks are functions of the rules of the blocks' contents, so that
the recursion is on the room alone.
-/
import Storybook.Script.Expression
import Storybook.Script.Tree

namespace Storybook.Script

namespace Rule

/-- What a rule reads, with its position. -/
def located (p : Rule α) : Rule (Located α) := do
  skip
  let start ← position
  let value ← p
  pure ⟨start, value⟩

/-- A word with blanks and comments around it. -/
def word (w : String) : Rule Unit := spaced (keyword w)

def items (p : Rule α) : Rule (List (Located α)) := many (spaced (located p))

/-- The contents of a block that there is no room for. -/
def noRoom : Rule α := nested "block" (fun _ => refuse .unexpected) 0

/-- A block around its contents; `expected` names what may stand before its end. -/
def block (expected : String) (contents : Rule α) : Rule α := do
  word "do"
  let value ← contents
  inContext expected (word "end")
  pure value

/-! ## Options and attributes -/

/-- How long something takes. -/
def durationModifier : Rule Modifier := do
  keyword "duration"
  pure (.duration (← cut (spaced duration)))

def animationModifier : Rule Modifier :=
  durationModifier <|> (do keyword "repeat"; pure (.cycles (← cut (spaced integer))))

def tweenModifier : Rule Modifier :=
  durationModifier <|> (do keyword "easing"; pure (.easing (← cut (spaced identifier))))

def musicModifier : Rule Modifier :=
  (do keyword "loop"; pure (.looping (← cut (spaced boolean))))
    <|> (do keyword "volume"; pure (.volume (← cut (spaced signedNumber))))

/-- The animation of an agent. -/
def animateAttribute : Rule Attribute := do
  keyword "animate"
  let kind ← spaced identifier
  let modifiers ← items animationModifier
  pure (.animate kind modifiers)

def agentAttribute : Rule Attribute :=
  (do text "#"; pure (.id (← cut identifier)))
    <|> (do keyword "at"; pure (.place (← cut (spaced point))))
    <|> (do keyword "size"; pure (.size (← cut (spaced point))))
    <|> (do keyword "color"; pure (.color (← cut (spaced stringLiteral))))
    <|> (do keyword "font_size"; pure (.fontSize (← cut (spaced signedNumber))))
    <|> (do keyword "autoplay"; pure (.autoplay (← cut (spaced boolean))))
    <|> (do keyword "loop"; pure (.looping (← cut (spaced boolean))))
    <|> animateAttribute

/-! ## Statements -/

/-- The statement `init name to value`, or the same with `set`. -/
def assignment (room : Nat) : Rule Command := do
  let isInit ← (do keyword "init"; pure true) <|> (do keyword "set"; pure false)
  cut do
    let name ← spaced variableName
    word "to"
    let value ← spaced (expression room)
    pure (if isInit then .init name value else .set name value)

/-- The statement `add amount to name`. -/
def addition (room : Nat) : Rule Command := do
  keyword "add"
  cut do
    let amount ← spaced (expression room)
    word "to"
    let name ← spaced variableName
    pure (.add name amount)

/-- The statement `subtract amount from name`. -/
def subtraction (room : Nat) : Rule Command := do
  keyword "subtract"
  cut do
    let amount ← spaced (expression room)
    word "from"
    let name ← spaced variableName
    pure (.subtract name amount)

/-- The statements `go to page id` and `go back`. -/
def turn : Rule Command := do
  keyword "go"
  cut <| inContext "'to page' or 'back'" <|
    (do word "to"; word "page"; pure (.goToPage (← cut (spaced integer))))
      <|> (do word "back"; pure .goBack)

/-- Two expressions in brackets. -/
def expressionPair (room : Nat) : Rule (Expression × Expression) := do
  symbol "["
  cut do
    let x ← spaced (expression room)
    symbol ","
    let y ← spaced (expression room)
    symbol "]"
    pure (x, y)

/-- The statement `move #target to [x, y]`, with options. -/
def movement (room : Nat) : Rule Command := do
  keyword "move"
  cut do
    let target ← spaced target
    word "to"
    let (x, y) ← expressionPair room
    let modifiers ← items tweenModifier
    pure (.move target x y modifiers)

def property (room : Nat) : Rule (Located Property) := do
  let name ← located identifier
  let value ← cut do symbol ":"; spaced (expression room)
  pure ⟨name.position, name.value, value⟩

/-- The statement `tween #target to`, with properties in braces and options. -/
def tweening (room : Nat) : Rule Command := do
  keyword "tween"
  cut do
    let target ← spaced target
    word "to"
    symbol "\x7b"
    let properties ← separated (symbol ",") (spaced (property room))
    symbol "\x7d"
    let modifiers ← items tweenModifier
    pure (.tween target properties modifiers)

/-- The statement `animate #target kind`, with options. -/
def animating : Rule Command := do
  keyword "animate"
  cut do
    let target ← spaced target
    let kind ← spaced identifier
    let modifiers ← items animationModifier
    pure (.animate target kind modifiers)

/-- The statements `stop animation #target`, `stop sound`, which may name a sound, and
`stop music`. -/
def stopping : Rule Command := do
  keyword "stop"
  cut <| inContext "'animation', 'sound' or 'music'" <|
    (do word "animation"; pure (.stopAnimation (← cut (spaced target))))
      <|> (do word "sound"; pure (.stopSound (← optional (spaced stringLiteral))))
      <|> (do word "music"; pure .stopMusic)

/-- The statement `play sound src`, with or without a volume. -/
def playing : Rule Command := do
  keyword "play"
  cut do
    word "sound"
    let src ← spaced stringLiteral
    let volume ← optional do
      word "volume"
      cut (spaced signedNumber)
    pure (.playSound src volume)

/-- The statement `music src`, with options. -/
def music : Rule Command := do
  keyword "music"
  cut do
    let src ← spaced stringLiteral
    let modifiers ← items musicModifier
    pure (.music src modifiers)

/-- The head of a timer: how often, and how many times. -/
def timerHead : Rule (Duration × Option UInt32) := do
  keyword "timer"
  cut do
    word "every"
    let interval ← spaced duration
    let times ← optional do
      word "repeat"
      cut (spaced count)
    pure (interval, times)

/-- A block of statements, given the rule of its contents. -/
def statementBlock (contents : Rule (List (Located Node))) : Rule (List (Located Node)) :=
  cut (block "statement or 'end'" contents)

/-- The statement `wait duration`, with a block of statements. -/
def waiting (contents : Rule (List (Located Node))) : Rule Command := do
  keyword "wait"
  let delay ← cut (spaced duration)
  let body ← statementBlock contents
  pure (.wait delay body)

/-- The statement `timer every duration`, with or without a number of times, and a block of
statements. -/
def ticking (contents : Rule (List (Located Node))) : Rule Command := do
  let (interval, times) ← timerHead
  let body ← statementBlock contents
  pure (.timer interval times body)

/-- A statement, given the rule of the contents of its blocks. -/
def commandOver (room : Nat) (contents : Rule (List (Located Node))) : Rule Command :=
  assignment room
    <|> addition room
    <|> subtraction room
    <|> turn
    <|> movement room
    <|> tweening room
    <|> animating
    <|> stopping
    <|> playing
    <|> music
    <|> waiting contents
    <|> ticking contents

def asNode (p : Rule Command) : Rule Node := do pure (.statement (← p))

def command : (room : Nat) → Rule Command
  | 0 => commandOver 0 noRoom
  | room + 1 => commandOver (room + 1) (items (asNode (command room)))

/-! ## Agents -/

def gesture : Rule Gesture :=
  (do keyword "on_click"; pure .click)
    <|> (do keyword "on_hover"; pure .hover)
    <|> (do keyword "on_drag"; pure .drag)
    <|> (do keyword "on_drop"; pure .drop)

/-- A gesture and a block of statements. -/
def handler (contents : Rule (List (Located Node))) : Rule (HandlerNode Node) := do
  let gesture ← located gesture
  let body ← statementBlock contents
  pure ⟨gesture.value, body⟩

/-- The agent `text content`, with attributes. -/
def textAgent : Rule Node := do
  keyword "text"
  let content ← cut (spaced stringLiteral)
  let attributes ← items agentAttribute
  pure (.text content attributes)

/-- The agent `button label`, with attributes, and what it does at gestures. -/
def buttonAgent (contents : Rule (List (Located Node))) : Rule Node := do
  keyword "button"
  let label ← cut (spaced stringLiteral)
  let attributes ← items agentAttribute
  let handlers ← optional do
    word "do"
    cut do
      let handlers ← many (spaced (handler contents))
      inContext "event or 'end'" (word "end")
      pure handlers
  pure (.button label attributes (handlers.getD []))

/-- The agent `image src`, with attributes. -/
def imageAgent : Rule Node := do
  keyword "image"
  let src ← cut (spaced stringLiteral)
  let attributes ← items agentAttribute
  pure (.image src attributes)

/-- The agent `video src`, with attributes. -/
def videoAgent : Rule Node := do
  keyword "video"
  let src ← cut (spaced stringLiteral)
  let attributes ← items agentAttribute
  pure (.video src attributes)

/-- The agent `if condition`, with a block of agents, and others after `else`. -/
def choiceAgent (room : Nat) (contents : Rule (List (Located Node))) : Rule Node := do
  keyword "if"
  let condition ← cut (spaced (expression room))
  cut (word "do")
  let agents ← contents
  let elseAgents ← optional do
    word "else"
    contents
  cut (inContext "agent, 'else' or 'end'" (word "end"))
  pure (.choice condition agents (elseAgents.getD []))

/-- The agent `for name in range`, with a block of agents. -/
def forAgent (room : Nat) (contents : Rule (List (Located Node))) : Rule Node := do
  keyword "for"
  let (name, range) ← cut do
    let name ← spaced variableName
    word "in"
    let range ← spaced (expression room)
    pure (name, range)
  let agents ← cut (block "agent or 'end'" contents)
  pure (.forEach name range agents)

/-- The agent `wait duration`, with a block of agents and statements. -/
def waitAgent (contents : Rule (List (Located Node))) : Rule Node := do
  keyword "wait"
  let delay ← cut (spaced duration)
  let items ← cut (block "agent, statement or 'end'" contents)
  pure (.wait delay items)

/-- The agent `timer every duration`, with or without a number of times, and a block of
statements. -/
def timerAgent (contents : Rule (List (Located Node))) : Rule Node := do
  let (interval, times) ← timerHead
  let body ← statementBlock contents
  pure (.timer interval times body)

/-- An agent, given the rules of the contents of its blocks: of agents, of agents and
statements, and of statements. -/
def agentOver (room : Nat) (agents mixed statements : Rule (List (Located Node))) : Rule Node :=
  textAgent
    <|> buttonAgent statements
    <|> imageAgent
    <|> videoAgent
    <|> choiceAgent room agents
    <|> forAgent room agents
    <|> waitAgent mixed
    <|> timerAgent statements

def agent : (room : Nat) → Rule Node
  | 0 => agentOver 0 noRoom noRoom noRoom
  | room + 1 =>
    agentOver (room + 1) (items (agent room))
      (items (agent room <|> asNode (command room)))
      (items (asNode (command room)))

/-! ## Pages and stories -/

/-- The delay of a page, `auto_advance duration`. -/
def autoAdvance : Rule Node := do
  keyword "auto_advance"
  pure (.autoAdvance (← cut (spaced duration)))

/-- What may stand in a page. -/
def pageItem (room : Nat) : Rule Node :=
  autoAdvance <|> agent room <|> asNode (command room)

/-- A page, `page id`, and its block. -/
def page (room : Nat) : Rule Node := do
  keyword "page"
  let id ← cut (spaced integer)
  let contents ← cut <| block "agent, statement or 'end'" <|
    nested "block" (fun room => items (pageItem room)) room
  pure (.page id contents)

/-- What may stand in a story. -/
def storyItem (room : Nat) : Rule Node := page room <|> asNode (command room)

/-- A story, `fable title`, and its block. -/
def story : Rule Tree := do
  word "fable"
  let title ← cut (spaced stringLiteral)
  let contents ← cut <| block "page, statement or 'end'" <|
    nested "block" (fun room => items (storyItem room)) maxNesting
  pure ⟨title, contents⟩

/-- A story and nothing after it. -/
def script : Rule Tree := do
  let tree ← story
  inContext "end of input" (spaced endOfText)
  pure tree

end Rule

/-- The tree of a script, or the error where the grammar refuses it. -/
def Tree.read (source : String) : Except SyntaxError Tree :=
  match Rule.script (.ofText source) with
  | .ok tree _ => .ok tree
  | .refuse error => .error error
  | .abort error => .error error

end Storybook.Script
