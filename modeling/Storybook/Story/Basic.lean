/-
# `Storybook.Story.Basic` — stories, pages, agents and statements

A story is a list of pages and some statements of its own.  A page shows *agents*: texts,
buttons, images and videos, and the control agents that show other agents under a condition,
for each item of a list, or after a while.  *Statements* change variables, turn pages, move
agents and play sounds.

Durations are in milliseconds throughout.
-/
import Storybook.Story.Expression
import Storybook.Table

namespace Storybook

/-- A pair of coordinates, or of a width and a height. -/
structure Point where
  x : Float
  y : Float
deriving DecidableEq, Repr, Inhabited

/-- What a reader can do to a button. -/
inductive Gesture where
  | click | hover | drag | drop
deriving DecidableEq, Repr, Inhabited

namespace Gesture

def all : List Gesture := [click, hover, drag, drop]

/-- The name of the gesture as an event. -/
def name : Gesture → String
  | click => "on_click"
  | hover => "on_hover"
  | drag => "on_drag"
  | drop => "on_drop"

def ofName? (name : String) : Option Gesture := all.find? (·.name == name)

end Gesture

/-- A procedural animation asked for by a story.  The kind is kept as it is written, known or
not. -/
structure AnimationSpec where
  kind : String
  duration : Option UInt64
  cycles : Option Int64
deriving DecidableEq, Repr, Inhabited

/-- How a movement runs. -/
structure TweenOptions where
  duration : Option UInt64
  easing : Option String
deriving DecidableEq, Repr, Inhabited

/-- How music plays. -/
structure MusicOptions where
  looping : Bool
  volume : Option Float
deriving DecidableEq, Repr, Inhabited

inductive Statement where
  | init (name : String) (value : Expression)
  | set (name : String) (value : Expression)
  | add (name : String) (amount : Expression)
  | subtract (name : String) (amount : Expression)
  | goToPage (page : Int64)
  | goBack
  | move (target : String) (x y : Expression) (options : TweenOptions)
  | tween (target : String) (properties : Table Expression) (options : TweenOptions)
  | animate (target : String) (animation : AnimationSpec)
  | stopAnimation (target : String)
  | playSound (src : String) (volume : Option Float)
  | stopSound (src : Option String)
  | stopMusic
  | music (src : String) (options : MusicOptions)
  /-- Runs its actions once, later. -/
  | wait (duration : UInt64) (actions : List Statement)
  /-- Runs its actions again and again. -/
  | timer (interval : UInt64) (times : Option UInt32) (actions : List Statement)
  /-- A kind of statement that this library does not know; it does nothing. -/
  | unknown
deriving Inhabited

namespace Statement

def kind : Statement → String
  | init .. => "init"
  | set .. => "set"
  | add .. => "add"
  | subtract .. => "subtract"
  | goToPage .. => "go_to_page"
  | goBack => "go_back"
  | move .. => "move"
  | tween .. => "tween"
  | animate .. => "animate"
  | stopAnimation .. => "stop_animation"
  | playSound .. => "play_sound"
  | stopSound .. => "stop_sound"
  | stopMusic => "stop_music"
  | music .. => "music"
  | wait .. => "wait"
  | timer .. => "timer"
  | unknown => "unknown"

/-- The variable that an init or a set writes. -/
def declared? : Statement → Option String
  | init name _ | set name _ => some name
  | _ => none

end Statement

/-- What a button does at a gesture. -/
structure Handler where
  gesture : Gesture
  statements : List Statement
deriving Inhabited

/-- A text on a page; its content is an interpolated string. -/
structure TextAgent where
  id : String
  content : Expression
  position : Option Point
  fontSize : Option Float
  color : Option String
  animation : Option AnimationSpec
deriving Inhabited

/-- A button; its label is an interpolated string. -/
structure ButtonAgent where
  id : String
  label : Expression
  position : Option Point
  size : Option Point
  color : Option String
  animation : Option AnimationSpec
  handlers : List Handler
deriving Inhabited

structure ImageAgent where
  id : String
  src : String
  position : Option Point
  size : Option Point
  animation : Option AnimationSpec
deriving Inhabited

structure VideoAgent where
  id : String
  src : String
  position : Option Point
  size : Option Point
  autoplay : Bool
  looping : Bool
  animation : Option AnimationSpec
deriving Inhabited

/-- An element of a page. -/
inductive Agent where
  | text (agent : TextAgent)
  | button (agent : ButtonAgent)
  | image (agent : ImageAgent)
  | video (agent : VideoAgent)
  /-- Shows some agents if a condition holds, others if not. -/
  | choice (condition : Expression) (agents elseAgents : List Agent)
  /-- Shows its agents for each item of a list. -/
  | forEach (name : String) (range : Expression) (agents : List Agent)
  /-- Shows its agents and runs its actions after a while. -/
  | wait (duration : UInt64) (agents : List Agent) (actions : List Statement)
  /-- Runs its actions again and again. -/
  | timer (interval : UInt64) (times : Option UInt32) (actions : List Statement)
deriving Inhabited

namespace Agent

def kind : Agent → String
  | text _ => "text"
  | button _ => "button"
  | image _ => "image"
  | video _ => "video"
  | choice .. => "if"
  | forEach .. => "for"
  | wait .. => "wait"
  | timer .. => "timer"

/-- The id of an agent that is drawn; control agents have none. -/
def id? : Agent → Option String
  | text a => some a.id
  | button a => some a.id
  | image a => some a.id
  | video a => some a.id
  | _ => none

/-- Where an agent that is drawn stands, if the story says so. -/
def position? : Agent → Option Point
  | text a => a.position
  | button a => a.position
  | image a => a.position
  | video a => a.position
  | _ => none

/-- The animation that an agent begins with. -/
def animation? : Agent → Option AnimationSpec
  | text a => a.animation
  | button a => a.animation
  | image a => a.animation
  | video a => a.animation
  | _ => none

/-- What an agent does at gestures; only buttons do anything. -/
def handlers : Agent → List Handler
  | button a => a.handlers
  | _ => []

/-- The lists of agents inside a control agent. -/
def children : Agent → List (List Agent)
  | choice _ agents elseAgents => [agents, elseAgents]
  | forEach _ _ agents => [agents]
  | wait _ agents _ => [agents]
  | _ => []

end Agent

/-- A page; its statements run when it is turned to. -/
structure Page where
  id : Int64
  agents : List Agent
  statements : List Statement
  autoAdvance : Option UInt64
deriving Inhabited

structure Story where
  title : String
  pages : List Page
  statements : List Statement
deriving Inhabited

namespace Story

/-- The first page with an id. -/
def page? (story : Story) (id : Int64) : Option Page := story.pages.find? (·.id == id)

def hasPage (story : Story) (id : Int64) : Bool := (story.page? id).isSome

/-- The page a story opens with. -/
def firstPage? (story : Story) : Option Page := story.pages.head?

end Story

end Storybook
