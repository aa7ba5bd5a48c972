/-
# `Storybook.Script.Tree` — scripts as they are written

The tree of a script keeps the order of its text: what stands in a block, and the attributes
and options of an agent or a statement with their positions, repeated ones included.  Which
of them may stand where is for `Storybook.Script.Assembly` to say.
-/
import Storybook.Script.Literal

namespace Storybook.Script

/-- Something with the position of its first word. -/
structure Located (α : Type) where
  position : Position
  value : α
deriving Repr, Inhabited

/-- An option of an animation, of a movement or of music. -/
inductive Modifier where
  | duration (value : Duration)
  | cycles (value : Int64)
  | easing (name : String)
  | looping (value : Bool)
  | volume (value : Float)
deriving DecidableEq, Repr, Inhabited

/-- The word that begins an option. -/
def Modifier.key : Modifier → String
  | duration _ => "duration"
  | cycles _ => "repeat"
  | easing _ => "easing"
  | looping _ => "loop"
  | volume _ => "volume"

inductive Attribute where
  | id (name : String)
  | place (point : Point)
  | size (extent : Point)
  | color (name : String)
  | fontSize (value : Float)
  | autoplay (value : Bool)
  | looping (value : Bool)
  | animate (kind : String) (modifiers : List (Located Modifier))
deriving Repr, Inhabited

/-- The word that begins an attribute. -/
def Attribute.key : Attribute → String
  | id _ => "#id"
  | place _ => "at"
  | size _ => "size"
  | color _ => "color"
  | fontSize _ => "font_size"
  | autoplay _ => "autoplay"
  | looping _ => "loop"
  | animate .. => "animate"

/-- What a button does at a gesture. -/
structure HandlerNode (α : Type) where
  gesture : Gesture
  body : List (Located α)
deriving Inhabited

/-- A property of an agent, and the value it moves to. -/
structure Property where
  name : String
  value : Expression
deriving Inhabited

mutual

/-- Something that stands in a block. -/
inductive Node where
  | page (id : Int64) (items : List (Located Node))
  | autoAdvance (delay : Duration)
  | text (content : String) (attributes : List (Located Attribute))
  | button (label : String) (attributes : List (Located Attribute))
      (handlers : List (HandlerNode Node))
  | image (src : String) (attributes : List (Located Attribute))
  | video (src : String) (attributes : List (Located Attribute))
  | choice (condition : Expression) (items elseItems : List (Located Node))
  | forEach (name : String) (range : Expression) (items : List (Located Node))
  | wait (delay : Duration) (items : List (Located Node))
  | timer (interval : Duration) (times : Option UInt32) (items : List (Located Node))
  | statement (command : Command)

inductive Command where
  | init (name : String) (value : Expression)
  | set (name : String) (value : Expression)
  | add (name : String) (amount : Expression)
  | subtract (name : String) (amount : Expression)
  | goToPage (page : Int64)
  | goBack
  | move (target : String) (x y : Expression) (modifiers : List (Located Modifier))
  | tween (target : String) (properties : List (Located Property))
      (modifiers : List (Located Modifier))
  | animate (target : String) (kind : String) (modifiers : List (Located Modifier))
  | stopAnimation (target : String)
  | playSound (src : String) (volume : Option Float)
  | stopSound (src : Option String)
  | stopMusic
  | music (src : String) (modifiers : List (Located Modifier))
  | wait (delay : Duration) (body : List (Located Node))
  | timer (interval : Duration) (times : Option UInt32) (body : List (Located Node))

end

instance : Inhabited Command := ⟨.goBack⟩

instance : Inhabited Node := ⟨.statement .goBack⟩

namespace Node

def isAgent : Node → Bool
  | page .. | autoAdvance _ | statement _ => false
  | _ => true

def kind : Node → String
  | page .. => "page"
  | autoAdvance _ => "auto_advance"
  | text .. => "text"
  | button .. => "button"
  | image .. => "image"
  | video .. => "video"
  | choice .. => "if"
  | forEach .. => "for"
  | wait .. => "wait"
  | timer .. => "timer"
  | statement _ => "statement"

end Node

/-- A script: the title of the story and what stands in its block. -/
structure Tree where
  title : String
  items : List (Located Node)
deriving Inhabited

end Storybook.Script
