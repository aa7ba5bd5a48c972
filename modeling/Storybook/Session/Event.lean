/-
# `Storybook.Session.Event` — what a session tells its host

A session publishes an event when the page or a variable changes, and when the host has
something to do: to play a sound, or to run statements later.
-/
import Storybook.Story.Encoding
import Storybook.Value.Basic

namespace Storybook

/-- When statements shall run. -/
inductive Schedule where
  | after (delay : UInt64)
  | every (interval : UInt64) (times : Option UInt32)
deriving DecidableEq, Repr, Inhabited

/-- What a session tells its host. -/
inductive Event where
  | pageChanged (left reached : Option Int64)
  | variableChanged (name : String) (value : Value)
  | playSound (src : String) (volume : Float)
  | stopSound (src : Option String)
  | playMusic (src : String) (looping : Bool) (volume : Float)
  | stopMusic
  | scheduled (schedule : Schedule) (actions : List Statement)
deriving Inhabited

def Schedule.toJson : Schedule → Json
  | after delay => .obj [("kind", .str "after"), ("delayMs", .ofUInt64 delay)]
  | every interval times =>
    .obj (("kind", .str "every") :: ("intervalMs", .ofUInt64 interval) ::
      Json.field? "repeat" (times.map Json.ofUInt32))

/-- A value that may be missing, as null where it is. -/
def Json.orNull (value : Option Json) : Json := value.getD .null

def Event.toJson : Event → Json
  | pageChanged left reached =>
    .variant "page_changed" [("from", .orNull (left.map Json.ofInt64)),
      ("to", .orNull (reached.map Json.ofInt64))]
  | variableChanged name value =>
    .variant "variable_changed" [("name", .str name), ("value", value.toJson)]
  | playSound src volume =>
    .variant "play_sound" [("src", .str src), ("volume", .ofFloat volume)]
  | stopSound src => .variant "stop_sound" [("src", .orNull (src.map Json.str))]
  | playMusic src looping volume =>
    .variant "play_music" [("src", .str src), ("looping", .bool looping),
      ("volume", .ofFloat volume)]
  | stopMusic => .variant "stop_music" []
  | scheduled schedule actions =>
    .variant "scheduled" [("schedule", schedule.toJson),
      ("actions", .arr (Statement.toJsons actions))]

end Storybook
