/-
# `Storybook.Story.Encoding` — stories as JSON

Variants carry their kind in a field `type`, which stands first; optional values that are
absent have no field.  Numbers that are not finite become null, the one case in which a
document does not read back (`Storybook.Story.Decoding`).
-/
import Storybook.Json.Basic
import Storybook.Story.Basic

namespace Storybook

/-- The object of a variant: its kind, and then its other fields. -/
def Json.variant (kind : String) (fields : List (String × Json)) : Json :=
  .obj (("type", .str kind) :: fields)

def Json.ofUInt64 (n : UInt64) : Json := .int n.toNat

def Json.ofInt64 (n : Int64) : Json := .int n.toInt

def Json.ofUInt32 (n : UInt32) : Json := .int n.toNat

namespace StringPart

/-- Literal text as a string, a placeholder as an object. -/
def toJson : StringPart → Json
  | text literal => .str literal
  | placeholder name => .variant "variable" [("name", .str name)]

end StringPart

namespace Expression

mutual

def toJson : Expression → Json
  | number value => .variant "number" [("value", .ofFloat value)]
  | string value => .variant "string" [("value", .str value)]
  | boolean value => .variant "boolean" [("value", .bool value)]
  | var name => .variant "variable" [("name", .str name)]
  | binary op left right =>
    .variant "binary_op" [("op", .str op.symbol), ("left", toJson left), ("right", toJson right)]
  | unary op operand =>
    .variant "unary_op" [("op", .str op.symbol), ("operand", toJson operand)]
  | range first last => .variant "range" [("start", toJson first), ("end", toJson last)]
  | random source => .variant "random" [("range", toJson source)]
  | pickOne options => .variant "pick_one" [("options", .arr (toJsons options))]
  | interpolated parts =>
    .variant "interpolated_string" [("parts", .arr (parts.map StringPart.toJson))]
  | unknown => .variant "unknown" []

def toJsons : List Expression → List Json
  | [] => []
  | expression :: rest => toJson expression :: toJsons rest

end

end Expression

/-- A pair of coordinates as a list of two numbers. -/
def Point.toJson (p : Point) : Json := .arr [.ofFloat p.x, .ofFloat p.y]

def AnimationSpec.toJson (a : AnimationSpec) : Json :=
  .obj (("kind", .str a.kind) :: (Json.field? "durationMs" (a.duration.map Json.ofUInt64) ++
    Json.field? "repeat" (a.cycles.map Json.ofInt64)))

def TweenOptions.toJson (o : TweenOptions) : Json :=
  .obj (Json.field? "durationMs" (o.duration.map Json.ofUInt64) ++
    Json.field? "easing" (o.easing.map Json.str))

def MusicOptions.toJson (o : MusicOptions) : Json :=
  .obj (("looping", .bool o.looping) :: Json.field? "volume" (o.volume.map Json.ofFloat))

namespace Statement

mutual

def toJson : Statement → Json
  | init name value => .variant "init" [("name", .str name), ("value", value.toJson)]
  | set name value => .variant "set" [("name", .str name), ("value", value.toJson)]
  | add name amount => .variant "add" [("name", .str name), ("amount", amount.toJson)]
  | subtract name amount =>
    .variant "subtract" [("name", .str name), ("amount", amount.toJson)]
  | goToPage page => .variant "go_to_page" [("page", .ofInt64 page)]
  | goBack => .variant "go_back" []
  | move target x y options =>
    .variant "move" [("target", .str target), ("x", x.toJson), ("y", y.toJson),
      ("options", options.toJson)]
  | tween target properties options =>
    .variant "tween" [("target", .str target),
      ("properties", .obj (properties.mapValues fun _ value => value.toJson).entries),
      ("options", options.toJson)]
  | animate target animation =>
    .variant "animate" [("target", .str target), ("animation", animation.toJson)]
  | stopAnimation target => .variant "stop_animation" [("target", .str target)]
  | playSound src volume =>
    .variant "play_sound" (("src", .str src) :: Json.field? "volume" (volume.map Json.ofFloat))
  | stopSound src => .variant "stop_sound" (Json.field? "src" (src.map Json.str))
  | stopMusic => .variant "stop_music" []
  | music src options => .variant "music" [("src", .str src), ("options", options.toJson)]
  | wait duration actions =>
    .variant "wait" [("durationMs", .ofUInt64 duration), ("actions", .arr (toJsons actions))]
  | timer interval times actions =>
    .variant "timer" (("intervalMs", .ofUInt64 interval) ::
      (Json.field? "repeat" (times.map Json.ofUInt32) ++ [("actions", .arr (toJsons actions))]))
  | unknown => .variant "unknown" []

def toJsons : List Statement → List Json
  | [] => []
  | statement :: rest => toJson statement :: toJsons rest

end

end Statement

def Handler.toJson (h : Handler) : Json :=
  .obj [("type", .str h.gesture.name), ("statements", .arr (Statement.toJsons h.statements))]

def TextAgent.toJson (a : TextAgent) : Json :=
  .variant "text" (("id", .str a.id) :: ("content", a.content.toJson) ::
    (Json.field? "position" (a.position.map Point.toJson) ++
      Json.field? "fontSize" (a.fontSize.map Json.ofFloat) ++
      Json.field? "color" (a.color.map Json.str) ++
      Json.field? "animation" (a.animation.map AnimationSpec.toJson)))

def ButtonAgent.toJson (a : ButtonAgent) : Json :=
  .variant "button" (("id", .str a.id) :: ("label", a.label.toJson) ::
    (Json.field? "position" (a.position.map Point.toJson) ++
      Json.field? "size" (a.size.map Point.toJson) ++
      Json.field? "color" (a.color.map Json.str) ++
      Json.field? "animation" (a.animation.map AnimationSpec.toJson) ++
      [("events", .arr (a.handlers.map Handler.toJson))]))

def ImageAgent.toJson (a : ImageAgent) : Json :=
  .variant "image" (("id", .str a.id) :: ("src", .str a.src) ::
    (Json.field? "position" (a.position.map Point.toJson) ++
      Json.field? "size" (a.size.map Point.toJson) ++
      Json.field? "animation" (a.animation.map AnimationSpec.toJson)))

def VideoAgent.toJson (a : VideoAgent) : Json :=
  .variant "video" (("id", .str a.id) :: ("src", .str a.src) ::
    (Json.field? "position" (a.position.map Point.toJson) ++
      Json.field? "size" (a.size.map Point.toJson) ++
      [("autoplay", .bool a.autoplay), ("looping", .bool a.looping)] ++
      Json.field? "animation" (a.animation.map AnimationSpec.toJson)))

namespace Agent

mutual

def toJson : Agent → Json
  | text a => a.toJson
  | button a => a.toJson
  | image a => a.toJson
  | video a => a.toJson
  | choice condition agents elseAgents =>
    .variant "if" [("condition", condition.toJson), ("agents", .arr (toJsons agents)),
      ("elseAgents", .arr (toJsons elseAgents))]
  | forEach name range agents =>
    .variant "for" [("variable", .str name), ("range", range.toJson),
      ("agents", .arr (toJsons agents))]
  | wait duration agents actions =>
    .variant "wait" [("durationMs", .ofUInt64 duration), ("agents", .arr (toJsons agents)),
      ("actions", .arr (Statement.toJsons actions))]
  | timer interval times actions =>
    .variant "timer" (("intervalMs", .ofUInt64 interval) ::
      (Json.field? "repeat" (times.map Json.ofUInt32) ++
        [("actions", .arr (Statement.toJsons actions))]))

def toJsons : List Agent → List Json
  | [] => []
  | agent :: rest => toJson agent :: toJsons rest

end

end Agent

def Page.toJson (page : Page) : Json :=
  .obj ([("id", .ofInt64 page.id), ("agents", .arr (Agent.toJsons page.agents)),
      ("statements", .arr (Statement.toJsons page.statements))] ++
    Json.field? "autoAdvanceMs" (page.autoAdvance.map Json.ofUInt64))

def Story.toJson (story : Story) : Json :=
  .obj [("title", .str story.title), ("pages", .arr (story.pages.map Page.toJson)),
    ("statements", .arr (Statement.toJsons story.statements))]

end Storybook
