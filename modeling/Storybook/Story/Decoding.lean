/-
# `Storybook.Story.Decoding` — stories from JSON

The inverse of `Storybook.Story.Encoding`, after the rules of `Storybook.Json.Record`.  A
statement or an expression of a kind that is not known is read as `unknown`, whatever its
other fields; an agent of such a kind is refused.

Readers of nested values count down the depth of the document, which bounds how often a
value can contain another of its kind.
-/
import Storybook.Json.Layout
import Storybook.Json.Record
import Storybook.Story.Basic

namespace Storybook

open Json (slots? required optional defaulted)

/-- Literal text or a placeholder; whatever kind the object of a placeholder names is passed
over. -/
def StringPart.ofJson? : Json → Option StringPart
  | .str literal => some (.text literal)
  | j => do
    match ← slots? ["name"] j with
    | [name] => (required Json.str? name).map .placeholder
    | _ => none

namespace Expression

def kinds : List String :=
  ["number", "string", "boolean", "variable", "binary_op", "unary_op", "range", "random",
    "pick_one", "interpolated_string"]

/-- The expression of a kind with given fields, if the fields are those of the kind; `inner`
reads the expressions inside it. -/
def ofFields? (inner : Json → Option Expression) (kind : String) (fields : Json) :
    Option Expression :=
  match kind with
  | "number" => do
    match ← slots? ["value"] fields with
    | [value] => (required Json.float? value).map number
    | _ => none
  | "string" => do
    match ← slots? ["value"] fields with
    | [value] => (required Json.str? value).map string
    | _ => none
  | "boolean" => do
    match ← slots? ["value"] fields with
    | [value] => (required Json.bool? value).map boolean
    | _ => none
  | "variable" => do
    match ← slots? ["name"] fields with
    | [name] => (required Json.str? name).map var
    | _ => none
  | "binary_op" => do
    match ← slots? ["op", "left", "right"] fields with
    | [op, left, right] =>
      pure (binary (← required (Json.name? true BinaryOperator.ofSymbol?) op)
        (← required inner left) (← required inner right))
    | _ => none
  | "unary_op" => do
    match ← slots? ["op", "operand"] fields with
    | [op, operand] =>
      pure (unary (← required (Json.name? true UnaryOperator.ofSymbol?) op)
        (← required inner operand))
    | _ => none
  | "range" => do
    match ← slots? ["start", "end"] fields with
    | [first, last] => pure (range (← required inner first) (← required inner last))
    | _ => none
  | "random" => do
    match ← slots? ["range"] fields with
    | [source] => (required inner source).map random
    | _ => none
  | "pick_one" => do
    match ← slots? ["options"] fields with
    | [options] => (required (Json.list? inner) options).map pickOne
    | _ => none
  | "interpolated_string" => do
    match ← slots? ["parts"] fields with
    | [parts] => (required (Json.list? StringPart.ofJson?) parts).map interpolated
    | _ => none
  | _ => (slots? [] fields).map fun _ => unknown

/-- An expression, alone or inside a variant. -/
def ofJson? (nested : Bool) (j : Json) : Option Expression :=
  Json.variantWithin? kinds ofFields? j.depth nested j

end Expression

def Point.ofJson? : Json → Option Point
  | .arr [x, y] => do pure ⟨← Json.float? x, ← Json.float? y⟩
  | _ => none

def AnimationSpec.ofJson? (j : Json) : Option AnimationSpec := do
  match ← slots? ["kind", "durationMs", "repeat"] j with
  | [kind, duration, cycles] =>
    pure ⟨← required Json.str? kind, ← optional Json.uint64? duration,
      ← optional Json.int64? cycles⟩
  | _ => none

def TweenOptions.ofJson? (j : Json) : Option TweenOptions := do
  match ← slots? ["durationMs", "easing"] j with
  | [duration, easing] =>
    pure ⟨← optional Json.uint64? duration, ← optional Json.str? easing⟩
  | _ => none

def MusicOptions.ofJson? (j : Json) : Option MusicOptions := do
  match ← slots? ["looping", "volume"] j with
  | [looping, volume] =>
    pure ⟨← defaulted Json.bool? false looping, ← optional Json.float? volume⟩
  | _ => none

namespace Statement

def kinds : List String :=
  ["init", "set", "add", "subtract", "go_to_page", "go_back", "move", "tween", "animate",
    "stop_animation", "play_sound", "stop_sound", "stop_music", "music", "wait", "timer"]

/-- The statement of a kind with given fields, if the fields are those of the kind; `inner`
reads the statements inside it. -/
def ofFields? (inner : Json → Option Statement) (kind : String) (fields : Json) :
    Option Statement :=
  let expression := Expression.ofJson? true
  match kind with
  | "init" => do
    match ← slots? ["name", "value"] fields with
    | [name, value] => pure (init (← required Json.str? name) (← required expression value))
    | _ => none
  | "set" => do
    match ← slots? ["name", "value"] fields with
    | [name, value] => pure (set (← required Json.str? name) (← required expression value))
    | _ => none
  | "add" => do
    match ← slots? ["name", "amount"] fields with
    | [name, amount] => pure (add (← required Json.str? name) (← required expression amount))
    | _ => none
  | "subtract" => do
    match ← slots? ["name", "amount"] fields with
    | [name, amount] =>
      pure (subtract (← required Json.str? name) (← required expression amount))
    | _ => none
  | "go_to_page" => do
    match ← slots? ["page"] fields with
    | [page] => (required Json.int64? page).map goToPage
    | _ => none
  | "go_back" => (slots? [] fields).map fun _ => goBack
  | "move" => do
    match ← slots? ["target", "x", "y", "options"] fields with
    | [target, x, y, options] =>
      pure (move (← required Json.str? target) (← required expression x)
        (← required expression y) (← defaulted TweenOptions.ofJson? ⟨none, none⟩ options))
    | _ => none
  | "tween" => do
    match ← slots? ["target", "properties", "options"] fields with
    | [target, properties, options] =>
      pure (tween (← required Json.str? target) (← required (Json.table? expression) properties)
        (← defaulted TweenOptions.ofJson? ⟨none, none⟩ options))
    | _ => none
  | "animate" => do
    match ← slots? ["target", "animation"] fields with
    | [target, animation] =>
      pure (animate (← required Json.str? target) (← required AnimationSpec.ofJson? animation))
    | _ => none
  | "stop_animation" => do
    match ← slots? ["target"] fields with
    | [target] => (required Json.str? target).map stopAnimation
    | _ => none
  | "play_sound" => do
    match ← slots? ["src", "volume"] fields with
    | [src, volume] =>
      pure (playSound (← required Json.str? src) (← optional Json.float? volume))
    | _ => none
  | "stop_sound" => do
    match ← slots? ["src"] fields with
    | [src] => (optional Json.str? src).map stopSound
    | _ => none
  | "stop_music" => (slots? [] fields).map fun _ => stopMusic
  | "music" => do
    match ← slots? ["src", "options"] fields with
    | [src, options] =>
      pure (music (← required Json.str? src)
        (← defaulted MusicOptions.ofJson? ⟨false, none⟩ options))
    | _ => none
  | "wait" => do
    match ← slots? ["durationMs", "actions"] fields with
    | [duration, actions] =>
      pure (wait (← required Json.uint64? duration) (← required (Json.list? inner) actions))
    | _ => none
  | "timer" => do
    match ← slots? ["intervalMs", "repeat", "actions"] fields with
    | [interval, times, actions] =>
      pure (timer (← required Json.uint64? interval) (← optional Json.uint32? times)
        (← required (Json.list? inner) actions))
    | _ => none
  | _ => (slots? [] fields).map fun _ => unknown

/-- A statement, alone or inside a variant. -/
def ofJson? (nested : Bool) (j : Json) : Option Statement :=
  Json.variantWithin? kinds ofFields? j.depth nested j

end Statement

def Handler.ofJson? (j : Json) : Option Handler := do
  match ← slots? ["type", "statements"] j with
  | [gesture, statements] =>
    pure ⟨← required (Json.name? true Gesture.ofName?) gesture,
      ← required (Json.list? (Statement.ofJson? true)) statements⟩
  | _ => none

def TextAgent.fieldNames : List String :=
  ["id", "content", "position", "fontSize", "color", "animation"]

def TextAgent.ofFields? (fields : Json) : Option TextAgent := do
  match ← slots? fieldNames fields with
  | [id, content, position, fontSize, color, animation] =>
    pure ⟨← required Json.str? id, ← required (Expression.ofJson? true) content,
      ← optional Point.ofJson? position, ← optional Json.float? fontSize,
      ← optional Json.str? color, ← optional AnimationSpec.ofJson? animation⟩
  | _ => none

def ButtonAgent.fieldNames : List String :=
  ["id", "label", "position", "size", "color", "animation", "events"]

def ButtonAgent.ofFields? (fields : Json) : Option ButtonAgent := do
  match ← slots? fieldNames fields with
  | [id, label, position, size, color, animation, handlers] =>
    pure ⟨← required Json.str? id, ← required (Expression.ofJson? true) label,
      ← optional Point.ofJson? position, ← optional Point.ofJson? size,
      ← optional Json.str? color, ← optional AnimationSpec.ofJson? animation,
      ← defaulted (Json.list? Handler.ofJson?) [] handlers⟩
  | _ => none

def ImageAgent.fieldNames : List String := ["id", "src", "position", "size", "animation"]

def ImageAgent.ofFields? (fields : Json) : Option ImageAgent := do
  match ← slots? fieldNames fields with
  | [id, src, position, size, animation] =>
    pure ⟨← required Json.str? id, ← required Json.str? src, ← optional Point.ofJson? position,
      ← optional Point.ofJson? size, ← optional AnimationSpec.ofJson? animation⟩
  | _ => none

def VideoAgent.fieldNames : List String :=
  ["id", "src", "position", "size", "autoplay", "looping", "animation"]

def VideoAgent.ofFields? (fields : Json) : Option VideoAgent := do
  match ← slots? fieldNames fields with
  | [id, src, position, size, autoplay, looping, animation] =>
    pure ⟨← required Json.str? id, ← required Json.str? src, ← optional Point.ofJson? position,
      ← optional Point.ofJson? size, ← defaulted Json.bool? false autoplay,
      ← defaulted Json.bool? false looping, ← optional AnimationSpec.ofJson? animation⟩
  | _ => none

namespace Agent

def kinds : List String := ["text", "button", "image", "video", "if", "for", "wait", "timer"]

/-- The agent of a kind with given fields, if there is such a kind and the fields are its;
`inner` reads the agents inside it. -/
def ofFields? (inner : Json → Option Agent) (kind : String) (fields : Json) : Option Agent :=
  let expression := Expression.ofJson? true
  let actionList := Json.list? (Statement.ofJson? true)
  match kind with
  | "text" => (TextAgent.ofFields? fields).map text
  | "button" => (ButtonAgent.ofFields? fields).map button
  | "image" => (ImageAgent.ofFields? fields).map image
  | "video" => (VideoAgent.ofFields? fields).map video
  | "if" => do
    match ← slots? ["condition", "agents", "elseAgents"] fields with
    | [condition, agents, elseAgents] =>
      pure (choice (← required expression condition) (← required (Json.list? inner) agents)
        (← defaulted (Json.list? inner) [] elseAgents))
    | _ => none
  | "for" => do
    match ← slots? ["variable", "range", "agents"] fields with
    | [name, range, agents] =>
      pure (forEach (← required Json.str? name) (← required expression range)
        (← required (Json.list? inner) agents))
    | _ => none
  | "wait" => do
    match ← slots? ["durationMs", "agents", "actions"] fields with
    | [duration, agents, actions] =>
      pure (wait (← required Json.uint64? duration) (← required (Json.list? inner) agents)
        (← required actionList actions))
    | _ => none
  | "timer" => do
    match ← slots? ["intervalMs", "repeat", "actions"] fields with
    | [interval, times, actions] =>
      pure (timer (← required Json.uint64? interval) (← optional Json.uint32? times)
        (← required actionList actions))
    | _ => none
  | _ => none

/-- An agent that stands by itself. -/
def ofJson? (j : Json) : Option Agent :=
  Json.variantWithin? kinds ofFields? j.depth false j

end Agent

def Page.fieldNames : List String := ["id", "agents", "statements", "autoAdvanceMs"]

def Page.ofJson? (j : Json) : Option Page := do
  match ← slots? Page.fieldNames j with
  | [id, agents, statements, autoAdvance] =>
    pure ⟨← required Json.int64? id, ← required (Json.list? Agent.ofJson?) agents,
      ← required (Json.list? (Statement.ofJson? false)) statements,
      ← optional Json.uint64? autoAdvance⟩
  | _ => none

def Story.ofJson? (j : Json) : Option Story := do
  match ← slots? ["title", "pages", "statements"] j with
  | [title, pages, statements] =>
    pure ⟨← required Json.str? title, ← required (Json.list? Page.ofJson?) pages,
      ← required (Json.list? (Statement.ofJson? false)) statements⟩
  | _ => none

/-! ## Documents -/

def Page.layout : Json.Layout := .flat Page.fieldNames

def Story.layout : Json.Layout :=
  .record [("title", .whole), ("pages", .listOf Page.layout), ("statements", .whole)]

def Page.read (text : String) : Option Page := (Json.readAs layout text).bind ofJson?

def Story.read (text : String) : Option Story := (Json.readAs layout text).bind ofJson?

end Storybook
