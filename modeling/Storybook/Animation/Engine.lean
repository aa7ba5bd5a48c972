/-
# `Storybook.Animation.Engine` — movements and animations of many nodes

The engine keeps a *track* for each agent that moves: at most one tween, which takes
properties to given values, and at most one procedural animation.  It owns no nodes; the
nodes come with every call and are found by the ids of their agents.  Time passes only in
`tick`, where each track moves its own node and no other.
-/
import Storybook.Animation.Easing
import Storybook.Animation.Procedural

namespace Storybook

/-- Why an animation cannot run. -/
inductive AnimationError where
  | nodeNotFound (id : String)
  | unknownKind (kind : String)
deriving DecidableEq, Repr, Inhabited

def AnimationError.message : AnimationError → String
  | nodeNotFound id => "No node for agent '" ++ id ++ "'"
  | unknownKind kind => "Unknown animation kind '" ++ kind ++ "'"

/-! ## Tweens -/

/-- A property on its way from one value to another. -/
structure Motion where
  name : String
  start : Float
  target : Float
deriving DecidableEq, Repr, Inhabited

/-- Properties on their way; the label is reported when they arrive. -/
structure Tween (κ : Type) where
  motions : List Motion
  duration : Float
  elapsed : Float
  easing : Easing
  label : Option κ
deriving Repr, Inhabited

/-- Where properties shall go, and how. -/
structure TweenRequest where
  properties : List (String × Float)
  duration : Option UInt64
  easing : Option String
deriving Repr, Inhabited

/-- The easing of movements that name none. -/
def AnimationSettings.standardEasing (settings : AnimationSettings) : Easing :=
  (Easing.parse? settings.defaultEasing).getD default

/-- The request to go to a place. -/
def TweenRequest.toPlace (settings : AnimationSettings) (place : Point)
    (options : TweenOptions) : TweenRequest :=
  { properties := [("x", place.x), ("y", place.y)]
    duration := some (options.duration.getD settings.defaultMoveDuration)
    easing := options.easing }

namespace Tween

/-- The tween that takes a node where a request says.  A property that the node does not have
starts from zero. -/
def start [RenderNode ν] (settings : AnimationSettings) (request : TweenRequest)
    (label : Option κ) (node : ν) : Tween κ :=
  { motions := request.properties.map fun (name, target) =>
      ⟨name, (RenderNode.property? name node).getD 0.0, target⟩
    duration := (request.duration.getD settings.defaultTweenDuration).toFloat
    elapsed := 0.0
    easing := Easing.resolve request.easing settings.standardEasing
    label }

/-- The tween a while later. -/
def later (elapsed : Float) (tween : Tween κ) : Tween κ :=
  { tween with elapsed := tween.elapsed + forward elapsed }

def hasArrived (tween : Tween κ) : Bool := 1.0 ≤ progress tween.elapsed tween.duration

/-- The node with the properties on their way. -/
def place [RenderNode ν] (tween : Tween κ) (node : ν) : ν :=
  let eased := tween.easing.apply (progress tween.elapsed tween.duration)
  tween.motions.foldl
    (fun node m => RenderNode.write m.name (m.start + (m.target - m.start) * eased) node) node

end Tween

/-! ## Tracks -/

/-- What runs on one node. -/
structure Track (κ : Type) where
  tween : Option (Tween κ)
  run : Option ProceduralRun
deriving Repr, Inhabited

namespace Track

/-- The track on which nothing runs. -/
def empty : Track κ := ⟨none, none⟩

def isIdle (track : Track κ) : Bool := track.tween.isNone && track.run.isNone

/-- Lets time pass for the tween; gives the label of a tween that has arrived. -/
def advanceTween [RenderNode ν] (elapsed : Float) (track : Track κ) (node : ν) :
    Track κ × ν × Option κ :=
  match track.tween with
  | none => (track, node, none)
  | some tween =>
    let tween := tween.later elapsed
    if tween.hasArrived then ({ track with tween := none }, tween.place node, tween.label)
    else ({ track with tween := some tween }, tween.place node, none)

/-- Lets time pass for the procedural animation. -/
def advanceRun [RenderNode ν] (settings : AnimationSettings) (elapsed : Float) (track : Track κ)
    (node : ν) : Track κ × ν :=
  match track.run with
  | none => (track, node)
  | some run =>
    match run.advance settings elapsed node with
    | (run, node, .running) => ({ track with run := some run }, node)
    | (_, node, .finished false) => ({ track with run := none }, node)
    | (_, node, .finished true) =>
      ({ track with run := none }, RenderNode.setTransform run.snapshot node)

/-- The node as it was before the procedural animation, if one runs. -/
def restore [RenderNode ν] (track : Track κ) (node : ν) : ν :=
  match track.run with
  | some run => RenderNode.setTransform run.snapshot node
  | none => node

/-- Begins a procedural animation on a node, after restoring it from the one that runs. -/
def start [RenderNode ν] (settings : AnimationSettings) (kind : AnimationKind)
    (spec : AnimationSpec) (track : Track κ) (node : ν) : Track κ × ν :=
  let node := track.restore node
  let run := ProceduralRun.start kind (spec.duration.getD settings.defaultAnimationDuration)
    (spec.cycles.getD kind.standardCycles) (RenderNode.transform node)
  advanceRun settings 0.0 { track with run := some run } node

/-- Lets time pass, for the tween first. -/
def advance [RenderNode ν] (settings : AnimationSettings) (elapsed : Float) (track : Track κ)
    (node : ν) : Track κ × ν × Option κ :=
  let (track, node, label) := track.advanceTween elapsed node
  let (track, node) := track.advanceRun settings elapsed node
  (track, node, label)

end Track

/-! ## The engine -/

/-- Everything that moves. -/
structure Engine (κ : Type) where
  settings : AnimationSettings
  tracks : Table (Track κ)
deriving Repr, Inhabited

namespace Engine

variable {κ : Type} {ν : Type}

/-- The engine in which nothing moves. -/
def new (settings : AnimationSettings) : Engine κ := ⟨settings, ∅⟩

/-- The track of an agent; an idle one if there is none. -/
def track (engine : Engine κ) (id : String) : Track κ := (engine.tracks.find? id).getD .empty

/-- The engine with another track of an agent. -/
def withTrack (engine : Engine κ) (id : String) (track : Track κ) : Engine κ :=
  { engine with tracks := engine.tracks.insert id track }

/-- Begins a tween, in place of the one that runs. -/
def tween [RenderNode ν] (engine : Engine κ) (nodes : Table ν) (id : String)
    (request : TweenRequest) (label : Option κ) : Except AnimationError (Engine κ) :=
  match nodes.find? id with
  | none => .error (.nodeNotFound id)
  | some node =>
    .ok (engine.withTrack id { engine.track id with
      tween := some (.start engine.settings request label node) })

/-- Begins a tween to a place. -/
def move [RenderNode ν] (engine : Engine κ) (nodes : Table ν) (id : String) (place : Point)
    (options : TweenOptions) (label : Option κ) : Except AnimationError (Engine κ) :=
  engine.tween nodes id (.toPlace engine.settings place options) label

/-- Begins a procedural animation, after restoring the node from the one that runs. -/
def start [RenderNode ν] (engine : Engine κ) (nodes : Table ν) (id : String)
    (spec : AnimationSpec) : Except AnimationError (Engine κ × Table ν) :=
  match AnimationKind.ofName? spec.kind with
  | none => .error (.unknownKind spec.kind)
  | some kind =>
    match nodes.find? id with
    | none => .error (.nodeNotFound id)
    | some node =>
      let (track, node) := (engine.track id).start engine.settings kind spec node
      .ok (engine.withTrack id track, nodes.insert id node)

/-- The engine without the tracks on which nothing runs. -/
def tidy (engine : Engine κ) : Engine κ :=
  { engine with tracks := engine.tracks.filter fun _ track => !track.isIdle }

/-- Ends the procedural animation of an agent and restores its node; tells whether one ran,
or that its node is gone. -/
def stop [RenderNode ν] (engine : Engine κ) (nodes : Table ν) (id : String) :
    Engine κ × Table ν × Except AnimationError Bool :=
  let track := engine.track id
  match track.run with
  | none => (engine, nodes, .ok false)
  | some run =>
    let engine := (engine.withTrack id { track with run := none }).tidy
    match nodes.find? id with
    | none => (engine, nodes, .error (.nodeNotFound id))
    | some node => (engine, nodes.insert id (RenderNode.setTransform run.snapshot node), .ok true)

/-- Ends everything, and restores the nodes of the procedural animations. -/
def stopAll [RenderNode ν] (engine : Engine κ) (nodes : Table ν) : Engine κ × Table ν :=
  (new engine.settings, nodes.mapValues fun id node => (engine.track id).restore node)

/-- Lets time pass on the track of an agent whose node is given. -/
def advanceTrack [RenderNode ν] (engine : Engine κ) (elapsed : Float) (track : Track κ)
    (node : ν) : Track κ × ν × Option κ :=
  track.advance engine.settings elapsed node

/-- Lets time pass: every track whose node is there moves it, and the others are dropped.
Gives the ids and labels of the tweens that have arrived. -/
def tick [RenderNode ν] (engine : Engine κ) (nodes : Table ν) (elapsed : Float) :
    Engine κ × Table ν × List (String × κ) :=
  let advanced := engine.tracks.filterMap fun id track =>
    (nodes.find? id).map (engine.advanceTrack elapsed track)
  let engine := { engine with tracks := advanced.mapValues fun _ (track, _, _) => track }
  let moved := nodes.mapValues fun id node =>
    match advanced.find? id with
    | some (_, moved, _) => moved
    | none => node
  (engine.tidy, moved, advanced.entries.filterMap fun (id, _, _, label) => label.map (id, ·))

def isTweening (engine : Engine κ) (id : String) : Bool := (engine.track id).tween.isSome

/-- The procedural animation of an agent, if one runs. -/
def run? (engine : Engine κ) (id : String) : Option ProceduralRun := (engine.track id).run

def isAnimating (engine : Engine κ) (id : String) : Bool := (engine.run? id).isSome

def activeKind? (engine : Engine κ) (id : String) : Option AnimationKind :=
  (engine.run? id).map (·.kind)

/-- The transform that the procedural animation of an agent will restore, if one runs. -/
def snapshot? (engine : Engine κ) (id : String) : Option Transform :=
  (engine.run? id).map (·.snapshot)

/-- Whether there are no tracks. -/
def isIdle (engine : Engine κ) : Bool := engine.tracks.isEmpty

end Engine

end Storybook
