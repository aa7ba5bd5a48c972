/-
# `Storybook.Animation.Node` — what animations move

A node is what draws an agent.  All nodes have a transform, whose fields are numbers with
names; some hold further numbers.  `RenderNode` says what animations need to know of a node,
`Transform` is a node that has nothing else, and `SceneNode` one with extra properties.
-/
import Storybook.Json.Layout
import Storybook.Json.Record
import Storybook.Story.Encoding
import Storybook.Story.Traversal

namespace Storybook

open Json (slots? required defaulted)

/-- Where and how an agent is drawn; the rotation is in degrees. -/
structure Transform where
  x : Float := 0.0
  y : Float := 0.0
  scale : Float := 1.0
  opacity : Float := 1.0
  rotation : Float := 0.0
deriving DecidableEq, Repr, Inhabited

namespace Transform

def get? (t : Transform) (name : String) : Option Float :=
  match name with
  | "x" => some t.x
  | "y" => some t.y
  | "scale" => some t.scale
  | "opacity" => some t.opacity
  | "rotation" => some t.rotation
  | _ => none

/-- The transform with another value in the field of a name, if there is such a field. -/
def set? (t : Transform) (name : String) (value : Float) : Option Transform :=
  match name with
  | "x" => some { t with x := value }
  | "y" => some { t with y := value }
  | "scale" => some { t with scale := value }
  | "opacity" => some { t with opacity := value }
  | "rotation" => some { t with rotation := value }
  | _ => none

def toJson (t : Transform) : Json :=
  .obj [("x", .ofFloat t.x), ("y", .ofFloat t.y), ("scale", .ofFloat t.scale),
    ("opacity", .ofFloat t.opacity), ("rotation", .ofFloat t.rotation)]

def fieldNames : List String := ["x", "y", "scale", "opacity", "rotation"]

def ofJson? (j : Json) : Option Transform := do
  match ← slots? fieldNames j with
  | [x, y, scale, opacity, rotation] =>
    pure ⟨← required Json.float? x, ← required Json.float? y, ← required Json.float? scale,
      ← required Json.float? opacity, ← required Json.float? rotation⟩
  | _ => none

def layout : Json.Layout := .flat fieldNames

def read (text : String) : Option Transform := (Json.readAs layout text).bind ofJson?

end Transform

/-- What draws an agent. -/
class RenderNode (ν : Type) where
  transform : ν → Transform
  setTransform : Transform → ν → ν
  /-- The number of a name, if the node has one. -/
  property? : String → ν → Option Float
  /-- The node with another number of a name, if it takes one. -/
  setProperty? : String → Float → ν → Option ν

/-- The node with another number of a name; unchanged where it takes none. -/
def RenderNode.write [RenderNode ν] (name : String) (value : Float) (node : ν) : ν :=
  (RenderNode.setProperty? name value node).getD node

instance : RenderNode Transform where
  transform t := t
  setTransform t _ := t
  property? name t := t.get? name
  setProperty? name value t := t.set? name value

/-- Nodes of two sorts side by side. -/
instance [RenderNode α] [RenderNode β] : RenderNode (α ⊕ β) where
  transform
    | .inl node => RenderNode.transform node
    | .inr node => RenderNode.transform node
  setTransform t
    | .inl node => .inl (RenderNode.setTransform t node)
    | .inr node => .inr (RenderNode.setTransform t node)
  property? name
    | .inl node => RenderNode.property? name node
    | .inr node => RenderNode.property? name node
  setProperty? name value
    | .inl node => (RenderNode.setProperty? name value node).map .inl
    | .inr node => (RenderNode.setProperty? name value node).map .inr

/-- A node that takes a number of any name. -/
structure SceneNode where
  transform : Transform
  extras : Table Float
deriving DecidableEq, Repr, Inhabited

namespace SceneNode

/-- The node at a place. -/
def atPoint (p : Point) : SceneNode := ⟨{ x := p.x, y := p.y }, ∅⟩

instance : RenderNode SceneNode where
  transform node := node.transform
  setTransform t node := { node with transform := t }
  property? name node := (node.transform.get? name).or (node.extras.find? name)
  setProperty? name value node :=
    match node.transform.set? name value with
    | some t => some { node with transform := t }
    | none => some { node with extras := node.extras.insert name value }

def toJson (node : SceneNode) : Json :=
  .obj [("transform", node.transform.toJson),
    ("extras", .obj (node.extras.mapValues fun _ x => Json.ofFloat x).entries)]

def ofJson? (j : Json) : Option SceneNode := do
  match ← slots? ["transform", "extras"] j with
  | [transform, extras] =>
    pure ⟨← required Transform.ofJson? transform,
      ← defaulted (Json.table? Json.float?) ∅ extras⟩
  | _ => none

def layout : Json.Layout := .record [("transform", Transform.layout), ("extras", .whole)]

end SceneNode

/-- Nodes under the ids of their agents. -/
abbrev Scene := Table SceneNode

namespace Scene

/-- A node for every agent of a story that is drawn, where the story puts it. -/
def ofStory (story : Story) : Scene :=
  story.agents.foldl (fun scene agent =>
    match agent.id? with
    | some id => scene.insert id (.atPoint (agent.position?.getD ⟨0.0, 0.0⟩))
    | none => scene) ∅

def toJson (scene : Scene) : Json :=
  .obj [("nodes", .obj (scene.mapValues fun _ node => node.toJson).entries)]

def ofJson? (j : Json) : Option Scene := do
  match ← slots? ["nodes"] j with
  | [nodes] => required (Json.table? SceneNode.ofJson?) nodes
  | _ => none

def layout : Json.Layout := .record [("nodes", .mapOf SceneNode.layout)]

def read (text : String) : Option Scene := (Json.readAs layout text).bind ofJson?

end Scene

end Storybook
