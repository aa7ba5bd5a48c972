/-
# `Storybook.Proofs.Session.Scenery` — where scene and session see an agent

A scene has a node for every agent of a story that is drawn, and a session says where an agent
stands.  They agree on which ids there are, but where several agents share an id, each of them
means another one:

| | agents in the order of the walk | which one counts |
| :-- | :-- | :-- |
| `Scene.ofStory` | each one writes its node | the last one |
| `Session.agentPosition?`, by `Story.findAgent?` | the first one found | the first one |

Loading a story into a new session moves nothing, so this is what a host sees then.
-/
import Storybook.Proofs.Script.Assembled
import Storybook.Proofs.Session.Loading
import Storybook.Proofs.Story.Occurrences

namespace Storybook

/-- Where an agent stands when a story begins: where the story puts it, or at the origin. -/
def Agent.place (a : Agent) : Point := a.position?.getD ⟨0.0, 0.0⟩

/-! ## The scene of a story -/

namespace Scene

/-- The scene with the node of one more agent, if the agent is drawn. -/
def withAgent (scene : Scene) (a : Agent) : Scene :=
  match a.id? with
  | some id => scene.insert id (.atPoint a.place)
  | none => scene

theorem ofStory_eq (story : Story) : ofStory story = story.agents.foldl withAgent ∅ := rfl

theorem find?_withAgent (scene : Scene) (a : Agent) (id : String) :
    (scene.withAgent a).find? id =
      if a.id? = some id then some (.atPoint a.place) else scene.find? id := by
  unfold withAgent
  cases a.id? with
  | none => rfl
  | some other =>
    rw [Table.find?_insert]
    by_cases h : id = other
    · rw [if_pos h, if_pos (congrArg some h.symm)]
    · rw [if_neg h, if_neg fun heq => h (Option.some.inj heq).symm]

/-- Of several agents with an id the last one has the node. -/
theorem find?_foldl_withAgent (agents : List Agent) (scene : Scene) (id : String) :
    (agents.foldl withAgent scene).find? id =
      ((agents.filter (·.id? = some id)).getLast?.map fun a => .atPoint a.place).or
        (scene.find? id) := by
  induction agents generalizing scene with
  | nil => rfl
  | cons a rest ih =>
    rw [List.foldl_cons, ih, find?_withAgent]
    by_cases h : a.id? = some id
    · rw [if_pos h, List.filter_cons_of_pos (by simpa using h), List.getLast?_cons]
      cases (rest.filter (·.id? = some id)).getLast? <;> rfl
    · rw [if_neg h, List.filter_cons_of_neg (by simpa using h)]

theorem find?_ofStory (story : Story) (id : String) :
    (ofStory story).find? id = (story.named id).getLast?.map fun a => .atPoint a.place := by
  rw [ofStory_eq, find?_foldl_withAgent]
  exact Option.or_none

end Scene

/-- A node tells where it stands. -/
theorem SceneNode.atPoint_inj {p q : Point} : atPoint p = atPoint q ↔ p = q := by
  constructor
  · intro h
    have htransform : (⟨p.x, p.y, 1.0, 1.0, 0.0⟩ : Transform) = ⟨q.x, q.y, 1.0, 1.0, 0.0⟩ :=
      congrArg SceneNode.transform h
    obtain ⟨hx, hy, -⟩ := Transform.mk.inj htransform
    cases p
    cases q
    cases hx
    cases hy
    rfl
  · exact congrArg atPoint

/-- The node of the last of some agents stands where the first one is put exactly if both are put at
the same place. -/
theorem Agent.stands_iff (agents : List Agent) :
    (∀ node, agents.getLast?.map (fun a => SceneNode.atPoint a.place) = some node →
        node = .atPoint ((agents.head?.bind Agent.position?).getD ⟨0.0, 0.0⟩)) ↔
      agents.getLast?.map place = agents.head?.map place := by
  cases agents with
  | nil =>
    constructor
    · intro _
      rfl
    · intro _ node hnode
      cases hnode
  | cons first rest =>
    rw [List.head?_cons, List.getLast?_cons]
    generalize rest.getLast?.getD first = last
    constructor
    · intro h
      exact congrArg some (SceneNode.atPoint_inj.mp (h _ rfl))
    · intro h node hnode
      cases hnode
      exact congrArg SceneNode.atPoint (Option.some.inj h)

namespace Session

variable {σ ν : Type} [WordSource σ] [RenderNode ν]

/-! ## A story in a new session -/

/-- Where nothing has moved, loading a story leaves the nodes as they are. -/
theorem nodes_load_new (settings : Settings) (nodes : Table ν) (source : σ) (story : Story)
    (preserve : Bool) : ((new settings nodes source).load story preserve).nodes = nodes := by
  obtain ⟨_, _, _, heq⟩ := load_spec (new settings nodes source) story preserve
  rw [heq]
  refine Table.ext_find? fun id => ?_
  show (nodes.mapValues fun _ node => node).find? id = nodes.find? id
  rw [Table.find?_mapValues]
  exact Option.map_id'

/-- Loading a story forgets where movements have taken agents. -/
theorem agentPosition?_load (s : Session σ ν) (story : Story) (preserve : Bool) (id : String) :
    (s.load story preserve).agentPosition? id = (story.findAgent? id).bind Agent.position? := by
  obtain ⟨_, _, _, heq⟩ := load_spec s story preserve
  rw [heq]
  rfl

/-- A story that is loaded into a new session over its scene has a node for an id exactly if an
agent has the id.  The node stands where the last agent with the id is put, and the session says
where the first one is put; so both agree exactly if these two are put at the same place. -/
theorem scene_agrees_iff (settings : Settings) (story : Story) (source : σ) (preserve : Bool)
    (id : String) :
    let s := (new settings (Scene.ofStory story) source).load story preserve
    (s.nodes.find? id).isSome = (story.findAgent? id).isSome ∧
      s.nodes.find? id = (story.named id).getLast?.map (fun a => .atPoint a.place) ∧
      s.agentPosition? id = (story.named id).head?.bind Agent.position? ∧
      ((∀ node, s.nodes.find? id = some node →
          node = .atPoint ((s.agentPosition? id).getD ⟨0.0, 0.0⟩)) ↔
        (story.named id).getLast?.map Agent.place = (story.named id).head?.map Agent.place) := by
  intro s
  have hnodes : s.nodes.find? id =
      (story.named id).getLast?.map fun a => .atPoint a.place := by
    rw [nodes_load_new, Scene.find?_ofStory]
  have hposition : s.agentPosition? id = (story.named id).head?.bind Agent.position? := by
    rw [agentPosition?_load, Story.findAgent?_eq]
  refine ⟨?_, hnodes, hposition, ?_⟩
  · rw [hnodes, Story.findAgent?_eq, Option.isSome_map]
    cases story.named id <;> rfl
  · rw [hnodes, hposition]
    exact Agent.stands_iff (story.named id)

/-- A script with two texts under one id. -/
def signScript : String :=
  "fable \"Signs\" do page 1 do text \"Here\" #sign at [1, 2] " ++
    "text \"There\" #sign at [3, 4] end end"

/-- Where the last sign of a story is put, and the first one. -/
def signPlaces (story : Story) : Option Point × Option Point :=
  ((story.named "sign").getLast?.map Agent.place, (story.named "sign").head?.bind Agent.position?)

/-- It is accepted.  The scene has the second text, the session tells of the first one. -/
theorem scene_of_signs : ∃ story ids',
    Script.compile (⟨0⟩ : Script.IdCounter) signScript = .ok (story, ids') ∧
      let s := (new {} (Scene.ofStory story) (⟨[]⟩ : WordScript)).load story false
      s.nodes.find? "sign" = some (.atPoint ⟨3.0, 4.0⟩) ∧
        s.agentPosition? "sign" = some ⟨1.0, 2.0⟩ := by
  have hsigns : (Script.compile (⟨0⟩ : Script.IdCounter) signScript).toOption.map
      (fun result => signPlaces result.1) = some (some ⟨3.0, 4.0⟩, some ⟨1.0, 2.0⟩) := by
    decide +kernel
  obtain ⟨story, ids', hcompile, hseen⟩ := Script.exists_compile_of_map signPlaces hsigns
  obtain ⟨hlast, hfirst⟩ := Prod.mk.inj hseen
  refine ⟨story, ids', hcompile, ?_, ?_⟩
  · rw [nodes_load_new, Scene.find?_ofStory]
    exact (Option.map_map SceneNode.atPoint Agent.place _).symm.trans
      (congrArg (Option.map SceneNode.atPoint) hlast)
  · rw [agentPosition?_load, Story.findAgent?_eq, hfirst]

end Session

end Storybook
