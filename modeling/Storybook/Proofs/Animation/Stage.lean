/-
# `Storybook.Proofs.Animation.Stage` — an engine and its nodes, seen from one agent

An engine and the nodes of its host together are a *stage*, and what is done to either of them
is a *cue*.  What concerns one agent on a stage is its *spot*: its node, and the track on which
its node moves.  A track on which nothing runs counts as none.

| cue | what it does on a spot that it concerns |
| :-- | :-- |
| `tween`, `move` | a new tween, if there is a node |
| `start` | the node is restored, then a new animation begins |
| `stop` | the node is restored, the animation is gone |
| `stopAll` | the node is restored, everything is gone |
| `tick` | the track moves the node; it is dropped if there is none |
| `put`, `remove`, `write` | the host has another node, none, or another number on it |

`spot_perform` says that this is all that a cue does: a spot changes only with the cues that
concern it, and in a way that depends on nothing but the spot itself.  `spot_run` says the same
of a whole run.
-/
import Storybook.Animation.Engine

namespace Storybook

variable {κ ν : Type}

/-! ## One function of the engine at a time -/

section Functions

variable [RenderNode ν]

@[simp] theorem Track.isIdle_iff (track : Track κ) : track.isIdle = true ↔ track = .empty := by
  obtain ⟨tween, run⟩ := track
  simp [isIdle, empty]

theorem Track.restore_of_run_none {track : Track κ} (h : track.run = none) (node : ν) :
    track.restore node = node := by
  simp [restore, h]

theorem Track.restore_of_run_some {track : Track κ} {run : ProceduralRun}
    (h : track.run = some run) (node : ν) :
    track.restore node = RenderNode.setTransform run.snapshot node := by
  simp [restore, h]

namespace Engine

theorem track_withTrack (engine : Engine κ) (id other : String) (track : Track κ) :
    (engine.withTrack id track).track other = if other = id then track else engine.track other := by
  simp only [Engine.track, withTrack, Table.find?_insert]
  split <;> rfl

@[simp] theorem track_new (settings : AnimationSettings) (id : String) :
    (new settings : Engine κ).track id = .empty := rfl

/-- A track on which nothing runs is as good as none. -/
@[simp] theorem track_tidy (engine : Engine κ) (id : String) :
    engine.tidy.track id = engine.track id := by
  simp only [Engine.track, tidy, Table.find?_filter]
  cases engine.tracks.find? id with
  | none => rfl
  | some track =>
      cases hidle : track.isIdle with
      | true =>
          rw [(Track.isIdle_iff track).mp hidle]
          rfl
      | false => simp [Option.filter, hidle]

theorem tick_track (engine : Engine κ) (nodes : Table ν) (elapsed : Float) (id : String) :
    (engine.tick nodes elapsed).1.track id =
      match nodes.find? id with
      | none => .empty
      | some node => ((engine.track id).advance engine.settings elapsed node).1 := by
  simp only [tick, track_tidy]
  simp only [Engine.track, Table.find?_mapValues, Table.find?_filterMap]
  cases nodes.find? id with
  | none => cases engine.tracks.find? id <;> rfl
  | some node => cases engine.tracks.find? id <;> rfl

theorem tick_node (engine : Engine κ) (nodes : Table ν) (elapsed : Float) (id : String) :
    (engine.tick nodes elapsed).2.1.find? id =
      (nodes.find? id).map fun node =>
        ((engine.track id).advance engine.settings elapsed node).2.1 := by
  simp only [tick, Engine.track, Table.find?_mapValues, Table.find?_filterMap]
  cases nodes.find? id with
  | none => rfl
  | some node => cases engine.tracks.find? id <;> rfl

end Engine

end Functions

/-! ## Stages and cues -/

/-- Something that is done to an engine or to the nodes of its host. -/
inductive Cue (κ ν : Type) where
  | tween (id : String) (request : TweenRequest) (label : Option κ)
  | move (id : String) (place : Point) (options : TweenOptions) (label : Option κ)
  | start (id : String) (spec : AnimationSpec)
  | stop (id : String)
  | stopAll
  | tick (elapsed : Float)
  | put (id : String) (node : ν)
  | remove (id : String)
  | write (id : String) (name : String) (value : Float)

/-- Whether a cue is for an agent, or for all of them. -/
def Cue.concerns (id : String) : Cue κ ν → Bool
  | tween other _ _ | move other _ _ _ | start other _ | stop other => other == id
  | put other _ | remove other | write other _ _ => other == id
  | stopAll | tick _ => true

/-- An engine and the nodes that it moves. -/
structure Stage (κ ν : Type) where
  engine : Engine κ
  nodes : Table ν

/-- What concerns one agent on a stage. -/
structure Spot (κ ν : Type) where
  node : Option ν
  track : Track κ

namespace Spot

variable [RenderNode ν]

/-- The spot after a tween has begun. -/
def tween (settings : AnimationSettings) (request : TweenRequest) (label : Option κ)
    (spot : Spot κ ν) : Spot κ ν :=
  match spot.node with
  | none => spot
  | some node =>
    { spot with track := { spot.track with tween := some (.start settings request label node) } }

/-- The spot after a procedural animation has begun. -/
def start (settings : AnimationSettings) (spec : AnimationSpec) (spot : Spot κ ν) : Spot κ ν :=
  match AnimationKind.ofName? spec.kind, spot.node with
  | some kind, some node =>
    let (track, node) := spot.track.start settings kind spec node
    ⟨some node, track⟩
  | _, _ => spot

/-- The spot after time has passed. -/
def tick (settings : AnimationSettings) (elapsed : Float) (spot : Spot κ ν) : Spot κ ν :=
  match spot.node with
  | none => ⟨none, .empty⟩
  | some node =>
    let (track, node, _) := spot.track.advance settings elapsed node
    ⟨some node, track⟩

/-- The spot after a cue that concerns it. -/
def obey (settings : AnimationSettings) (spot : Spot κ ν) : Cue κ ν → Spot κ ν
  | .tween _ request label => spot.tween settings request label
  | .move _ place options label => spot.tween settings (.toPlace settings place options) label
  | .start _ spec => spot.start settings spec
  | .stop _ => ⟨spot.node.map spot.track.restore, { spot.track with run := none }⟩
  | .stopAll => ⟨spot.node.map spot.track.restore, .empty⟩
  | .tick elapsed => spot.tick settings elapsed
  | .put _ node => { spot with node := some node }
  | .remove _ => { spot with node := none }
  | .write _ name value => { spot with node := spot.node.map (RenderNode.write name value) }

/-- The spot after some cues that concern it. -/
def follow (settings : AnimationSettings) (spot : Spot κ ν) (cues : List (Cue κ ν)) :
    Spot κ ν :=
  cues.foldl (obey settings) spot

end Spot

namespace Stage

/-- What concerns an agent. -/
def spot (s : Stage κ ν) (id : String) : Spot κ ν := ⟨s.nodes.find? id, s.engine.track id⟩

/-- The stage with another engine, if there is one. -/
def withEngine (s : Stage κ ν) : Except AnimationError (Engine κ) → Stage κ ν
  | .ok engine => { s with engine }
  | .error _ => s

@[simp] theorem withEngine_ok (s : Stage κ ν) (engine : Engine κ) :
    s.withEngine (.ok engine) = { s with engine } := rfl

@[simp] theorem withEngine_error (s : Stage κ ν) (e : AnimationError) :
    s.withEngine (.error e) = s := rfl

variable [RenderNode ν]

/-- The stage after a cue; one that fails changes nothing. -/
def perform (s : Stage κ ν) : Cue κ ν → Stage κ ν
  | .tween id request label => s.withEngine (s.engine.tween s.nodes id request label)
  | .move id place options label =>
    s.withEngine (s.engine.move s.nodes id place options label)
  | .start id spec =>
    match s.engine.start s.nodes id spec with
    | .ok (engine, nodes) => ⟨engine, nodes⟩
    | .error _ => s
  | .stop id =>
    let (engine, nodes, _) := s.engine.stop s.nodes id
    ⟨engine, nodes⟩
  | .stopAll =>
    let (engine, nodes) := s.engine.stopAll s.nodes
    ⟨engine, nodes⟩
  | .tick elapsed =>
    let (engine, nodes, _) := s.engine.tick s.nodes elapsed
    ⟨engine, nodes⟩
  | .put id node => { s with nodes := s.nodes.insert id node }
  | .remove id => { s with nodes := s.nodes.erase id }
  | .write id name value => { s with nodes := s.nodes.adjust id (RenderNode.write name value) }

/-- The stage after some cues. -/
def run (s : Stage κ ν) (cues : List (Cue κ ν)) : Stage κ ν := cues.foldl perform s

/-! ## What a cue does on a spot -/

theorem settings_tween (s : Stage κ ν) (id : String) (request : TweenRequest)
    (label : Option κ) :
    (s.withEngine (s.engine.tween s.nodes id request label)).engine.settings =
      s.engine.settings := by
  simp only [Engine.tween]
  cases s.nodes.find? id <;> rfl

/-- No cue changes how animations run. -/
@[simp] theorem settings_perform (s : Stage κ ν) (cue : Cue κ ν) :
    (s.perform cue).engine.settings = s.engine.settings := by
  cases cue with
  | tween id request label => exact settings_tween s id request label
  | move id place options label => exact settings_tween s id _ label
  | start id spec =>
      simp only [perform, Engine.start]
      split
      · next h =>
        split at h
        · cases h
        · split at h
          · cases h
          · cases h
            rfl
      · rfl
  | stop id =>
      simp only [perform, Engine.stop]
      split
      · rfl
      · split <;> rfl
  | stopAll => rfl
  | tick elapsed => rfl
  | put id node => rfl
  | remove id => rfl
  | write id name value => rfl

@[simp] theorem settings_run (cues : List (Cue κ ν)) (s : Stage κ ν) :
    (s.run cues).engine.settings = s.engine.settings := by
  induction cues generalizing s with
  | nil => rfl
  | cons cue rest ih => exact (ih (s.perform cue)).trans (settings_perform s cue)

theorem spot_tween (s : Stage κ ν) (id other : String) (request : TweenRequest)
    (label : Option κ) :
    (s.withEngine (s.engine.tween s.nodes other request label)).spot id =
      if other == id then (s.spot id).tween s.engine.settings request label else s.spot id := by
  by_cases h : other = id
  · subst h
    simp only [Engine.tween, spot, Spot.tween, beq_self_eq_true, if_true]
    cases hnode : s.nodes.find? other with
    | none => simp [hnode]
    | some node => simp [hnode, Engine.track_withTrack]
  · simp only [Engine.tween, spot, beq_iff_eq, if_neg h]
    cases s.nodes.find? other with
    | none => rfl
    | some node => simp [Engine.track_withTrack, Ne.symm h]

theorem spot_start (s : Stage κ ν) (id other : String) (spec : AnimationSpec) :
    (s.perform (.start other spec)).spot id =
      if other == id then (s.spot id).start s.engine.settings spec else s.spot id := by
  by_cases h : other = id
  · subst h
    simp only [perform, Engine.start, spot, Spot.start, beq_self_eq_true, if_true]
    cases AnimationKind.ofName? spec.kind with
    | none => rfl
    | some kind =>
        cases hnode : s.nodes.find? other with
        | none => simp [hnode]
        | some node => simp [Engine.track_withTrack]
  · simp only [perform, Engine.start, spot, beq_iff_eq, if_neg h]
    cases AnimationKind.ofName? spec.kind with
    | none => rfl
    | some kind =>
        cases s.nodes.find? other with
        | none => rfl
        | some node => simp [Engine.track_withTrack, Table.find?_insert, Ne.symm h]

theorem spot_stop (s : Stage κ ν) (id other : String) :
    (s.perform (.stop other)).spot id =
      if other == id then (s.spot id).obey s.engine.settings (.stop other) else s.spot id := by
  cases hrun : (s.engine.track other).run with
  | none =>
      have hstay : s.perform (.stop other) = s := by simp [perform, Engine.stop, hrun]
      rw [hstay]
      by_cases h : other = id
      · subst h
        have hmap : ((s.engine.track other).restore : ν → ν) = id :=
          funext fun node => Track.restore_of_run_none hrun node
        have htrack : { s.engine.track other with run := none } = s.engine.track other := by
          rw [← hrun]
        simp [spot, Spot.obey, hmap, htrack]
      · simp [h]
  | some run =>
      by_cases h : other = id
      · subst h
        simp only [perform, Engine.stop, hrun, spot, Spot.obey, beq_self_eq_true, if_true]
        cases hnode : s.nodes.find? other with
        | none => simp [hnode, Engine.track_withTrack]
        | some node => simp [Engine.track_withTrack, Track.restore_of_run_some hrun]
      · simp only [perform, Engine.stop, hrun, spot, beq_iff_eq, if_neg h]
        cases hnode : s.nodes.find? other with
        | none => simp [Engine.track_withTrack, Ne.symm h]
        | some node => simp [Engine.track_withTrack, Table.find?_insert, Ne.symm h]

theorem spot_tick (s : Stage κ ν) (id : String) (elapsed : Float) :
    (s.perform (.tick elapsed)).spot id = (s.spot id).tick s.engine.settings elapsed := by
  simp only [perform, spot, Spot.tick, Engine.tick_track, Engine.tick_node]
  cases s.nodes.find? id <;> rfl

/-- A cue changes the spots that it concerns, each as if there were no other. -/
theorem spot_perform (s : Stage κ ν) (id : String) (cue : Cue κ ν) :
    (s.perform cue).spot id =
      if cue.concerns id then (s.spot id).obey s.engine.settings cue else s.spot id := by
  cases cue with
  | tween other request label => exact spot_tween s id other request label
  | move other place options label => exact spot_tween s id other _ label
  | start other spec => exact spot_start s id other spec
  | stop other => exact spot_stop s id other
  | stopAll => simp [perform, Engine.stopAll, spot, Spot.obey, Cue.concerns, Table.find?_mapValues]
  | tick elapsed => exact spot_tick s id elapsed
  | put other node =>
      by_cases h : other = id
      · simp [perform, spot, Spot.obey, Cue.concerns, h]
      · simp [perform, spot, Cue.concerns, Table.find?_insert, h, Ne.symm h]
  | remove other =>
      by_cases h : other = id
      · simp [perform, spot, Spot.obey, Cue.concerns, Table.find?_erase, h]
      · simp [perform, spot, Cue.concerns, Table.find?_erase, h, Ne.symm h]
  | write other name value =>
      by_cases h : other = id
      · simp [perform, spot, Spot.obey, Cue.concerns, Table.find?_adjust, h]
      · simp [perform, spot, Cue.concerns, Table.find?_adjust, h, Ne.symm h]

/-- Over a run, a spot follows the cues that concern it. -/
theorem spot_run (id : String) : ∀ (cues : List (Cue κ ν)) (s : Stage κ ν),
    (s.run cues).spot id =
      (s.spot id).follow s.engine.settings (cues.filter (·.concerns id))
  | [], _ => rfl
  | cue :: rest, s => by
      have hrest := spot_run id rest (s.perform cue)
      rw [settings_perform, spot_perform] at hrest
      cases hc : cue.concerns id with
      | true =>
          rw [hc, if_pos rfl] at hrest
          rw [List.filter_cons_of_pos (by exact hc)]
          exact hrest
      | false =>
          rw [hc, if_neg (by decide)] at hrest
          rw [List.filter_cons_of_neg (by simp [hc])]
          exact hrest

end Stage

end Storybook
