/-
# `Storybook.Proofs.Animation.Base` — procedural animations do not drift

A procedural animation moves its node and is meant to give it back as it was.  The *base* of a
node is the transform that this comes to: the snapshot while an animation runs on the node, and
the transform of the node itself otherwise.

| cue | the base |
| :-- | :-- |
| `start`, of whatever kind | stays; the node is restored, and what it gets is the snapshot |
| `stop`, `stopAll` | stays; the node gets it |
| `tick`, with whatever time | stays |
| a `tick` or a `start` in which a fade completes | has another opacity, and nothing else changes |

The last row needs to know that a fade has touched nothing but the opacity: while an animation
runs, the node differs from the snapshot at most in the field that is driven.  This holds where
no tween moves the node and the host does not write it, and is the invariant of the whole
(`Track.Steady`, `Spot.steady_obey`).  `Stage.base?_kept` is the law of a run.
-/
import Storybook.Proofs.Animation.Node
import Storybook.Proofs.Animation.Stage
import Storybook.Proofs.Animation.Track

namespace Storybook

open RenderNode (setTransform write)

variable {κ : Type}

/-! ## Numbers of a transform -/

namespace SceneNode

@[simp] theorem transform_setTransform (t : Transform) (node : SceneNode) :
    (setTransform t node).transform = t := rfl

/-- The writing of a field changes that field of the transform. -/
theorem get?_transform_write {name : String} (h : name ∈ Transform.fieldNames) (other : String)
    (value : Float) (node : SceneNode) :
    (write name value node).transform.get? other =
      if other = name then some value else node.transform.get? other := by
  cases hset : node.transform.set? name value with
  | none => exact absurd h ((Transform.set?_eq_none_iff _ _ _).mp hset)
  | some t =>
      have hwrite : write name value node = { node with transform := t } := by
        simp [write, RenderNode.setProperty?, hset]
      rw [hwrite]
      exact Transform.get?_of_set? hset other

end SceneNode

/-- A transform that has the fields of another, except for the opacity. -/
theorem Transform.eq_withOpacity {t t' : Transform}
    (h : ∀ name, name ≠ "opacity" → t.get? name = t'.get? name) :
    t = { t' with opacity := t.opacity } := by
  have hx : t.x = t'.x := Option.some.inj (h "x" (by decide))
  have hy : t.y = t'.y := Option.some.inj (h "y" (by decide))
  have hscale : t.scale = t'.scale := Option.some.inj (h "scale" (by decide))
  have hrotation : t.rotation = t'.rotation := Option.some.inj (h "rotation" (by decide))
  cases t
  simp_all

theorem AnimationKind.driven_of_not_isCyclic {kind : AnimationKind}
    (h : kind.isCyclic = false) : kind.driven = "opacity" := by
  cases kind <;> first | rfl | exact absurd h (by decide)

/-! ## Cues and the base -/

/-- Whether a cue is about procedural animations. -/
def Cue.animates {ν : Type} : Cue κ ν → Bool
  | .start _ _ | .stop _ | .stopAll | .tick _ => true
  | .tween _ _ _ | .move _ _ _ _ | .put _ _ | .remove _ | .write _ _ _ => false

namespace Spot

/-- The snapshot of the animation that runs, or else the transform of the node. -/
def base? {ν : Type} [RenderNode ν] (spot : Spot κ ν) : Option Transform :=
  (spot.track.run.map (·.snapshot)).or (spot.node.map RenderNode.transform)

/-- Whether a fade completes with a cue: one that ran before it, or that the cue begins, is
gone after it. -/
def completesFade {ν : Type} [RenderNode ν] (settings : AnimationSettings) (spot : Spot κ ν)
    (cue : Cue κ ν) : Bool :=
  (spot.obey settings cue).track.run.isNone &&
    match cue with
    | .start _ spec => (AnimationKind.ofName? spec.kind).any (!·.isCyclic)
    | .tick _ => spot.track.run.any (!·.kind.isCyclic)
    | _ => false

end Spot

/-! ## One step -/

namespace Track

/-- The transform that a node is given back. -/
def base (track : Track κ) (node : SceneNode) : Transform :=
  (track.run.map (·.snapshot)).getD node.transform

/-- No tween moves the node, and an animation has touched nothing but what it drives. -/
structure Steady (track : Track κ) (node : SceneNode) : Prop where
  still : track.tween = none
  frame : ∀ run, track.run = some run →
    ∀ name, name ≠ run.kind.driven → node.transform.get? name = run.snapshot.get? name

variable {track : Track κ} {node : SceneNode}

theorem base_of_run_none (h : track.run = none) : track.base node = node.transform := by
  simp [base, h]

theorem base_of_run_some {run : ProceduralRun} (h : track.run = some run) (node : SceneNode) :
    track.base node = run.snapshot := by
  simp [base, h]

/-- Without an animation there is nothing to say of the node. -/
theorem steady_of_run_none (hstill : track.tween = none) (h : track.run = none)
    (node : SceneNode) : track.Steady node :=
  ⟨hstill, fun _ hrun => by cases h.symm.trans hrun⟩

/-- The node that is restored has the base for its transform. -/
theorem transform_restore (track : Track κ) (node : SceneNode) :
    (track.restore node).transform = track.base node := by
  cases h : track.run with
  | none => rw [restore_of_run_none h, base_of_run_none h]
  | some run => rw [restore_of_run_some h, base_of_run_some h, SceneNode.transform_setTransform]

/-- A step of an animation keeps the base, unless it is the last one of a fade. -/
theorem Steady.advanceRun (h : track.Steady node) {run : ProceduralRun}
    (hrun : track.run = some run) (settings : AnimationSettings) (elapsed : Float) :
    ∃ track' node', track.advanceRun settings elapsed node = (track', node') ∧
      track'.Steady node' ∧
      (track'.base node' = run.snapshot ∨ track'.run = none ∧ run.kind.isCyclic = false ∧
        ∃ opacity, track'.base node' = { run.snapshot with opacity }) := by
  -- whatever is written, the fields that are not driven are those of the snapshot
  have hframe : ∀ value name, name ≠ run.kind.driven →
      (write run.kind.driven value node).transform.get? name = run.snapshot.get? name := by
    intro value name hname
    rw [SceneNode.get?_transform_write run.kind.driven_mem_fieldNames, if_neg hname]
    exact h.frame run hrun name hname
  cases hover : (run.later elapsed).isOver with
  | true =>
      refine ⟨_, _, advanceRun_of_isOver hrun settings hover node, ?_, .inl ?_⟩
      · have hstill : { track with run := none }.tween = none := h.still
        exact steady_of_run_none hstill rfl _
      · have hidle : { track with run := none }.run = none := rfl
        exact base_of_run_none hidle
  | false =>
      cases hfaded : (run.later elapsed).hasFaded with
      | true =>
          have hlater : (run.later elapsed).kind.isCyclic = false :=
            ProceduralRun.isCyclic_of_hasFaded hfaded
          have hfade : run.kind.isCyclic = false := hlater
          refine ⟨_, _, advanceRun_of_hasFaded hrun settings hfaded node, ?_,
            .inr ⟨rfl, hfade, ?_⟩⟩
          · have hstill : { track with run := none }.tween = none := h.still
            exact steady_of_run_none hstill rfl _
          · refine ⟨_, Transform.eq_withOpacity fun name hname => hframe _ name ?_⟩
            rwa [AnimationKind.driven_of_not_isCyclic hfade]
      | false =>
          refine ⟨_, _, advanceRun_of_goesOn hrun settings hover hfaded node, ⟨h.still, ?_⟩,
            .inl rfl⟩
          rintro later hlater name hname
          cases hlater
          exact hframe _ name hname

/-- An animation that begins has the base for its snapshot, and takes its first step at once. -/
theorem Steady.start (h : track.Steady node) (settings : AnimationSettings)
    (kind : AnimationKind) (spec : AnimationSpec) :
    ∃ track' node', track.start settings kind spec node = (track', node') ∧
      track'.Steady node' ∧
      (track'.base node' = track.base node ∨ track'.run = none ∧ kind.isCyclic = false ∧
        ∃ opacity, track'.base node' = { track.base node with opacity }) := by
  let restored := track.restore node
  let run := ProceduralRun.start kind (spec.duration.getD settings.defaultAnimationDuration)
    (spec.cycles.getD kind.standardCycles) restored.transform
  have hbegun : ({ track with run := some run } : Track κ).Steady restored := by
    refine ⟨h.still, ?_⟩
    rintro _ hrun name -
    cases hrun
    rfl
  have hsnapshot : run.snapshot = track.base node := transform_restore track node
  rw [← hsnapshot]
  exact hbegun.advanceRun rfl settings 0.0

theorem advance_of_tween_none (h : track.tween = none) (settings : AnimationSettings)
    (elapsed : Float) (node : SceneNode) :
    track.advance settings elapsed node =
      ((track.advanceRun settings elapsed node).1, (track.advanceRun settings elapsed node).2,
        none) := by
  rw [advance, advanceTween_of_tween_none h]

end Track

/-! ## One cue -/

namespace Spot

/-- A spot whose node is there and is moved by procedural animations alone. -/
def Steady (spot : Spot κ SceneNode) : Prop :=
  ∃ node, spot.node = some node ∧ spot.track.Steady node

theorem base?_eq {spot : Spot κ SceneNode} {node : SceneNode} (h : spot.node = some node) :
    spot.base? = some (spot.track.base node) := by
  simp only [base?, h, Track.base]
  cases spot.track.run <;> rfl

/-- The base stays, or another opacity comes into it because a fade completes. -/
def KeepsBase (fades : Bool) (before after : Option Transform) : Prop :=
  after = before ∨ fades = true ∧ ∃ opacity, after = before.map ({ · with opacity })

/-- Another opacity in place of another opacity is another opacity. -/
theorem KeepsBase.trans {f g : Bool} {first second third : Option Transform}
    (h : KeepsBase f first second) (h' : KeepsBase g second third) :
    KeepsBase (f || g) first third := by
  rcases h with rfl | ⟨rfl, opacity, rfl⟩
  · rcases h' with rfl | ⟨rfl, hopacity⟩
    · exact .inl rfl
    · exact .inr ⟨Bool.or_true f, hopacity⟩
  · refine .inr ⟨Bool.true_or g, ?_⟩
    rcases h' with rfl | ⟨-, opacity', rfl⟩
    · exact ⟨opacity, rfl⟩
    · exact ⟨opacity', by rw [Option.map_map]; rfl⟩

variable (settings : AnimationSettings) {spot : Spot κ SceneNode}

/-- What a step of the track comes to on the spot. -/
theorem steady_of_step {node node' : SceneNode} {track' : Track κ} {cue : Cue κ SceneNode}
    (hnode : spot.node = some node) (hobey : spot.obey settings cue = ⟨some node', track'⟩)
    (hsteady : track'.Steady node')
    (hkept : track'.base node' = spot.track.base node ∨
      spot.completesFade settings cue = true ∧
        ∃ opacity, track'.base node' = { spot.track.base node with opacity }) :
    (spot.obey settings cue).Steady ∧
      KeepsBase (spot.completesFade settings cue) spot.base? (spot.obey settings cue).base? := by
  have hafter : (spot.obey settings cue).base? = some (track'.base node') := by
    rw [hobey]
    exact base?_eq rfl
  rw [hafter, base?_eq hnode]
  refine ⟨hobey ▸ ⟨node', rfl, hsteady⟩, ?_⟩
  rcases hkept with hsame | ⟨hfade, opacity, hopacity⟩
  · exact .inl (congrArg some hsame)
  · exact .inr ⟨hfade, opacity, congrArg some hopacity⟩

theorem steady_start (h : spot.Steady) (target : String) (spec : AnimationSpec) :
    (spot.obey settings (.start target spec)).Steady ∧
      KeepsBase (spot.completesFade settings (.start target spec)) spot.base?
        (spot.obey settings (.start target spec)).base? := by
  obtain ⟨node, hnode, hsteady⟩ := id h
  cases hkind : AnimationKind.ofName? spec.kind with
  | none =>
      have hobey : spot.obey settings (.start target spec) = spot := by
        simp [obey, Spot.start, hkind]
      rw [hobey]
      exact ⟨h, .inl rfl⟩
  | some kind =>
      obtain ⟨track', node', hstart, hsteady', hkept⟩ := hsteady.start settings kind spec
      have hobey : spot.obey settings (.start target spec) = ⟨some node', track'⟩ := by
        simp only [obey, Spot.start, hkind, hnode, hstart]
      refine steady_of_step settings hnode hobey hsteady' (hkept.imp_right ?_)
      rintro ⟨hgone, hfade, hopacity⟩
      refine ⟨?_, hopacity⟩
      simp [completesFade, hobey, hgone, hkind, hfade]

theorem steady_tick (h : spot.Steady) (elapsed : Float) :
    (spot.obey settings (.tick elapsed)).Steady ∧
      KeepsBase (spot.completesFade settings (.tick elapsed)) spot.base?
        (spot.obey settings (.tick elapsed)).base? := by
  obtain ⟨node, hnode, hsteady⟩ := h
  have hobey : ∀ {track' : Track κ} {node' : SceneNode},
      spot.track.advanceRun settings elapsed node = (track', node') →
        spot.obey settings (.tick elapsed) = ⟨some node', track'⟩ := by
    intro track' node' hstep
    simp only [obey, Spot.tick, hnode, Track.advance_of_tween_none hsteady.still, hstep]
  cases hrun : spot.track.run with
  | none =>
      exact steady_of_step settings hnode
        (hobey (Track.advanceRun_of_run_none hrun settings elapsed node)) hsteady (.inl rfl)
  | some run =>
      obtain ⟨track', node', hstep, hsteady', hkept⟩ := hsteady.advanceRun hrun settings elapsed
      rw [← Track.base_of_run_some hrun node] at hkept
      refine steady_of_step settings hnode (hobey hstep) hsteady' (hkept.imp_right ?_)
      rintro ⟨hgone, hfade, hopacity⟩
      refine ⟨?_, hopacity⟩
      simp [completesFade, hobey hstep, hgone, hrun, hfade]

theorem steady_restored (h : spot.Steady) (track : Track κ) (hstill : track.tween = none)
    (hrun : track.run = none) :
    (⟨spot.node.map spot.track.restore, track⟩ : Spot κ SceneNode).Steady ∧
      (⟨spot.node.map spot.track.restore, track⟩ : Spot κ SceneNode).base? = spot.base? := by
  obtain ⟨node, hnode, -⟩ := h
  rw [hnode, Option.map_some]
  refine ⟨⟨_, rfl, Track.steady_of_run_none hstill hrun _⟩, ?_⟩
  rw [base?_eq rfl, base?_eq hnode, Track.base_of_run_none hrun, Track.transform_restore]

/-- A cue about procedural animations leaves a spot steady and keeps its base, unless it
completes a fade. -/
theorem steady_obey (h : spot.Steady) {cue : Cue κ SceneNode} (hcue : cue.animates = true) :
    (spot.obey settings cue).Steady ∧
      KeepsBase (spot.completesFade settings cue) spot.base? (spot.obey settings cue).base? := by
  cases cue with
  | start id spec => exact steady_start settings h id spec
  | tick elapsed => exact steady_tick settings h elapsed
  | stop target =>
      obtain ⟨node, -, hsteady⟩ := id h
      have hrestored := steady_restored h { spot.track with run := none } hsteady.still rfl
      exact ⟨hrestored.1, .inl hrestored.2⟩
  | stopAll =>
      have hrestored := steady_restored h .empty rfl rfl
      exact ⟨hrestored.1, .inl hrestored.2⟩
  | tween id request label => cases hcue
  | move id place options label => cases hcue
  | put id other => cases hcue
  | remove id => cases hcue
  | write id name value => cases hcue

end Spot

/-! ## A run -/

namespace Stage

section Definitions

variable {ν : Type} [RenderNode ν]

/-- The snapshot of the animation of an agent while one runs, and otherwise the transform of its
node. -/
def base? (s : Stage κ ν) (id : String) : Option Transform :=
  (s.engine.snapshot? id).or ((s.nodes.find? id).map RenderNode.transform)

/-- Whether a fade of an agent completes with a cue. -/
def completesFade (s : Stage κ ν) (id : String) (cue : Cue κ ν) : Bool :=
  cue.concerns id && (s.spot id).completesFade s.engine.settings cue

/-- Whether a fade of an agent completes in the course of some cues. -/
def fades (s : Stage κ ν) (id : String) : List (Cue κ ν) → Bool
  | [] => false
  | cue :: rest => s.completesFade id cue || (s.perform cue).fades id rest

end Definitions

theorem base?_spot (s : Stage κ SceneNode) (id : String) : s.base? id = (s.spot id).base? := rfl

/-- Without an animation the base is the transform of the node. -/
theorem base?_of_not_isAnimating {s : Stage κ SceneNode} {id : String}
    (h : s.engine.isAnimating id = false) :
    s.base? id = (s.nodes.find? id).map (·.transform) := by
  have hgone : s.engine.run? id = none := by simpa [Engine.isAnimating] using h
  rw [base?, Engine.snapshot?, hgone, Option.map_none, Option.none_or]
  rfl

theorem steady_perform {s : Stage κ SceneNode} {id : String} (h : (s.spot id).Steady)
    {cue : Cue κ SceneNode} (hcue : cue.concerns id = true → cue.animates = true) :
    ((s.perform cue).spot id).Steady ∧
      Spot.KeepsBase (s.completesFade id cue) (s.base? id) ((s.perform cue).base? id) := by
  rw [base?_spot, base?_spot, spot_perform, completesFade]
  cases hc : cue.concerns id with
  | true => exact Spot.steady_obey s.engine.settings h (hcue hc)
  | false => exact ⟨h, .inl rfl⟩

theorem steady_run {id : String} : ∀ (cues : List (Cue κ SceneNode)) {s : Stage κ SceneNode},
    (s.spot id).Steady → (∀ cue ∈ cues, cue.concerns id = true → cue.animates = true) →
      ((s.run cues).spot id).Steady ∧
        Spot.KeepsBase (s.fades id cues) (s.base? id) ((s.run cues).base? id)
  | [], _, h, _ => ⟨h, .inl rfl⟩
  | cue :: rest, s, h, hcues => by
      obtain ⟨hcue, hrest⟩ := List.forall_mem_cons.mp hcues
      obtain ⟨hsteady, hkept⟩ := steady_perform h hcue
      obtain ⟨hlast, hlater⟩ := steady_run rest hsteady hrest
      exact ⟨hlast, hkept.trans hlater⟩

/-- A node that is there, and on which nothing runs, is steady. -/
theorem steady_of_free {s : Stage κ SceneNode} {id : String}
    (hnode : (s.nodes.find? id).isSome = true) (htween : s.engine.isTweening id = false)
    (hrun : s.engine.isAnimating id = false) : (s.spot id).Steady := by
  obtain ⟨node, hnode⟩ := Option.isSome_iff_exists.mp hnode
  have hstill : (s.engine.track id).tween = none := by simpa [Engine.isTweening] using htween
  have hidle : (s.engine.track id).run = none := by
    simpa [Engine.isAnimating, Engine.run?] using hrun
  exact ⟨node, hnode, Track.steady_of_run_none hstill hidle node⟩

/-- Take a node on which nothing runs, and anything that is done afterwards except to begin a
tween of the node or to have the host change it.  Then at any time

* a cue leaves the base of the node as it is, or completes a fade and changes its opacity alone;
* the node is there, and while an animation runs, it has every field of the snapshot but the one
  that is driven;
* from then on the base stays, but for the opacity where a fade completes meanwhile;
* where none completes and nothing runs in the end, the node has for its transform the base that
  it had, and so the transform that it had if nothing ran. -/
theorem base?_kept (s : Stage κ SceneNode) (id : String)
    (hnode : (s.nodes.find? id).isSome = true) (htween : s.engine.isTweening id = false)
    (hrun : s.engine.isAnimating id = false) (before during : List (Cue κ SceneNode))
    (hcues : ∀ cue ∈ before ++ during, cue.concerns id = true → cue.animates = true) :
    let s₁ := s.run before
    let s₂ := s₁.run during
    (∀ cue : Cue κ SceneNode, (cue.concerns id = true → cue.animates = true) →
      (s₁.perform cue).base? id = s₁.base? id ∨
        s₁.completesFade id cue = true ∧
          ∃ opacity, (s₁.perform cue).base? id = (s₁.base? id).map ({ · with opacity })) ∧
    (∃ node, s₁.nodes.find? id = some node ∧
      ∀ kind snapshot, s₁.engine.activeKind? id = some kind →
        s₁.engine.snapshot? id = some snapshot →
          ∀ name, name ≠ kind.driven → node.transform.get? name = snapshot.get? name) ∧
    (s₂.base? id = s₁.base? id ∨
      s₁.fades id during = true ∧
        ∃ opacity, s₂.base? id = (s₁.base? id).map ({ · with opacity })) ∧
    (s₁.fades id during = false → s₂.engine.isAnimating id = false →
      (s₂.nodes.find? id).map (·.transform) = s₁.base? id ∧
        (s₁.engine.isAnimating id = false →
          (s₂.nodes.find? id).map (·.transform) = (s₁.nodes.find? id).map (·.transform))) := by
  intro s₁ s₂
  obtain ⟨hbefore, hduring⟩ := List.forall_mem_append.mp hcues
  obtain ⟨hsteady, -⟩ := steady_run before (steady_of_free hnode htween hrun) hbefore
  have hkept := (steady_run during hsteady hduring).2
  refine ⟨fun cue hcue => (steady_perform hsteady hcue).2, ?_, hkept, fun hfades hidle => ?_⟩
  · obtain ⟨node, hthere, hnode⟩ := hsteady
    refine ⟨node, hthere, fun kind snapshot hkind hsnapshot name hname => ?_⟩
    obtain ⟨run, hrun', rfl⟩ := Option.map_eq_some_iff.mp hkind
    have hsame : run.snapshot = snapshot := by
      have hboth : (some run).map (·.snapshot) = some snapshot := hrun' ▸ hsnapshot
      exact Option.some.inj hboth
    rw [← hsame]
    exact hnode.frame run hrun' name hname
  · have hbase : s₂.base? id = s₁.base? id := by
      rcases hkept with hsame | ⟨hfade, -⟩
      · exact hsame
      · cases hfade.symm.trans hfades
    have hgiven : (s₂.nodes.find? id).map (·.transform) = s₁.base? id :=
      (base?_of_not_isAnimating hidle).symm.trans hbase
    exact ⟨hgiven, fun hidle₁ => hgiven.trans (base?_of_not_isAnimating hidle₁)⟩

/-- A hero that stands at some place, tilted. -/
def tilted : Stage Unit SceneNode :=
  ⟨.new {}, Table.empty.insert "hero" ⟨{ x := 3.0, y := 4.0, rotation := 30.0 }, ∅⟩⟩

/-- Spins that are replaced, that end and that are stopped, at odd times, leave no trace, nor
does a fade that is stopped halfway; another hero may go on with whatever it does. -/
theorem transform_after_spins :
    let spun := tilted.run [.start "hero" ⟨"spin", some 1000, none⟩, .tick 250.0]
    let stopped := spun.run [.start "hero" ⟨"spin", some 0, some 2⟩, .tick (0.0 / 0.0),
      .tick (1.0 / 0.0), .start "hero" ⟨"fade_out", some 100, none⟩, .tick 50.0,
      .write "other" "x" 1.0, .stop "hero"]
    (spun.nodes.find? "hero").map (·.transform.rotation) = some 120.0 ∧
      (stopped.nodes.find? "hero").map (·.transform) =
        some { x := 3.0, y := 4.0, rotation := 30.0 } := by
  intro spun stopped
  have hlaw := base?_kept tilted "hero" (by decide) (by decide) (by decide)
    [.start "hero" ⟨"spin", some 1000, none⟩, .tick 250.0]
    [.start "hero" ⟨"spin", some 0, some 2⟩, .tick (0.0 / 0.0), .tick (1.0 / 0.0),
      .start "hero" ⟨"fade_out", some 100, none⟩, .tick 50.0, .write "other" "x" 1.0,
      .stop "hero"] (by decide)
  refine ⟨by decide +kernel, ?_⟩
  exact (hlaw.2.2.2 (by decide +kernel) (by decide +kernel)).1.trans (by decide +kernel)

end Stage

end Storybook
