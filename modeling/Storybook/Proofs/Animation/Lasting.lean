/-
# `Storybook.Proofs.Animation.Lasting` — how long the numbers of a tween last

A tween that has arrived leaves numbers on its node.  Animations of the same node come and go
meanwhile, and each ends by giving the node the transform that it found at its beginning.  So a
number that a tween leaves has two sides: what the node *shows*, and what it would show if the
animation that runs were restored.

| | shows | restored |
| :-- | :-- | :-- |
| an animation begins | stays | becomes what the node shows |
| it moves another number | stays | stays |
| it is stopped, replaced or over | becomes what was restored | |

The two differ only while an animation runs that had begun before the tween arrived: then the
snapshot is older than the number.  `Spot.Keeps` is this invariant, `Spot.keeps_obey` what a
cue does to it, and `Stage.property?_after_tween` what it comes to.
-/
import Storybook.Proofs.Animation.Node
import Storybook.Proofs.Animation.Stage
import Storybook.Proofs.Animation.Track

namespace Storybook

open RenderNode (property? setTransform write)

variable {κ : Type}

/-- Whether a cue begins no tween of a number, does not write it, and begins no animation that
drives it and will not give it back. -/
def Cue.spares {ν : Type} (name : String) : Cue κ ν → Bool
  | .tween _ request _ => request.properties.all (·.1 != name)
  | .move _ _ _ _ => ["x", "y"].all (· != name)
  | .start _ spec =>
    (AnimationKind.ofName? spec.kind).all fun kind => kind.driven != name || kind.isCyclic
  | .stop _ | .stopAll | .tick _ => true
  | .put _ _ | .remove _ => false
  | .write _ other _ => other != name

namespace Spot

/-- Whether a cue restores the node from the animation that runs. -/
def restores {ν : Type} (spot : Spot κ ν) : Cue κ ν → Bool
  | .start _ spec => (AnimationKind.ofName? spec.kind).isSome
  | .stop _ | .stopAll => true
  | .tick elapsed => spot.track.run.any fun run => (run.later elapsed).isOver
  | _ => false

/-- Whether the animation that runs at first is restored in the course of some cues. -/
def givesBack {ν : Type} [RenderNode ν] (settings : AnimationSettings) (spot : Spot κ ν) :
    List (Cue κ ν) → Bool
  | [] => false
  | cue :: rest =>
    spot.track.run.isSome &&
      (spot.restores cue || (spot.obey settings cue).givesBack settings rest)

end Spot

/-! ## Both sides of a number -/

/-- A number on a node on which an animation runs: what the node shows, and what it gets when
it is restored.  The number that the animation drives is shown only after it. -/
structure ProceduralRun.Shows (name : String) (shown restored : Option Float)
    (run : ProceduralRun) (node : SceneNode) : Prop where
  cyclic : run.kind.driven = name → run.kind.isCyclic = true
  shown : run.kind.driven ≠ name → property? name node = shown
  restored : property? name (setTransform run.snapshot node) = restored

/-- No tween takes a number elsewhere. -/
def Track.Avoids (name : String) (track : Track κ) : Prop :=
  ∀ tween, track.tween = some tween → ∀ m ∈ tween.motions, m.name ≠ name

/-- Both sides of a number on a node that a track moves; without an animation there is only
what the node shows. -/
structure Track.Keeps (name : String) (shown restored : Option Float) (track : Track κ)
    (node : SceneNode) : Prop where
  avoids : track.Avoids name
  idle : track.run = none → property? name node = shown
  running : ∀ run, track.run = some run → run.Shows name shown restored node

/-- Both sides of a number on a spot that has a node. -/
def Spot.Keeps (name : String) (shown restored : Option Float) (spot : Spot κ SceneNode) :
    Prop :=
  ∃ node, spot.node = some node ∧ spot.track.Keeps name shown restored node

variable {name : String} {shown restored : Option Float}

theorem property?_write_of_ne {other : String} (h : other ≠ name) (value : Float)
    (node : SceneNode) : property? name (write other value node) = property? name node := by
  rw [SceneNode.property?_write, if_neg (Ne.symm h)]

namespace ProceduralRun

/-- The writing of another number touches neither side. -/
theorem Shows.write {run : ProceduralRun} {node : SceneNode}
    (h : run.Shows name shown restored node) {other : String} (hother : other ≠ name)
    (value : Float) : run.Shows name shown restored (RenderNode.write other value node) where
  cyclic := h.cyclic
  shown := fun hdriven => (property?_write_of_ne hother value node).trans (h.shown hdriven)
  restored :=
    (SceneNode.property?_setTransform_write name _ value node (.inl (Ne.symm hother))).trans
      h.restored

/-- Nor does the animation itself, whatever it drives. -/
theorem Shows.drive {run : ProceduralRun} {node : SceneNode}
    (h : run.Shows name shown restored node) (elapsed value : Float) :
    (run.later elapsed).Shows name shown restored
      (RenderNode.write run.kind.driven value node) where
  cyclic := h.cyclic
  shown := fun hdriven => (property?_write_of_ne hdriven value node).trans (h.shown hdriven)
  restored :=
    (SceneNode.property?_setTransform_write name _ value node
      (.inr run.kind.driven_mem_fieldNames)).trans h.restored

/-- An animation that begins would give back what the node shows. -/
theorem shows_start {kind : AnimationKind} (h : kind.driven = name → kind.isCyclic = true)
    (duration : UInt64) (cycles : Int64) {node : SceneNode} (hnode : property? name node = shown) :
    (ProceduralRun.start kind duration cycles (RenderNode.transform node)).Shows name shown shown
      node where
  cyclic := h
  shown := fun _ => hnode
  restored := hnode

end ProceduralRun

/-! ## What a step does to them -/

namespace Track

theorem Avoids.withRun {track : Track κ} (h : track.Avoids name) (run : Option ProceduralRun) :
    ({ track with run } : Track κ).Avoids name := h

theorem avoids_of_tween_none {track : Track κ} (h : track.tween = none) : track.Avoids name :=
  fun tween hsome => by cases h.symm.trans hsome

theorem keeps_of_run_none {track : Track κ} {node : SceneNode} (havoids : track.Avoids name)
    (hrun : track.run = none) (h : property? name node = shown) (restored : Option Float) :
    track.Keeps name shown restored node where
  avoids := havoids
  idle := fun _ => h
  running := fun run hsome => by cases hrun.symm.trans hsome

theorem keeps_of_run_some {track : Track κ} {node : SceneNode} {run : ProceduralRun}
    (havoids : track.Avoids name) (hrun : track.run = some run)
    (h : run.Shows name shown restored node) : track.Keeps name shown restored node where
  avoids := havoids
  idle := fun hnone => by cases hrun.symm.trans hnone
  running := fun run' hsome => by
    cases hrun.symm.trans hsome
    exact h

/-- A step of the animation: it is over, it goes on, or a fade of another number has arrived. -/
theorem keeps_advanceRun (settings : AnimationSettings) {track : Track κ} {run : ProceduralRun}
    {node : SceneNode} (hrun : track.run = some run) (havoids : track.Avoids name)
    (h : run.Shows name shown restored node) (elapsed : Float) :
    (track.advanceRun settings elapsed node).1.Keeps name
      (if (run.later elapsed).isOver then restored else shown) restored
      (track.advanceRun settings elapsed node).2 := by
  cases hover : (run.later elapsed).isOver with
  | true =>
      rw [advanceRun_of_isOver hrun settings hover, if_pos rfl]
      exact keeps_of_run_none (havoids.withRun none) rfl h.restored restored
  | false =>
      rw [if_neg (by decide)]
      cases hfaded : (run.later elapsed).hasFaded with
      | true =>
          have hfade : (run.later elapsed).kind.isCyclic = false :=
            ProceduralRun.isCyclic_of_hasFaded hfaded
          have hdriven : run.kind.driven ≠ name := by
            intro hname
            cases (h.cyclic hname).symm.trans hfade
          rw [advanceRun_of_hasFaded hrun settings hfaded]
          exact keeps_of_run_none (havoids.withRun none) rfl
            ((property?_write_of_ne hdriven _ node).trans (h.shown hdriven)) restored
      | false =>
          rw [advanceRun_of_goesOn hrun settings hover hfaded]
          exact keeps_of_run_some (havoids.withRun _) rfl (h.drive elapsed _)

/-- The writing of another number touches neither side. -/
theorem Keeps.write {track : Track κ} {node : SceneNode}
    (h : track.Keeps name shown restored node) {other : String} (hother : other ≠ name)
    (value : Float) : track.Keeps name shown restored (RenderNode.write other value node) where
  avoids := h.avoids
  idle := fun hrun => (property?_write_of_ne hother value node).trans (h.idle hrun)
  running := fun run hrun => (h.running run hrun).write hother value

/-- Nor does a tween of other numbers. -/
theorem Keeps.advanceTween {track : Track κ} {node : SceneNode}
    (h : track.Keeps name shown restored node) (elapsed : Float) :
    (track.advanceTween elapsed node).1.Keeps name shown restored
      (track.advanceTween elapsed node).2.1 := by
  cases htween : track.tween with
  | none =>
      rw [advanceTween_of_tween_none htween]
      exact h
  | some tween =>
      have hmotions : ∀ m ∈ tween.motions, m.name ≠ name := h.avoids tween htween
      have hmoved : track.Keeps name shown restored ((tween.later elapsed).place node) :=
        Tween.place_induction (fun m hm value _ hP => hP.write (hmotions m hm) value) h
      cases harrived : (tween.later elapsed).hasArrived with
      | true =>
          rw [advanceTween_of_hasArrived htween harrived]
          exact ⟨avoids_of_tween_none rfl, hmoved.idle, hmoved.running⟩
      | false =>
          rw [advanceTween_of_not_hasArrived htween harrived]
          refine ⟨?_, hmoved.idle, hmoved.running⟩
          rintro later hlater
          cases hlater
          exact hmotions

/-- What the node shows after it has been restored. -/
theorem Keeps.property?_restore {track : Track κ} {node : SceneNode}
    (h : track.Keeps name shown restored node) (hidle : track.run = none → restored = shown) :
    property? name (track.restore node) = restored := by
  cases hrun : track.run with
  | none => rw [restore_of_run_none hrun, h.idle hrun, hidle hrun]
  | some run =>
      rw [restore_of_run_some hrun]
      exact (h.running run hrun).restored

theorem keeps_start (settings : AnimationSettings) {track : Track κ} {node : SceneNode}
    (h : track.Keeps name shown restored node) (hidle : track.run = none → restored = shown)
    (spec : AnimationSpec) {kind : AnimationKind}
    (hcyclic : kind.driven = name → kind.isCyclic = true) :
    (track.start settings kind spec node).1.Keeps name restored restored
      (track.start settings kind spec node).2 := by
  have hbegin := ProceduralRun.shows_start hcyclic
    (spec.duration.getD settings.defaultAnimationDuration)
    (spec.cycles.getD kind.standardCycles) (h.property?_restore hidle)
  generalize hrun : ProceduralRun.start kind _ _ _ = run at hbegin
  have hstep := keeps_advanceRun settings rfl (h.avoids.withRun (some run)) hbegin 0.0
  rw [ite_self] at hstep
  subst hrun
  exact hstep

theorem keeps_advance (settings : AnimationSettings) {track : Track κ} {node : SceneNode}
    (h : track.Keeps name shown restored node) (elapsed : Float) :
    (track.advance settings elapsed node).1.Keeps name
      (if track.run.any (fun run => (run.later elapsed).isOver) then restored else shown)
      restored (track.advance settings elapsed node).2.1 := by
  have htween := h.advanceTween elapsed
  have hrun := track.run_advanceTween elapsed node
  simp only [advance]
  generalize track.advanceTween elapsed node = moved at htween hrun ⊢
  obtain ⟨track', node', label⟩ := moved
  cases hnone : track.run with
  | none =>
      rw [advanceRun_of_run_none (hrun.trans hnone)]
      exact htween
  | some run =>
      have hsome : track'.run = some run := hrun.trans hnone
      exact keeps_advanceRun settings hsome htween.avoids (htween.running run hsome) elapsed

end Track

namespace Spot

variable (settings : AnimationSettings)

theorem keeps_tween {spot : Spot κ SceneNode} (h : spot.Keeps name shown restored)
    {request : TweenRequest} (hrequest : request.properties.all (·.1 != name) = true)
    (label : Option κ) : (spot.tween settings request label).Keeps name shown restored := by
  obtain ⟨node, hnode, hkeeps⟩ := h
  simp only [Spot.tween, hnode]
  refine ⟨node, rfl, ?_, hkeeps.idle, hkeeps.running⟩
  rintro tween htween m hm
  cases htween
  obtain ⟨property, hproperty, rfl⟩ := List.mem_map.mp hm
  have hne := List.all_eq_true.mp hrequest property hproperty
  simpa using hne

/-- A cue that spares a number leaves what is shown, or restores it. -/
theorem keeps_obey {spot : Spot κ SceneNode} (h : spot.Keeps name shown restored)
    (hidle : spot.track.run = none → restored = shown) {cue : Cue κ SceneNode}
    (hcue : cue.spares name = true) :
    (spot.obey settings cue).Keeps name (if spot.restores cue then restored else shown)
      restored := by
  obtain ⟨node, hnode, hkeeps⟩ := id h
  cases cue with
  | tween id request label => exact keeps_tween settings h hcue label
  | move id place options label =>
      refine keeps_tween settings h ?_ label
      simpa [TweenRequest.toPlace, Cue.spares] using hcue
  | start id spec =>
      cases hkind : AnimationKind.ofName? spec.kind with
      | none => simpa [restores, obey, Spot.start, hkind] using h
      | some kind =>
          have hcyclic : kind.driven = name → kind.isCyclic = true := by
            simpa [Cue.spares, hkind, Decidable.imp_iff_not_or] using hcue
          simp only [restores, obey, Spot.start, hkind, hnode]
          exact ⟨_, rfl, Track.keeps_start settings hkeeps hidle spec hcyclic⟩
  | stop id =>
      simp only [obey, hnode]
      exact ⟨_, rfl, Track.keeps_of_run_none (hkeeps.avoids.withRun none) rfl
        (hkeeps.property?_restore hidle) restored⟩
  | stopAll =>
      simp only [obey, hnode]
      exact ⟨_, rfl, Track.keeps_of_run_none (Track.avoids_of_tween_none rfl) rfl
        (hkeeps.property?_restore hidle) restored⟩
  | tick elapsed =>
      simp only [obey, Spot.tick, hnode]
      exact ⟨_, rfl, Track.keeps_advance settings hkeeps elapsed⟩
  | put id other => cases hcue
  | remove id => cases hcue
  | write id other value =>
      have hother : other ≠ name := by simpa [Cue.spares] using hcue
      simp only [obey, hnode]
      exact ⟨_, rfl, hkeeps.write hother value⟩

/-- Over a run, what is shown stays until the animation that runs at first is restored. -/
theorem keeps_follow : ∀ (cues : List (Cue κ SceneNode)) {spot : Spot κ SceneNode}
    {shown restored : Option Float}, spot.Keeps name shown restored →
    (∀ cue ∈ cues, cue.spares name = true) →
      ∃ restored',
        (spot.follow settings cues).Keeps name
          (if spot.givesBack settings cues then restored else shown) restored'
  | [], _, _, restored, h, _ => ⟨restored, h⟩
  | cue :: rest, spot, shown, restored, h, hcues => by
      obtain ⟨hcue, hrest⟩ := List.forall_mem_cons.mp hcues
      cases hrun : spot.track.run with
      | none =>
          -- a later animation has its snapshot from what the node shows now
          obtain ⟨node, hnode, hkeeps⟩ := h
          have hshown : spot.Keeps name shown shown :=
            ⟨node, hnode, Track.keeps_of_run_none hkeeps.avoids hrun (hkeeps.idle hrun) shown⟩
          have hstep := keeps_obey settings hshown (fun _ => rfl) hcue
          rw [ite_self] at hstep
          obtain ⟨restored', hfollow⟩ := keeps_follow rest hstep hrest
          rw [ite_self] at hfollow
          refine ⟨restored', ?_⟩
          rw [givesBack, hrun]
          exact hfollow
      | some run =>
          have hstep := keeps_obey settings h (fun hnone => by cases hrun.symm.trans hnone) hcue
          obtain ⟨restored', hfollow⟩ := keeps_follow rest hstep hrest
          refine ⟨restored', ?_⟩
          rw [givesBack, hrun]
          cases hback : spot.restores cue with
          | true =>
              rw [hback, if_pos rfl, ite_self] at hfollow
              exact hfollow
          | false =>
              rw [hback] at hfollow
              exact hfollow

/-- A spot on which a tween has arrived: an animation that began before it would give back what
its snapshot has. -/
theorem keeps_arrived {track : Track κ} (moved : SceneNode)
    (hrun : ∀ run, track.run = some run → run.kind.driven = name → run.kind.isCyclic = true) :
    (⟨some moved, { track with tween := none }⟩ : Spot κ SceneNode).Keeps name
      (property? name moved)
      (((track.run.map (·.snapshot)).bind (·.get? name)).or (property? name moved)) := by
  refine ⟨moved, rfl, Track.avoids_of_tween_none rfl, fun _ => rfl, fun run hsome => ?_⟩
  have hsnapshot : track.run = some run := hsome
  rw [hsnapshot]
  exact ⟨hrun run hsome, fun _ => rfl, SceneNode.property?_setTransform name _ moved⟩

end Spot

namespace Stage

/-- After a tween has arrived, and until a cue takes its number elsewhere, the node shows that
number whenever no animation drives it; but an animation that had begun before the tween arrived
gives the fields of the transform back as they were when it began. -/
theorem property?_after_tween (s : Stage κ SceneNode) (id name : String) (elapsed : Float)
    (cues : List (Cue κ SceneNode)) {tween : Tween κ} {node : SceneNode}
    (htween : (s.engine.track id).tween = some tween)
    (hnode : s.nodes.find? id = some node)
    (harrived : (tween.later elapsed).hasArrived = true)
    (hrun : ∀ run, s.engine.run? id = some run →
      run.kind.driven = name → run.kind.isCyclic = true)
    (hcues : ∀ cue ∈ cues, cue.concerns id = true → cue.spares name = true) :
    let left := property? name ((tween.later elapsed).place node)
    let before := (s.engine.snapshot? id).bind (·.get? name)
    let given := (Cue.tick elapsed :: cues).filter (·.concerns id)
    let played := s.run (.tick elapsed :: cues)
    (∀ run, played.engine.run? id = some run → run.kind.driven ≠ name) →
      ∃ there, played.nodes.find? id = some there ∧
        property? name there =
          if (s.spot id).givesBack s.engine.settings given then before.or left else left := by
  intro left before given played hplayed
  have hgiven : ∀ cue ∈ given, cue.spares name = true := by
    intro cue hcue
    obtain ⟨hmem, hconcerns⟩ := List.mem_filter.mp hcue
    rcases List.mem_cons.mp hmem with rfl | hmem
    · rfl
    · exact hcues cue hmem hconcerns
  -- the first tick does the same to the spot on which the tween has just arrived
  let arrived : Spot κ SceneNode :=
    ⟨some ((tween.later elapsed).place node), { s.engine.track id with tween := none }⟩
  have hfirst : (s.spot id).obey s.engine.settings (.tick elapsed) =
      arrived.obey s.engine.settings (.tick elapsed) := by
    have hstep := Track.advanceTween_of_hasArrived htween harrived node
    simp only [Spot.obey, Spot.tick, spot, hnode, Track.advance, hstep, arrived]
    rw [Track.advanceTween_of_tween_none rfl]
  have hleft : arrived.Keeps name left (before.or left) := Spot.keeps_arrived _ hrun
  obtain ⟨restored, there, hthere, hkeeps⟩ :=
    Spot.keeps_follow s.engine.settings given hleft hgiven
  have hspot : played.spot id = arrived.follow s.engine.settings given := by
    rw [spot_run]
    exact congrArg (·.follow s.engine.settings (cues.filter (·.concerns id))) hfirst
  have hback : (s.spot id).givesBack s.engine.settings given =
      arrived.givesBack s.engine.settings given := by
    show (_ && (_ || ((s.spot id).obey _ _).givesBack _ _)) = _
    rw [hfirst]
    rfl
  rw [← hspot] at hthere hkeeps
  rw [← hback] at hkeeps
  refine ⟨there, hthere, ?_⟩
  cases hlast : (played.spot id).track.run with
  | none => exact hkeeps.idle hlast
  | some run => exact (hkeeps.running run hlast).shown (hplayed run hlast)

/-- A stage with one node, on which nothing moves yet. -/
def solo : Stage Unit SceneNode := ⟨.new {}, Table.ofList [("hero", .atPoint ⟨0.0, 0.0⟩)]⟩

/-- The cue that brings the one node to a place on the next tick. -/
def toRight : Cue Unit SceneNode := .move "hero" ⟨100.0, 0.0⟩ ⟨some 0, none⟩ none

/-- An animation that begins after the arrival does not take the place back. -/
theorem property?_after_later_spin :
    let s := solo.perform toRight
    let cues := [.start "hero" ⟨"spin", some 1000, none⟩, .tick 250.0, .stop "hero"]
    ∃ there, (s.run (.tick 1.0 :: cues)).nodes.find? "hero" = some there ∧
      property? "x" there = some 100.0 := by
  intro s cues
  let node : SceneNode := .atPoint ⟨0.0, 0.0⟩
  let tween : Tween Unit := .start {} (.toPlace {} ⟨100.0, 0.0⟩ ⟨some 0, none⟩) none node
  have htween : (s.engine.track "hero").tween = some tween := rfl
  have hnode : s.nodes.find? "hero" = some node := by decide
  have harrived : (tween.later 1.0).hasArrived = true := by decide
  have hbefore : s.engine.run? "hero" = none := by decide
  have hcues : ∀ cue ∈ cues, cue.concerns "hero" = true → cue.spares "x" = true := by decide
  have hafter : (s.run (.tick 1.0 :: cues)).engine.run? "hero" = none := by decide
  obtain ⟨there, hthere, hshown⟩ := property?_after_tween s "hero" "x" 1.0 cues htween hnode
    harrived (fun run hrun => by cases hbefore.symm.trans hrun) hcues
    (fun run hrun => by cases hafter.symm.trans hrun)
  exact ⟨there, hthere, hshown.trans (by decide)⟩

/-- An animation that began before the arrival takes the place back when it is stopped, although
it drives another number. -/
theorem property?_after_earlier_spin :
    let s := (solo.perform (.start "hero" ⟨"spin", some 1000, none⟩)).perform toRight
    let shown (cues : List (Cue Unit SceneNode)) :=
      ((s.run cues).nodes.find? "hero").bind (property? "x")
    AnimationKind.spin.driven ≠ "x" ∧ s.engine.activeKind? "hero" = some .spin ∧
      s.engine.isTweening "hero" = true ∧
      (s.perform (.tick 1.0)).engine.isTweening "hero" = false ∧
      shown [.tick 1.0] = some 100.0 ∧ shown [.tick 1.0, .stop "hero"] = some 0.0 := by
  decide

end Stage

end Storybook
