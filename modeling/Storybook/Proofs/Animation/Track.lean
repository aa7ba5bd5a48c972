/-
# `Storybook.Proofs.Animation.Track` — what a step of a track does to its node

Letting time pass on a track moves its tween first.  The tween writes its numbers, and is gone
once they have arrived.  The procedural animation then has one of three outcomes.

| | the animation | the node |
| :-- | :-- | :-- |
| all its cycles are complete | gone | gets the transform of the snapshot |
| a fade is at its end | gone | another number under the driven name |
| it goes on | the same, a while later | another number under the driven name |

Which one it is depends on the animation alone, not on the node.
-/
import Storybook.Animation.Engine

namespace Storybook

variable {κ ν : Type} [RenderNode ν]

theorem AnimationKind.driven_mem_fieldNames (kind : AnimationKind) :
    kind.driven ∈ Transform.fieldNames := by
  cases kind <;> decide

/-- What every write of a tween preserves, the tween preserves. -/
theorem Tween.place_induction {P : ν → Prop} {tween : Tween κ}
    (hwrite : ∀ m ∈ tween.motions, ∀ value node, P node → P (RenderNode.write m.name value node))
    {node : ν} (h : P node) : P (tween.place node) := by
  simp only [place]
  generalize tween.motions = motions at hwrite ⊢
  induction motions generalizing node with
  | nil => exact h
  | cons m rest ih =>
      obtain ⟨hm, hrest⟩ := List.forall_mem_cons.mp hwrite
      exact ih (hm _ node h) hrest

theorem ProceduralRun.isCyclic_of_hasFaded {run : ProceduralRun} (h : run.hasFaded = true) :
    run.kind.isCyclic = false := by
  obtain ⟨hcyclic, -⟩ := (Bool.and_eq_true _ _).mp h
  simpa using hcyclic

/-- A fade has no cycles to complete. -/
theorem ProceduralRun.isOver_of_hasFaded {run : ProceduralRun} (h : run.hasFaded = true) :
    run.isOver = false := by
  rw [isOver, isCyclic_of_hasFaded h, Bool.false_and]

namespace Track

theorem advanceTween_of_tween_none {track : Track κ} (h : track.tween = none) (elapsed : Float)
    (node : ν) : track.advanceTween elapsed node = (track, node, none) := by
  simp [advanceTween, h]

theorem advanceTween_of_hasArrived {track : Track κ} {tween : Tween κ}
    (h : track.tween = some tween) {elapsed : Float}
    (harrived : (tween.later elapsed).hasArrived = true) (node : ν) :
    track.advanceTween elapsed node =
      ({ track with tween := none }, (tween.later elapsed).place node, tween.label) := by
  simp only [advanceTween, h, harrived, if_true]
  rfl

theorem advanceTween_of_not_hasArrived {track : Track κ} {tween : Tween κ}
    (h : track.tween = some tween) {elapsed : Float}
    (hgoing : (tween.later elapsed).hasArrived = false) (node : ν) :
    track.advanceTween elapsed node =
      ({ track with tween := some (tween.later elapsed) }, (tween.later elapsed).place node,
        none) := by
  simp only [advanceTween, h, hgoing]
  rfl

theorem run_advanceTween (track : Track κ) (elapsed : Float) (node : ν) :
    (track.advanceTween elapsed node).1.run = track.run := by
  simp only [advanceTween]
  split
  · rfl
  · split <;> rfl

theorem advanceRun_of_run_none {track : Track κ} (h : track.run = none)
    (settings : AnimationSettings) (elapsed : Float) (node : ν) :
    track.advanceRun settings elapsed node = (track, node) := by
  simp [advanceRun, h]

section Run

variable {track : Track κ} {run : ProceduralRun} (h : track.run = some run)
  (settings : AnimationSettings) {elapsed : Float}

include h

theorem advanceRun_of_isOver (hover : (run.later elapsed).isOver = true) (node : ν) :
    track.advanceRun settings elapsed node =
      ({ track with run := none }, RenderNode.setTransform run.snapshot node) := by
  simp only [advanceRun, h, ProceduralRun.advance, hover]
  rfl

theorem advanceRun_of_hasFaded (hfaded : (run.later elapsed).hasFaded = true) (node : ν) :
    track.advanceRun settings elapsed node =
      ({ track with run := none },
        RenderNode.write run.kind.driven ((run.later elapsed).value settings) node) := by
  have hover := ProceduralRun.isOver_of_hasFaded hfaded
  simp only [advanceRun, h, ProceduralRun.advance, hover, hfaded]
  rfl

theorem advanceRun_of_goesOn (hover : (run.later elapsed).isOver = false)
    (hfaded : (run.later elapsed).hasFaded = false) (node : ν) :
    track.advanceRun settings elapsed node =
      ({ track with run := some (run.later elapsed) },
        RenderNode.write run.kind.driven ((run.later elapsed).value settings) node) := by
  simp only [advanceRun, h, ProceduralRun.advance, hover, hfaded]
  rfl

end Run

/-- What holds of each outcome holds of a step of the animation. -/
theorem advanceRun_cases {P : Track κ × ν → Prop} (settings : AnimationSettings)
    (elapsed : Float) (track : Track κ) (node : ν)
    (still : track.run = none → P (track, node))
    (ended : ∀ run, track.run = some run → (run.later elapsed).isOver = true →
      P ({ track with run := none }, RenderNode.setTransform run.snapshot node))
    (faded : ∀ run, track.run = some run → (run.later elapsed).hasFaded = true →
      P ({ track with run := none },
        RenderNode.write run.kind.driven ((run.later elapsed).value settings) node))
    (goesOn : ∀ run, track.run = some run →
      P ({ track with run := some (run.later elapsed) },
        RenderNode.write run.kind.driven ((run.later elapsed).value settings) node)) :
    P (track.advanceRun settings elapsed node) := by
  cases hrun : track.run with
  | none =>
      rw [advanceRun_of_run_none hrun]
      exact still hrun
  | some run =>
      cases hover : (run.later elapsed).isOver with
      | true =>
          rw [advanceRun_of_isOver hrun settings hover]
          exact ended run hrun hover
      | false =>
          cases hfaded : (run.later elapsed).hasFaded with
          | true =>
              rw [advanceRun_of_hasFaded hrun settings hfaded]
              exact faded run hrun hfaded
          | false =>
              rw [advanceRun_of_goesOn hrun settings hover hfaded]
              exact goesOn run hrun

theorem tween_advanceRun (settings : AnimationSettings) (elapsed : Float) (track : Track κ)
    (node : ν) : (track.advanceRun settings elapsed node).1.tween = track.tween :=
  advanceRun_cases (P := fun result => result.1.tween = track.tween) settings elapsed track node
    (fun _ => rfl) (fun _ _ _ => rfl) (fun _ _ _ => rfl) (fun _ _ => rfl)

/-- Time takes a tween further, or ends it. -/
theorem tween_advance (settings : AnimationSettings) (elapsed : Float) (track : Track κ)
    (node : ν) :
    (track.advance settings elapsed node).1.tween =
      track.tween.bind fun tween =>
        if (tween.later elapsed).hasArrived then none else some (tween.later elapsed) := by
  have hrun : (track.advance settings elapsed node).1.tween =
      (track.advanceTween elapsed node).1.tween := tween_advanceRun settings elapsed _ _
  rw [hrun]
  cases htween : track.tween with
  | none => rw [advanceTween_of_tween_none htween, htween, Option.bind_none]
  | some tween =>
      cases harrived : (tween.later elapsed).hasArrived with
      | true =>
          rw [advanceTween_of_hasArrived htween harrived, Option.bind_some, harrived, if_pos rfl]
      | false =>
          rw [advanceTween_of_not_hasArrived htween harrived, Option.bind_some, harrived]
          rfl

end Track

end Storybook
