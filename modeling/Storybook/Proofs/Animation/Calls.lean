/-
# `Storybook.Proofs.Animation.Calls` — what a tick calls

Each tween may bear a label, which stands for what is to be done when it arrives.  A tick calls
the labels of the tweens that arrive in it, each with the id of its agent.  For one agent that is
one label at most, and its spot says which (`Stage.filter_called`).
-/
import Storybook.Proofs.Animation.Stage
import Storybook.Proofs.Animation.Track

namespace Storybook

variable {κ ν : Type}

/-! ## What a tick calls -/

/-- The label of the tween of a track that arrives when time passes. -/
def Track.called? (elapsed : Float) (track : Track κ) : Option κ :=
  track.tween.bind fun tween => if (tween.later elapsed).hasArrived then tween.label else none

/-- The label that is called on a spot when time passes. -/
def Spot.called? (elapsed : Float) (spot : Spot κ ν) : Option κ :=
  spot.node.bind fun _ => spot.track.called? elapsed

namespace Stage

variable [RenderNode ν]

/-- The ids and labels that are called when time passes. -/
def called (s : Stage κ ν) (elapsed : Float) : List (String × κ) :=
  (s.engine.tick s.nodes elapsed).2.2

/-- The calls of a cue: a tick has a list of its own, every other cue has none. -/
def callsOf (s : Stage κ ν) : Cue κ ν → List (List (String × κ))
  | .tick elapsed => [s.called elapsed]
  | _ => []

/-- The calls of each tick in the course of some cues. -/
def calls (s : Stage κ ν) : List (Cue κ ν) → List (List (String × κ))
  | [] => []
  | cue :: rest => s.callsOf cue ++ (s.perform cue).calls rest

theorem calls_append (s : Stage κ ν) (cues cues' : List (Cue κ ν)) :
    s.calls (cues ++ cues') = s.calls cues ++ (s.run cues).calls cues' := by
  induction cues generalizing s with
  | nil => rfl
  | cons cue rest ih =>
      show s.callsOf cue ++ (s.perform cue).calls (rest ++ cues') = _
      rw [ih (s.perform cue), ← List.append_assoc]
      rfl

end Stage

section Functions

variable [RenderNode ν]

theorem Track.label_advance (settings : AnimationSettings) (elapsed : Float) (track : Track κ)
    (node : ν) : (track.advance settings elapsed node).2.2 = track.called? elapsed := by
  show (track.advanceTween elapsed node).2.2 = _
  cases htween : track.tween with
  | none => simp only [advanceTween_of_tween_none htween, called?, htween, Option.bind_none]
  | some tween =>
      cases harrived : (tween.later elapsed).hasArrived with
      | true =>
          rw [advanceTween_of_hasArrived htween harrived]
          simp only [called?, htween, Option.bind_some, harrived, if_true]
      | false =>
          rw [advanceTween_of_not_hasArrived htween harrived]
          simp only [called?, htween, Option.bind_some, harrived]
          rfl

namespace Stage

/-- A tick calls one label at most for each id: the one that its spot says. -/
theorem filter_called (s : Stage κ ν) (id : String) (elapsed : Float) :
    (s.called elapsed).filter (·.1 == id) = ((s.spot id).called? elapsed).toList.map (id, ·) := by
  let moved := s.engine.tracks.filterMap fun id track =>
    (s.nodes.find? id).map (s.engine.advanceTrack elapsed track)
  have hcalled : s.called elapsed =
      moved.entries.filterMap fun e => e.2.2.2.map (e.1, ·) := rfl
  have hown : (s.called elapsed).filter (·.1 == id) =
      (moved.entries.filter (·.1 == id)).filterMap fun e => e.2.2.2.map (e.1, ·) := by
    rw [hcalled, List.filter_filterMap, List.filterMap_filter]
    refine congrArg (List.filterMap · moved.entries) (funext fun e => ?_)
    cases e.2.2.2 with
    | none => simp
    | some label => cases h : e.1 == id <;> simp [Option.filter, h]
  rw [hown, Table.filter_entries, Table.find?_filterMap]
  simp only [Spot.called?, spot, Engine.track]
  cases s.nodes.find? id with
  | none => cases s.engine.tracks.find? id <;> rfl
  | some node =>
      cases s.engine.tracks.find? id with
      | none => rfl
      | some track =>
          have hlabel := track.label_advance s.engine.settings elapsed node
          simp only [Option.bind_some, Option.map_some, Option.toList_some, List.map_cons,
            List.map_nil, List.filterMap_cons, List.filterMap_nil, Engine.advanceTrack, hlabel,
            Option.getD_some]
          cases track.called? elapsed <;> rfl

theorem mem_called_iff {s : Stage κ ν} {id : String} {elapsed : Float} {label : κ} :
    (id, label) ∈ s.called elapsed ↔ (s.spot id).called? elapsed = some label := by
  have hmem : (id, label) ∈ s.called elapsed ↔
      (id, label) ∈ (s.called elapsed).filter (·.1 == id) := by simp
  rw [hmem, filter_called]
  simp

end Stage

end Functions

end Storybook
