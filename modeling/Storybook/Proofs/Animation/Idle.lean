/-
# `Storybook.Proofs.Animation.Idle` — when an engine counts as idle

An engine counts as idle if it has no tracks.  A track on which nothing runs would keep it busy, so
such tracks are swept away: by every tick, by `stopAll`, and by a `stop` that ends an animation.

| cue | the tracks |
| :-- | :-- |
| `tick`, `stopAll`, a `stop` of an animation that runs | none on which nothing runs is left |
| `tween`, `move` | one on which a tween runs |
| `start` | one on which an animation runs, *unless the animation is over at its first step* |
| anything else | stay |

The exception in the third row is the one way in which a track on which nothing runs comes about:
an animation that is to be repeated no times, or a fade that takes no time, leaves its track behind,
and the engine is not idle until the next sweep.  `Stage.isIdle_iff_swept` says so for every run.
-/
import Storybook.Proofs.Animation.Stage

namespace Storybook

variable {κ ν : Type}

/-- Nothing runs on a track if neither a tween nor an animation does. -/
theorem Engine.track_eq_empty_iff (engine : Engine κ) (id : String) :
    engine.track id = .empty ↔ engine.isTweening id = false ∧ engine.isAnimating id = false := by
  rw [isTweening, isAnimating, run?]
  constructor
  · intro h
    rw [h]
    exact ⟨rfl, rfl⟩
  · rintro ⟨htween, hrun⟩
    rw [← Track.isIdle_iff, Track.isIdle, Option.isSome_eq_false_iff.mp htween,
      Option.isSome_eq_false_iff.mp hrun]
    rfl

namespace Stage

section Definitions

variable [RenderNode ν]

/-- Whether a cue sweeps away the tracks on which nothing runs. -/
def sweeps (s : Stage κ ν) : Cue κ ν → Bool
  | .tick _ | .stopAll => true
  | .stop id => s.engine.isAnimating id
  | _ => false

/-- Whether a cue begins an animation that is over at once, and leaves a track on which nothing
runs. -/
def leavesTrack (s : Stage κ ν) : Cue κ ν → Bool
  | .start id spec => (s.engine.start s.nodes id spec).toOption.any fun (engine, _) =>
      !engine.isTweening id && !engine.isAnimating id
  | _ => false

/-- Whether there is a sweep in the course of some cues. -/
def isSwept (s : Stage κ ν) : List (Cue κ ν) → Bool
  | [] => false
  | cue :: rest => s.sweeps cue || (s.perform cue).isSwept rest

end Definitions

/-- The engine has a track on which nothing runs. -/
def HasLeftover (s : Stage κ ν) : Prop := ∃ id, s.engine.tracks.find? id = some .empty

/-- An engine is idle if nothing runs and nothing is left over. -/
theorem isIdle_iff (s : Stage κ ν) :
    s.engine.isIdle = true ↔
      (∀ id, s.engine.isTweening id = false ∧ s.engine.isAnimating id = false) ∧
        ¬s.HasLeftover := by
  rw [Engine.isIdle, Table.isEmpty_iff]
  constructor
  · intro h
    refine ⟨fun id => ?_, fun ⟨id, hleft⟩ => by cases (h id).symm.trans hleft⟩
    exact (Engine.track_eq_empty_iff _ _).mp (by rw [Engine.track, h id, Option.getD_none])
  · rintro ⟨hrest, hnone⟩ id
    cases hfind : s.engine.tracks.find? id with
    | none => rfl
    | some track =>
        have hempty : s.engine.track id = .empty := (Engine.track_eq_empty_iff _ _).mpr (hrest id)
        rw [Engine.track, hfind, Option.getD_some] at hempty
        exact absurd ⟨id, hempty ▸ hfind⟩ hnone

/-! ## One cue -/

theorem not_hasLeftover_tidy (engine : Engine κ) (nodes : Table ν) :
    ¬(⟨engine.tidy, nodes⟩ : Stage κ ν).HasLeftover := by
  rintro ⟨id, hleft⟩
  rw [Engine.tidy, Table.find?_filter] at hleft
  obtain ⟨-, hbusy⟩ := Option.filter_eq_some_iff.mp hleft
  cases hbusy

variable [RenderNode ν] {s : Stage κ ν} {cue : Cue κ ν}

/-- After a sweep nothing is left over. -/
theorem not_hasLeftover_of_sweeps (h : s.sweeps cue = true) : ¬(s.perform cue).HasLeftover := by
  cases cue with
  | tick elapsed => exact not_hasLeftover_tidy _ _
  | stopAll =>
      rintro ⟨id, hleft⟩
      cases hleft
  | stop id =>
      obtain ⟨run, hrun⟩ := Option.isSome_iff_exists.mp h
      have hrun' : (s.engine.track id).run = some run := hrun
      simp only [perform, Engine.stop, hrun']
      split <;> exact not_hasLeftover_tidy _ _
  | tween _ _ _ | move _ _ _ _ | start _ _ | put _ _ | remove _ | write _ _ _ => cases h

/-- What a cue that does not sweep does to the tracks: nothing, or it puts one in, which is left
over only where an animation is over at once. -/
inductive Lays (s : Stage κ ν) (cue : Cue κ ν) : Prop where
  | nothing (same : (s.perform cue).engine.tracks = s.engine.tracks)
      (busy : s.leavesTrack cue = false)
  | track (id : String) (track : Track κ)
      (laid : (s.perform cue).engine.tracks = s.engine.tracks.insert id track)
      (left : track = .empty ↔ s.leavesTrack cue = true)

theorem lays_tween (id : String) (request : TweenRequest) (label : Option κ)
    (hcue : (s.perform cue) = s.withEngine (s.engine.tween s.nodes id request label))
    (hbusy : s.leavesTrack cue = false) : s.Lays cue := by
  cases hnode : s.nodes.find? id with
  | none =>
      refine .nothing ?_ hbusy
      rw [hcue, Engine.tween, hnode]
      rfl
  | some node =>
      refine .track id { s.engine.track id with
        tween := some (.start s.engine.settings request label node) } ?_ ?_
      · rw [hcue, Engine.tween, hnode]
        rfl
      · constructor
        · intro hempty
          cases congrArg Track.tween hempty
        · intro hleaves
          cases hbusy.symm.trans hleaves

theorem lays_start (id : String) (spec : AnimationSpec) : s.Lays (.start id spec) := by
  cases hstart : s.engine.start s.nodes id spec with
  | error e =>
      refine .nothing ?_ ?_
      · simp only [perform, hstart]
      · rw [leavesTrack, hstart]
        rfl
  | ok result =>
      obtain ⟨engine, nodes⟩ := result
      have htrack : ∃ track, engine = s.engine.withTrack id track := by
        simp only [Engine.start] at hstart
        split at hstart
        · cases hstart
        · split at hstart
          · cases hstart
          · cases hstart
            exact ⟨_, rfl⟩
      obtain ⟨track, rfl⟩ := htrack
      refine .track id track ?_ ?_
      · simp only [perform, hstart]
        rfl
      · have hleaves : s.leavesTrack (.start id spec) = track.isIdle := by
          rw [leavesTrack, hstart]
          show (!((s.engine.withTrack id track).track id).tween.isSome &&
            !((s.engine.withTrack id track).track id).run.isSome) = track.isIdle
          rw [Engine.track_withTrack, if_pos rfl, Track.isIdle, Option.not_isSome,
            Option.not_isSome]
        rw [hleaves, Track.isIdle_iff]

theorem lays_of_not_sweeps (h : s.sweeps cue = false) : s.Lays cue := by
  cases cue with
  | tween id request label => exact lays_tween id request label rfl rfl
  | move id place options label => exact lays_tween id _ label rfl rfl
  | start id spec => exact lays_start id spec
  | stop id =>
      have hrun : (s.engine.track id).run = none :=
        Option.isNone_iff_eq_none.mp (Option.isSome_eq_false_iff.mp h)
      refine .nothing ?_ rfl
      simp only [perform, Engine.stop, hrun]
  | put _ _ | remove _ | write _ _ _ => exact .nothing rfl rfl
  | stopAll | tick _ => cases h

/-- Something is left over only by this cue, or by an earlier one if this cue does not sweep. -/
theorem hasLeftover_perform (h : (s.perform cue).HasLeftover) :
    s.leavesTrack cue = true ∨ s.HasLeftover ∧ s.sweeps cue = false := by
  have hsweeps : s.sweeps cue = false :=
    Bool.eq_false_iff.mpr fun hsweeps => not_hasLeftover_of_sweeps hsweeps h
  obtain ⟨id, hleft⟩ := h
  cases lays_of_not_sweeps hsweeps with
  | nothing same _ =>
      rw [same] at hleft
      exact .inr ⟨⟨id, hleft⟩, hsweeps⟩
  | track laidId track laid left =>
      rw [laid, Table.find?_insert] at hleft
      by_cases hid : id = laidId
      · rw [if_pos hid] at hleft
        exact .inl (left.mp (Option.some.inj hleft))
      · rw [if_neg hid] at hleft
        exact .inr ⟨⟨id, hleft⟩, hsweeps⟩

/-- An engine with a track is not idle before it is swept. -/
theorem isIdle_perform (h : s.engine.isIdle = false) (hsweeps : s.sweeps cue = false) :
    (s.perform cue).engine.isIdle = false := by
  cases lays_of_not_sweeps hsweeps with
  | nothing same _ => rwa [Engine.isIdle, same]
  | track id track laid _ => rw [Engine.isIdle, laid, Table.isEmpty_insert]

theorem isIdle_of_leavesTrack (h : s.leavesTrack cue = true) :
    (s.perform cue).engine.isIdle = false := by
  have hsweeps : s.sweeps cue = false := by
    cases cue with
    | start _ _ => rfl
    | tween _ _ _ | move _ _ _ _ | stop _ | stopAll | tick _ | put _ _ | remove _ | write _ _ _ =>
        cases h
  cases lays_of_not_sweeps hsweeps with
  | nothing _ busy => cases busy.symm.trans h
  | track id track laid _ => rw [Engine.isIdle, laid, Table.isEmpty_insert]

/-! ## A run -/

theorem run_append (s : Stage κ ν) (cues cues' : List (Cue κ ν)) :
    s.run (cues ++ cues') = (s.run cues).run cues' := List.foldl_append

theorem isIdle_run {cues : List (Cue κ ν)} {s : Stage κ ν} (h : s.engine.isIdle = false)
    (hswept : s.isSwept cues = false) : (s.run cues).engine.isIdle = false := by
  induction cues generalizing s with
  | nil => exact h
  | cons cue rest ih =>
      obtain ⟨hcue, hrest⟩ := (Bool.or_eq_false_iff).mp hswept
      exact ih (isIdle_perform h hcue) hrest

/-- What is left over after some cues was there before them, or one of them has left it; and
there was no sweep since. -/
theorem hasLeftover_run {cues : List (Cue κ ν)} {s : Stage κ ν} (h : (s.run cues).HasLeftover) :
    s.HasLeftover ∧ s.isSwept cues = false ∨
      ∃ before cue after, cues = before ++ cue :: after ∧
        (s.run before).leavesTrack cue = true ∧
        ((s.run before).perform cue).isSwept after = false := by
  induction cues generalizing s with
  | nil => exact .inl ⟨h, rfl⟩
  | cons cue rest ih =>
      rcases ih (s := s.perform cue) h with ⟨hleft, hrest⟩ | ⟨before, cue', after, rfl, hleaves⟩
      · rcases hasLeftover_perform hleft with hleaves | ⟨hleft, hcue⟩
        · exact .inr ⟨[], cue, rest, rfl, hleaves, hrest⟩
        · exact .inl ⟨hleft, Bool.or_eq_false_iff.mpr ⟨hcue, hrest⟩⟩
      · exact .inr ⟨cue :: before, cue', after, rfl, hleaves⟩

/-- At the end of any run of a new engine, the engine is idle if and only if nothing runs and
every animation that was over at its first step has been swept away since. -/
theorem isIdle_iff_swept (settings : AnimationSettings) (nodes : Table ν)
    (cues : List (Cue κ ν)) :
    let first : Stage κ ν := ⟨.new settings, nodes⟩
    (first.run cues).engine.isIdle = true ↔
      (∀ id, (first.run cues).engine.isTweening id = false ∧
        (first.run cues).engine.isAnimating id = false) ∧
      ∀ before cue after, cues = before ++ cue :: after →
        (first.run before).leavesTrack cue = true →
          ((first.run before).perform cue).isSwept after = true := by
  intro first
  rw [isIdle_iff]
  refine and_congr_right fun hrest => ⟨fun hnone before cue after hcues hleaves => ?_, ?_⟩
  · cases hswept : ((first.run before).perform cue).isSwept after with
    | true => rfl
    | false =>
        have hbusy : (first.run cues).engine.isIdle = false := by
          rw [hcues, run_append]
          exact isIdle_run (s := (first.run before).perform cue) (isIdle_of_leavesTrack hleaves)
            hswept
        cases hbusy.symm.trans ((isIdle_iff _).mpr ⟨hrest, hnone⟩)
  · intro hswept hleft
    rcases hasLeftover_run hleft with ⟨⟨id, hfirst⟩, -⟩ | ⟨before, cue, after, hcues, hleaves, hno⟩
    · cases hfirst
    · cases (hswept before cue after hcues hleaves).symm.trans hno

/-- A spin that is to be repeated no times leaves an engine on which nothing runs, but which is
not idle. -/
theorem isIdle_after_no_spin :
    let s : Stage Unit SceneNode := ⟨.new {}, Table.ofList [("hero", .atPoint ⟨0.0, 0.0⟩)]⟩
    let spun := s.perform (.start "hero" ⟨"spin", some 1000, some 0⟩)
    (∀ id, spun.engine.isTweening id = false ∧ spun.engine.isAnimating id = false) ∧
      spun.engine.isIdle = false := by
  intro s spun
  refine ⟨fun id => ?_, by decide +kernel⟩
  by_cases hid : "hero" = id
  · subst hid
    decide +kernel
  · have hother : spun.spot id = s.spot id := by
      rw [spot_start, if_neg (by simpa using hid)]
    exact (Engine.track_eq_empty_iff _ _).mp (congrArg Spot.track hother)

end Stage

end Storybook
