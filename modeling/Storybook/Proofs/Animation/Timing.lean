/-
# `Storybook.Proofs.Animation.Timing` — where nodes end up, however the time is cut

What does a node show once nothing runs on it any more?  What ran on it has left numbers behind.

| | the numbers that it leaves |
| :-- | :-- |
| a tween | the targets of its motions; of several motions of one name the last one counts |
| a fade | the opacity at its end |
| another animation | all fields of the snapshot |

None of them depends on how the time was cut into ticks.  Where the tween and the animation both
leave a number under one name, the one that ends later has its way.  A tick moves the tween first,
so that this is the tween only if it still runs after the tick in which the animation ends
(`Stage.tweenOutlasts`).  There the ticks do matter: a long one can end at once what shorter ones
end one after the other.

`Track.shows?` puts this together and is what a tick keeps; `Stage.property?_ticked` draws the
conclusion for many ticks, and `Stage.nodes_ticked_eq_iff` compares two ways of cutting the time.
-/
import Storybook.Proofs.Animation.Idle
import Storybook.Proofs.Animation.Node
import Storybook.Proofs.Animation.Track
import Storybook.Proofs.Number.Order

namespace Storybook

open RenderNode (property? setTransform write)

variable {κ ν : Type}

/-! ## What is left behind -/

/-- The number that a tween writes under a name after a part of its way. -/
def Tween.writes? (part : Float) (name : String) (tween : Tween κ) : Option Float :=
  (tween.motions.filter (·.name == name)).getLast?.map fun m =>
    m.start + (m.target - m.start) * tween.easing.apply part

/-- The number that a tween leaves under a name. -/
def Tween.leaves? (name : String) (tween : Tween κ) : Option Float := tween.writes? 1.0 name

/-- The number that an animation leaves under a name. -/
def ProceduralRun.leaves? (name : String) (run : ProceduralRun) : Option Float :=
  if run.kind.isCyclic then run.snapshot.get? name
  else if name = run.kind.driven then some (run.opacityAt 1.0) else none

namespace Track

/-- The number that a tween and an animation leave under a name, where the one or the other is the
last to end. -/
def leaves? (tweenLast : Bool) (name : String) (track : Track κ) : Option Float :=
  let moved := track.tween.bind (·.leaves? name)
  let animated := track.run.bind (·.leaves? name)
  if tweenLast then moved.or animated else animated.or moved

/-- The number that a node will show under a name when nothing runs on it any more. -/
def shows? (tweenLast : Bool) (name : String) (track : Track κ) (node : SceneNode) :
    Option Float :=
  (track.leaves? tweenLast name).or (property? name node)

/-- The tween and the animation leave the same number wherever both leave one. -/
def LeavesAlike (track : Track κ) : Prop :=
  ∀ name moved animated, track.tween.bind (·.leaves? name) = some moved →
    track.run.bind (·.leaves? name) = some animated → moved = animated

/-- A tween runs, and no animation. -/
def tweensAlone (track : Track κ) : Bool := track.tween.isSome && !track.run.isSome

end Track

/-- Of three values the second one is covered by the first. -/
theorem or_or_of_covers {α : Type} {a b : Option α} (h : b.isSome = true → a.isSome = true)
    (c : Option α) : a.or (b.or c) = a.or c := by
  cases a with
  | some _ => rfl
  | none =>
      cases b with
      | none => rfl
      | some _ => cases h rfl

/-! ## One step of a track -/

theorem progress_eq_one {elapsed duration : Float} (h : 1.0 ≤ progress elapsed duration) :
    progress elapsed duration = 1.0 := by
  simp only [progress] at h ⊢
  split
  · rfl
  · next hduration =>
    rw [if_neg hduration] at h
    split
    · next hbelow =>
      rw [if_pos hbelow] at h
      exact absurd h (Number.not_le_of_lt hbelow)
    · rfl

theorem Tween.isSome_writes? (part : Float) (name : String) (tween : Tween κ) :
    (tween.writes? part name).isSome = (tween.leaves? name).isSome := by
  rw [leaves?, writes?, writes?, Option.isSome_map, Option.isSome_map]

theorem SceneNode.property?_foldl_write (name : String) (value : Motion → Float)
    (motions : List Motion) (node : SceneNode) :
    property? name (motions.foldl (fun node m => write m.name (value m) node) node) =
      ((motions.filter (·.name == name)).getLast?.map value).or (property? name node) := by
  induction motions generalizing node with
  | nil => rfl
  | cons m rest ih =>
      rw [List.foldl_cons, ih, property?_write]
      by_cases hname : name = m.name
      · rw [if_pos hname, List.filter_cons_of_pos (by simpa using hname.symm), List.getLast?_cons]
        cases (rest.filter (·.name == name)).getLast? <;> rfl
      · rw [if_neg hname, List.filter_cons_of_neg (by simpa using Ne.symm hname)]

theorem Tween.property?_place (name : String) (tween : Tween κ) (node : SceneNode) :
    property? name (tween.place node) =
      (tween.writes? (progress tween.elapsed tween.duration) name).or (property? name node) :=
  SceneNode.property?_foldl_write name _ tween.motions node

theorem Tween.property?_place_of_hasArrived {tween : Tween κ} (h : tween.hasArrived = true)
    (name : String) (node : SceneNode) :
    property? name (tween.place node) = (tween.leaves? name).or (property? name node) := by
  rw [property?_place, progress_eq_one (of_decide_eq_true h)]
  rfl

namespace ProceduralRun

variable {run : ProceduralRun}

theorem isSome_leaves?_driven (run : ProceduralRun) :
    (run.leaves? run.kind.driven).isSome = true := by
  rw [leaves?]
  split
  · cases hget : run.snapshot.get? run.kind.driven with
    | some _ => rfl
    | none =>
        exact absurd run.kind.driven_mem_fieldNames ((Transform.get?_eq_none_iff _ _).mp hget)
  · rw [if_pos rfl]
    rfl

theorem property?_of_isOver (h : run.isOver = true) (name : String) (node : SceneNode) :
    property? name (setTransform run.snapshot node) =
      (run.leaves? name).or (property? name node) := by
  obtain ⟨hcyclic, -⟩ := (Bool.and_eq_true _ _).mp h
  rw [SceneNode.property?_setTransform, leaves?, if_pos hcyclic]

theorem property?_of_hasFaded (h : run.hasFaded = true) (settings : AnimationSettings)
    (name : String) (node : SceneNode) :
    property? name (write run.kind.driven (run.value settings) node) =
      (run.leaves? name).or (property? name node) := by
  obtain ⟨-, hprogress⟩ := (Bool.and_eq_true _ _).mp h
  have hcyclic : ¬run.kind.isCyclic = true := by simp [isCyclic_of_hasFaded h]
  rw [SceneNode.property?_write, leaves?, if_neg hcyclic, value, if_neg hcyclic,
    progress_eq_one (of_decide_eq_true hprogress)]
  split <;> rfl

end ProceduralRun

namespace Track

theorem isSome_leaves? (tweenLast : Bool) (name : String) (track : Track κ) :
    (track.leaves? tweenLast name).isSome =
      ((track.tween.bind (·.leaves? name)).isSome || (track.run.bind (·.leaves? name)).isSome) := by
  rw [leaves?]
  cases tweenLast with
  | true => exact Option.isSome_or
  | false => exact Option.isSome_or.trans (Bool.or_comm _ _)

variable {track : Track κ}

theorem leaves?_of_tween_none (h : track.tween = none) (tweenLast : Bool) (name : String) :
    track.leaves? tweenLast name = track.run.bind (·.leaves? name) := by
  rw [leaves?, h]
  cases tweenLast with
  | true => exact Option.none_or
  | false => exact Option.or_none

theorem leaves?_of_run_none (h : track.run = none) (tweenLast : Bool) (name : String) :
    track.leaves? tweenLast name = track.tween.bind (·.leaves? name) := by
  rw [leaves?, h]
  cases tweenLast with
  | true => exact Option.or_none
  | false => exact Option.none_or

theorem tweensAlone_of_tween_none (h : track.tween = none) : track.tweensAlone = false := by
  rw [tweensAlone, h]
  rfl

/-- It does not matter which one is the last to end where there is but a tween. -/
theorem leaves?_tweensAlone_or (tweenLast : Bool) (name : String) :
    track.leaves? (track.tweensAlone || tweenLast) name = track.leaves? tweenLast name := by
  cases hrun : track.run with
  | none => rw [leaves?_of_run_none hrun, leaves?_of_run_none hrun]
  | some run =>
      have halone : track.tweensAlone = false := by
        rw [tweensAlone, hrun]
        exact Bool.and_false _
      rw [halone, Bool.false_or]

variable {tweenLast : Bool}

/-- A step of the tween keeps what the node will show.  If it is the last one, the tween does not
outlast the animation. -/
theorem shows?_advanceTween (elapsed : Float) (node : SceneNode)
    (hlast : (track.advanceTween elapsed node).1.tween = none → tweenLast = false)
    (name : String) :
    (track.advanceTween elapsed node).1.shows? tweenLast name
        (track.advanceTween elapsed node).2.1 =
      track.shows? tweenLast name node := by
  cases htween : track.tween with
  | none => rw [advanceTween_of_tween_none htween]
  | some tween =>
      cases harrived : (tween.later elapsed).hasArrived with
      | true =>
          rw [advanceTween_of_hasArrived htween harrived] at hlast ⊢
          have hleaves : track.leaves? false name =
              (track.run.bind (·.leaves? name)).or (tween.leaves? name) := by
            rw [leaves?, htween]
            rfl
          rw [hlast rfl, shows?, leaves?_of_tween_none rfl,
            Tween.property?_place_of_hasArrived harrived, shows?, hleaves, Option.or_assoc]
          rfl
      | false =>
          rw [advanceTween_of_not_hasArrived htween harrived, shows?, Tween.property?_place]
          have hsame : { track with tween := some (tween.later elapsed) }.leaves? tweenLast name =
              track.leaves? tweenLast name := by
            rw [leaves?, leaves?, htween]
            rfl
          rw [hsame, shows?, or_or_of_covers]
          intro hwrites
          rw [Tween.isSome_writes?] at hwrites
          rw [isSome_leaves?, htween]
          exact Bool.or_eq_true_iff.mpr (.inl hwrites)

/-- The end of an animation keeps what the node will show, if a tween that still runs is the last
one to end. -/
theorem shows?_of_run_ended {run : ProceduralRun} (hrun : track.run = some run)
    (hlast : track.tween.isSome = true → tweenLast = true) {name : String}
    {node node' : SceneNode}
    (hshown : property? name node' = (run.leaves? name).or (property? name node)) :
    { track with run := none }.shows? tweenLast name node' = track.shows? tweenLast name node := by
  rw [shows?, leaves?_of_run_none rfl, hshown, shows?]
  cases htween : track.tween with
  | none =>
      rw [leaves?_of_tween_none htween, hrun]
      rfl
  | some tween =>
      rw [hlast (by rw [htween]; rfl), leaves?, htween, hrun]
      exact Option.or_assoc.symm

/-- A step of the animation keeps what the node will show, if it does not end the animation before
a tween that is not the last one to end. -/
theorem shows?_advanceRun (settings : AnimationSettings) (elapsed : Float) (node : SceneNode)
    (hlast : (track.advanceRun settings elapsed node).1.tweensAlone = true → tweenLast = true)
    (name : String) :
    (track.advanceRun settings elapsed node).1.shows? tweenLast name
        (track.advanceRun settings elapsed node).2 =
      track.shows? tweenLast name node := by
  refine advanceRun_cases (P := fun result => (result.1.tweensAlone = true → tweenLast = true) →
    result.1.shows? tweenLast name result.2 = track.shows? tweenLast name node) settings elapsed
    track node ?still ?ended ?faded ?goesOn hlast
  case still =>
    intro _ _
    rfl
  case ended =>
    intro run hrun hover hlast
    exact shows?_of_run_ended hrun
      (fun htween => hlast (Bool.and_eq_true_iff.mpr ⟨htween, rfl⟩))
      (ProceduralRun.property?_of_isOver hover name node)
  case faded =>
    intro run hrun hfaded hlast
    exact shows?_of_run_ended hrun
      (fun htween => hlast (Bool.and_eq_true_iff.mpr ⟨htween, rfl⟩))
      (ProceduralRun.property?_of_hasFaded hfaded settings name node)
  case goesOn =>
    intro run hrun _
    have hsame : { track with run := some (run.later elapsed) }.leaves? tweenLast name =
        track.leaves? tweenLast name := by
      rw [leaves?, leaves?, hrun]
      rfl
    rw [shows?, hsame, shows?, SceneNode.property?_write]
    by_cases hname : name = run.kind.driven
    · -- whatever is written, the animation will leave another number in its place
      have hleaves : (track.leaves? tweenLast name).isSome = true := by
        rw [isSome_leaves?, hrun, hname]
        exact Bool.or_eq_true_iff.mpr (.inr run.isSome_leaves?_driven)
      rw [Option.or_of_isSome hleaves, Option.or_of_isSome hleaves]
    · rw [if_neg hname]

/-- Time keeps what a node will show, if it is known which one is the last to end. -/
theorem shows?_advance (settings : AnimationSettings) (elapsed : Float) (node : SceneNode)
    (hno : (track.advance settings elapsed node).1.tween = none → tweenLast = false)
    (hyes : (track.advance settings elapsed node).1.tweensAlone = true → tweenLast = true)
    (name : String) :
    (track.advance settings elapsed node).1.shows? tweenLast name
        (track.advance settings elapsed node).2.1 =
      track.shows? tweenLast name node := by
  have htween : (track.advance settings elapsed node).1.tween =
      (track.advanceTween elapsed node).1.tween := tween_advanceRun settings elapsed _ _
  have hmoved := shows?_advanceTween elapsed node (fun hnone => hno (htween.trans hnone)) name
  exact (shows?_advanceRun settings elapsed _ hyes name).trans hmoved

/-- The same is shown in the end, whichever is the last to end, if both leave the same numbers. -/
theorem shows?_congr_iff (tweenLast tweenLast' : Bool) (node : SceneNode) :
    (∀ name, track.shows? tweenLast name node = track.shows? tweenLast' name node) ↔
      tweenLast = tweenLast' ∨ track.LeavesAlike := by
  constructor
  · intro h
    by_cases hlast : tweenLast = tweenLast'
    · exact .inl hlast
    · refine .inr fun name moved animated hmoved hanimated => ?_
      have hname := h name
      rw [shows?, shows?, leaves?, leaves?, hmoved, hanimated] at hname
      cases tweenLast <;> cases tweenLast'
      · exact absurd rfl hlast
      · exact (Option.some.inj hname).symm
      · exact Option.some.inj hname
      · exact absurd rfl hlast
  · rintro (rfl | halike) name
    · rfl
    · have hsame : track.leaves? true name = track.leaves? false name := by
        rw [leaves?, leaves?]
        cases hmoved : track.tween.bind (·.leaves? name) with
        | none => simp
        | some moved =>
            cases hanimated : track.run.bind (·.leaves? name) with
            | none => rfl
            | some animated => exact congrArg some (halike name moved animated hmoved hanimated)
      cases tweenLast <;> cases tweenLast' <;> simp only [shows?, hsame]

/-- What no writing of a number and no replacing of the transform changes, time does not change. -/
theorem advance_induction {P : SceneNode → Prop}
    (hwrite : ∀ name value node, P node → P (write name value node))
    (htransform : ∀ t node, P node → P (setTransform t node)) (settings : AnimationSettings)
    (elapsed : Float) {node : SceneNode} (h : P node) :
    P (track.advance settings elapsed node).2.1 := by
  have hmoved : P (track.advanceTween elapsed node).2.1 := by
    cases htween : track.tween with
    | none => rwa [advanceTween_of_tween_none htween]
    | some tween =>
        have hplace : P ((tween.later elapsed).place node) :=
          Tween.place_induction (fun m _ value node hnode => hwrite m.name value node hnode) h
        cases harrived : (tween.later elapsed).hasArrived with
        | true => rwa [advanceTween_of_hasArrived htween harrived]
        | false => rwa [advanceTween_of_not_hasArrived htween harrived]
  exact advanceRun_cases (P := fun result => P result.2) settings elapsed _ _ (fun _ => hmoved)
    (fun _ _ _ => htransform _ _ hmoved) (fun _ _ _ => hwrite _ _ _ hmoved)
    (fun _ _ => hwrite _ _ _ hmoved)

end Track

/-! ## Nodes that show the same -/

namespace SceneNode

/-- The extra properties of a node that a field of the transform hides. -/
def hidden? (name : String) (node : SceneNode) : Option Float :=
  if name ∈ Transform.fieldNames then node.extras.find? name else none

theorem hidden?_write (name other : String) (value : Float) (node : SceneNode) :
    (write name value node).hidden? other = node.hidden? other := by
  rw [hidden?, hidden?]
  by_cases hfield : other ∈ Transform.fieldNames
  · rw [if_pos hfield, if_pos hfield]
    cases hset : node.transform.set? name value with
    | some t => simp [write, RenderNode.setProperty?, hset]
    | none =>
        have hname : name ∉ Transform.fieldNames := (Transform.set?_eq_none_iff _ _ _).mp hset
        have hother : other ≠ name := fun heq => hname (heq ▸ hfield)
        simp [write, RenderNode.setProperty?, hset, Table.find?_insert, hother]
  · rw [if_neg hfield, if_neg hfield]

/-- Nodes are equal if they show the same, and hide the same. -/
theorem eq_of_property?_eq {node node' : SceneNode}
    (hshown : ∀ name, property? name node = property? name node')
    (hhidden : ∀ name, node.hidden? name = node'.hidden? name) : node = node' := by
  have htransform : node.transform = node'.transform := by
    have hx : node.transform.x = node'.transform.x := Option.some.inj (hshown "x")
    have hy : node.transform.y = node'.transform.y := Option.some.inj (hshown "y")
    have hscale : node.transform.scale = node'.transform.scale :=
      Option.some.inj (hshown "scale")
    have hopacity : node.transform.opacity = node'.transform.opacity :=
      Option.some.inj (hshown "opacity")
    have hrotation : node.transform.rotation = node'.transform.rotation :=
      Option.some.inj (hshown "rotation")
    cases h : node.transform
    cases h' : node'.transform
    simp_all
  have hextras : node.extras = node'.extras := by
    refine Table.ext_find? fun name => ?_
    by_cases hfield : name ∈ Transform.fieldNames
    · have hname := hhidden name
      rwa [hidden?, hidden?, if_pos hfield, if_pos hfield] at hname
    · have hname := hshown name
      rwa [property?_eq, property?_eq, (Transform.get?_eq_none_iff _ _).mpr hfield,
        (Transform.get?_eq_none_iff _ _).mpr hfield, Option.none_or, Option.none_or] at hname
  cases node
  cases node'
  cases htransform
  cases hextras
  rfl

end SceneNode

/-! ## Many ticks -/

namespace Stage

section Ticks

variable [RenderNode ν]

/-- The stage after ticks of some lengths. -/
def ticked (s : Stage κ ν) (times : List Float) : Stage κ ν := s.run (times.map .tick)

/-- Whether the tween of an agent runs without an animation at some time in the course of ticks of
some lengths: it still runs when the animation has ended, or there was none. -/
def tweenOutlasts (s : Stage κ ν) (id : String) : List Float → Bool
  | [] => (s.engine.track id).tweensAlone
  | elapsed :: rest =>
    (s.engine.track id).tweensAlone || (s.perform (.tick elapsed)).tweenOutlasts id rest

theorem tweenOutlasts_of_tweensAlone {s : Stage κ ν} {id : String}
    (h : (s.engine.track id).tweensAlone = true) (times : List Float) :
    s.tweenOutlasts id times = true := by
  cases times with
  | nil => exact h
  | cons elapsed rest => exact Bool.or_eq_true_iff.mpr (.inl h)

theorem tweenOutlasts_of_tween_none {s : Stage κ ν} {id : String}
    (h : (s.engine.track id).tween = none) (times : List Float) :
    s.tweenOutlasts id times = false := by
  induction times generalizing s with
  | nil => exact Track.tweensAlone_of_tween_none h
  | cons elapsed rest ih =>
      have hnext : ((s.perform (.tick elapsed)).engine.track id).tween = none := by
        show ((s.engine.tick s.nodes elapsed).1.track id).tween = none
        rw [Engine.tick_track]
        cases s.nodes.find? id with
        | none => rfl
        | some node => exact (Track.tween_advance _ _ _ _).trans (by rw [h, Option.bind_none])
      exact Bool.or_eq_false_iff.mpr ⟨Track.tweensAlone_of_tween_none h, ih hnext⟩

theorem find?_ticked_none {s : Stage κ ν} {id : String} (h : s.nodes.find? id = none)
    (times : List Float) : (s.ticked times).nodes.find? id = none := by
  induction times generalizing s with
  | nil => exact h
  | cons elapsed rest ih =>
      refine ih (s := s.perform (.tick elapsed)) ?_
      show (s.engine.tick s.nodes elapsed).2.1.find? id = none
      rw [Engine.tick_node, h, Option.map_none]

end Ticks

/-- What a node shows after ticks that end everything that runs on it. -/
theorem property?_ticked (times : List Float) {s : Stage κ SceneNode} {id : String}
    {node : SceneNode} (hnode : s.nodes.find? id = some node)
    (hrest : (s.ticked times).engine.track id = .empty) :
    ∃ there, (s.ticked times).nodes.find? id = some there ∧
      (∀ name, property? name there =
        (s.engine.track id).shows? (s.tweenOutlasts id times) name node) ∧
      ∀ name, there.hidden? name = node.hidden? name := by
  induction times generalizing s node with
  | nil =>
      refine ⟨node, hnode, fun name => ?_, fun _ => rfl⟩
      have hempty : s.engine.track id = .empty := hrest
      rw [Track.shows?, hempty, Track.leaves?_of_tween_none rfl]
      exact Option.none_or.symm
  | cons elapsed rest ih =>
      have htrack : (s.perform (.tick elapsed)).engine.track id =
          ((s.engine.track id).advance s.engine.settings elapsed node).1 := by
        show (s.engine.tick s.nodes elapsed).1.track id = _
        rw [Engine.tick_track, hnode]
      have hmoved : (s.perform (.tick elapsed)).nodes.find? id =
          some ((s.engine.track id).advance s.engine.settings elapsed node).2.1 := by
        show (s.engine.tick s.nodes elapsed).2.1.find? id = _
        rw [Engine.tick_node, hnode, Option.map_some]
      obtain ⟨there, hthere, hshown, hhidden⟩ := ih hmoved hrest
      refine ⟨there, hthere, fun name => ?_, fun name => (hhidden name).trans ?_⟩
      · rw [hshown, htrack, Track.shows?_advance]
        · rw [Track.shows?, Track.shows?, tweenOutlasts, Track.leaves?_tweensAlone_or]
        · intro hnone
          exact tweenOutlasts_of_tween_none (htrack ▸ hnone) rest
        · intro halone
          exact tweenOutlasts_of_tweensAlone (htrack ▸ halone) rest
      · exact Track.advance_induction (P := fun other => other.hidden? name = node.hidden? name)
          (fun other value node' h => (SceneNode.hidden?_write other name value node').trans h)
          (fun _ _ h => h) s.engine.settings elapsed rfl

/-- Two ways of cutting the time into ticks, after each of which nothing runs, take the nodes to the
same end if and only if, for every node, they agree on whether its tween outlasts its animation, or
the tween and the animation leave the same numbers. -/
theorem nodes_ticked_eq_iff (s : Stage κ SceneNode) (times times' : List Float)
    (hrest : ∀ id, (s.ticked times).engine.isTweening id = false ∧
      (s.ticked times).engine.isAnimating id = false)
    (hrest' : ∀ id, (s.ticked times').engine.isTweening id = false ∧
      (s.ticked times').engine.isAnimating id = false) :
    (s.ticked times).nodes = (s.ticked times').nodes ↔
      ∀ id, s.nodes.contains id = true →
        s.tweenOutlasts id times = s.tweenOutlasts id times' ∨
          (s.engine.track id).LeavesAlike := by
  constructor
  · intro heq id hhere
    obtain ⟨node, hnode⟩ := Option.isSome_iff_exists.mp hhere
    obtain ⟨there, hthere, hshown, -⟩ := property?_ticked times hnode
      ((Engine.track_eq_empty_iff _ _).mpr (hrest id))
    obtain ⟨there', hthere', hshown', -⟩ := property?_ticked times' hnode
      ((Engine.track_eq_empty_iff _ _).mpr (hrest' id))
    have hsame : there = there' := by
      rw [heq, hthere'] at hthere
      exact (Option.some.inj hthere).symm
    refine (Track.shows?_congr_iff _ _ node).mp fun name => ?_
    rw [← hshown, ← hshown', hsame]
  · intro h
    refine Table.ext_find? fun id => ?_
    cases hnode : s.nodes.find? id with
    | none => rw [find?_ticked_none hnode, find?_ticked_none hnode]
    | some node =>
        obtain ⟨there, hthere, hshown, hhidden⟩ := property?_ticked times hnode
          ((Engine.track_eq_empty_iff _ _).mpr (hrest id))
        obtain ⟨there', hthere', hshown', hhidden'⟩ := property?_ticked times' hnode
          ((Engine.track_eq_empty_iff _ _).mpr (hrest' id))
        have hhere : s.nodes.contains id = true := by
          rw [Table.contains, hnode]
          rfl
        have hsame : there = there' := by
          refine SceneNode.eq_of_property?_eq (fun name => ?_) (fun name => ?_)
          · rw [hshown, hshown']
            exact (Track.shows?_congr_iff _ _ node).mpr (h id hhere) name
          · rw [hhidden, hhidden']
        rw [hthere, hthere', hsame]

/-- An agent that spins for half a second and goes to the right for a whole one. -/
def spinAndMove : Stage Unit SceneNode :=
  Stage.run ⟨.new {}, Table.ofList [("hero", .atPoint ⟨0.0, 0.0⟩)]⟩
    [.start "hero" ⟨"spin", some 500, some 1⟩,
      .move "hero" ⟨100.0, 0.0⟩ ⟨some 1000, none⟩ none]

/-- Ticks of whatever length take the agent to the same place, as long as one of them ends the spin
before the movement. -/
theorem nodes_ticked_spin_first :
    (spinAndMove.ticked [600.0, 400.0]).nodes =
      (spinAndMove.ticked [250.0, 250.0, 499.0, 1.0]).nodes := by
  have hrest := (isIdle_iff (spinAndMove.ticked [600.0, 400.0])).mp (by decide +kernel)
  have hrest' := (isIdle_iff (spinAndMove.ticked [250.0, 250.0, 499.0, 1.0])).mp
    (by decide +kernel)
  have hnames : spinAndMove.nodes.names = ["hero"] := by decide +kernel
  refine (nodes_ticked_eq_iff _ _ _ hrest.1 hrest'.1).mpr fun id hhere => .inl ?_
  have hid : id ∈ spinAndMove.nodes.names := (Table.mem_names_iff _ _).mpr hhere
  rw [hnames, List.mem_singleton] at hid
  subst hid
  decide +kernel

/-- One tick that ends the spin and the movement gives the node back as it was before the spin; two
ticks, of which the first one ends the spin, leave it on the right. -/
theorem nodes_ticked_at_once :
    let shown (times : List Float) :=
      ((spinAndMove.ticked times).nodes.find? "hero").bind (property? "x")
    (∀ id, (spinAndMove.ticked [1000.0]).engine.isTweening id = false ∧
        (spinAndMove.ticked [1000.0]).engine.isAnimating id = false) ∧
      (∀ id, (spinAndMove.ticked [500.0, 500.0]).engine.isTweening id = false ∧
        (spinAndMove.ticked [500.0, 500.0]).engine.isAnimating id = false) ∧
      shown [1000.0] = some 0.0 ∧ shown [500.0, 500.0] = some 100.0 ∧
      (spinAndMove.ticked [1000.0]).nodes ≠ (spinAndMove.ticked [500.0, 500.0]).nodes := by
  intro shown
  have hrest := (isIdle_iff (spinAndMove.ticked [1000.0])).mp (by decide +kernel)
  have hrest' := (isIdle_iff (spinAndMove.ticked [500.0, 500.0])).mp (by decide +kernel)
  have hcoarse : shown [1000.0] = some 0.0 := by decide +kernel
  have hfine : shown [500.0, 500.0] = some 100.0 := by decide +kernel
  refine ⟨hrest.1, hrest'.1, hcoarse, hfine, fun heq => ?_⟩
  have hsame : shown [1000.0] = shown [500.0, 500.0] :=
    congrArg (fun nodes => (nodes.find? "hero").bind (property? "x")) heq
  rw [hcoarse, hfine] at hsame
  revert hsame
  decide

end Stage

end Storybook
