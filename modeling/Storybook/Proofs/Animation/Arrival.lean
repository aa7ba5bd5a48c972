/-
# `Storybook.Proofs.Animation.Arrival` — a tween reports its arrival once

A tween that has begun is the current one of its agent until something ends it:

| | |
| :-- | :-- |
| it is *cancelled* | another tween of its agent begins, all is stopped, or no node is there |
| it *arrives* | a tick brings the time that has passed since it began up to its duration |

Until then it *waits* (`Stage.waits`).  The label is on the track of the agent exactly as long as
the tween waits: nothing but the cue that began it puts the label anywhere (`awaits_perform`), so a
tween that has been ended one way or the other is silent ever after (`Silent.calls`).
`Stage.calls_of_tween` says what becomes of a tween in a whole run.
-/
import Storybook.Proofs.Animation.Calls

namespace Storybook

variable {κ ν : Type}

/-! ## Labels on the tracks -/

/-- The label of the tween that a cue begins. -/
def Cue.label? : Cue κ ν → Option κ
  | .tween _ _ label | .move _ _ _ label => label
  | _ => none

/-- The agent, the request and the label of the tween that a cue begins. -/
def Cue.request? (settings : AnimationSettings) :
    Cue κ ν → Option (String × TweenRequest × Option κ)
  | .tween id request label => some (id, request, label)
  | .move id place options label => some (id, .toPlace settings place options, label)
  | _ => none

/-- A tween with a label is under way. -/
def Spot.Awaits (label : κ) (spot : Spot κ ν) : Prop :=
  ∃ tween, spot.track.tween = some tween ∧ tween.label = some label

/-- A tween with a label and a duration is under way, and has been for some time. -/
def Spot.Carries (label : κ) (duration time : Float) (spot : Spot κ ν) : Prop :=
  ∃ tween, spot.track.tween = some tween ∧ tween.label = some label ∧
    tween.duration = duration ∧ tween.elapsed = time

/-- The time of a tween after a cue. -/
def Cue.pass (time : Float) : Cue κ ν → Float
  | .tick elapsed => time + forward elapsed
  | _ => time

/-- Whether a cue lets so much time pass that a tween of that time comes to its duration. -/
def Cue.fills (duration time : Float) : Cue κ ν → Bool
  | .tick elapsed => decide (1.0 ≤ progress (time + forward elapsed) duration)
  | _ => false

/-- Whether a cue that concerns a spot ends its tween other than by its arrival. -/
def Spot.cancels (spot : Spot κ ν) : Cue κ ν → Bool
  | .tween _ _ _ | .move _ _ _ _ => spot.node.isSome
  | .stopAll => true
  | .tick _ => spot.node.isNone
  | .start _ _ | .stop _ | .put _ _ | .remove _ | .write _ _ _ => false

namespace Spot

variable {spot : Spot κ ν} {label : κ}

/-- A label that is called is under way. -/
theorem awaits_of_called {elapsed : Float} (h : spot.called? elapsed = some label) :
    spot.Awaits label := by
  obtain ⟨node, -, hcalled⟩ := Option.bind_eq_some_iff.mp h
  obtain ⟨tween, htween, harrived⟩ := Option.bind_eq_some_iff.mp hcalled
  split at harrived
  · exact ⟨tween, htween, harrived⟩
  · cases harrived

/-- The label of a tween that waits is called when its time is up. -/
theorem Carries.called? {duration time : Float} (h : spot.Carries label duration time)
    (elapsed : Float) :
    spot.called? elapsed = some label ↔
      spot.node.isSome = true ∧ 1.0 ≤ progress (time + forward elapsed) duration := by
  obtain ⟨tween, htween, hlabel, rfl, rfl⟩ := h
  cases hnode : spot.node with
  | none => simp [Spot.called?, hnode]
  | some node =>
      have harrived : (tween.later elapsed).hasArrived = true ↔
          1.0 ≤ progress (tween.elapsed + forward elapsed) tween.duration := decide_eq_true_iff
      simp [Spot.called?, hnode, Track.called?, htween, hlabel, harrived]

end Spot

section Labels

variable [RenderNode ν]

namespace Spot

variable (settings : AnimationSettings) {spot : Spot κ ν} {label : κ}

/-- The tween of a spot after a cue. -/
theorem tween_obey (spot : Spot κ ν) (cue : Cue κ ν) :
    (spot.obey settings cue).track.tween =
      match cue with
      | .tween _ request label =>
        (spot.node.map (Tween.start settings request label)).or spot.track.tween
      | .move _ place options label =>
        (spot.node.map (Tween.start settings (.toPlace settings place options) label)).or
          spot.track.tween
      | .stopAll => none
      | .tick elapsed => spot.node.bind fun _ => spot.track.tween.bind fun tween =>
          if (tween.later elapsed).hasArrived then none else some (tween.later elapsed)
      | _ => spot.track.tween := by
  cases cue with
  | tween id request label => cases hnode : spot.node <;> simp [obey, Spot.tween, hnode]
  | move id place options label => cases hnode : spot.node <;> simp [obey, Spot.tween, hnode]
  | start id spec =>
      cases hkind : AnimationKind.ofName? spec.kind with
      | none => simp [obey, Spot.start, hkind]
      | some kind =>
          cases hnode : spot.node with
          | none => simp [obey, Spot.start, hkind, hnode]
          | some node =>
              simp only [obey, Spot.start, hkind, hnode]
              exact Track.tween_advanceRun settings 0.0 _ _
  | tick elapsed =>
      cases hnode : spot.node with
      | none => simp [obey, Spot.tick, hnode, Track.empty]
      | some node =>
          simp only [obey, Spot.tick, hnode, Option.bind_some]
          exact spot.track.tween_advance settings elapsed node
  | stop id => rfl
  | stopAll => rfl
  | put id node => rfl
  | remove id => rfl
  | write id name value => rfl

/-- Nothing but the cue that begins a tween puts its label on a spot. -/
theorem awaits_of_obey {cue : Cue κ ν} (hcue : cue.label? ≠ some label)
    (h : (spot.obey settings cue).Awaits label) : spot.Awaits label := by
  obtain ⟨tween, htween, hlabel⟩ := h
  rw [tween_obey] at htween
  -- a tween that the cue begins has the label of the cue
  have hbegun : ∀ {request : TweenRequest} {other : Option κ}, other ≠ some label →
      (spot.node.map (Tween.start settings request other)).or spot.track.tween = some tween →
        spot.Awaits label := by
    intro request other hother hor
    cases hnode : spot.node with
    | none =>
        rw [hnode, Option.map_none, Option.none_or] at hor
        exact ⟨tween, hor, hlabel⟩
    | some node =>
        rw [hnode, Option.map_some, Option.some_or] at hor
        cases hor
        exact absurd hlabel hother
  cases cue with
  | tween id request other => exact hbegun hcue htween
  | move id place options other => exact hbegun hcue htween
  | tick elapsed =>
      obtain ⟨node, -, htick⟩ := Option.bind_eq_some_iff.mp htween
      obtain ⟨before, hbefore, hlater⟩ := Option.bind_eq_some_iff.mp htick
      split at hlater
      · cases hlater
      · cases hlater
        exact ⟨before, hbefore, hlabel⟩
  | stopAll => cases htween
  | start id spec => exact ⟨tween, htween, hlabel⟩
  | stop id => exact ⟨tween, htween, hlabel⟩
  | put id node => exact ⟨tween, htween, hlabel⟩
  | remove id => exact ⟨tween, htween, hlabel⟩
  | write id name value => exact ⟨tween, htween, hlabel⟩

/-- A tween that is called is gone. -/
theorem not_awaits_of_called {elapsed : Float} (h : spot.called? elapsed = some label)
    (other : κ) : ¬(spot.obey settings (.tick elapsed)).Awaits other := by
  rintro ⟨tween, htween, -⟩
  obtain ⟨node, hnode, hcalled⟩ := Option.bind_eq_some_iff.mp h
  obtain ⟨before, hbefore, harrived⟩ := Option.bind_eq_some_iff.mp hcalled
  simp only [tween_obey, hnode, hbefore, Option.bind_some] at htween
  split at htween
  · cases htween
  · next hgoing =>
      rw [if_neg hgoing] at harrived
      cases harrived

/-- The cue that cancels a tween takes its label away. -/
theorem not_awaits_of_cancels {cue : Cue κ ν} (hcue : cue.label? ≠ some label)
    (h : spot.cancels cue = true) : ¬(spot.obey settings cue).Awaits label := by
  rintro ⟨tween, htween, hlabel⟩
  have hreplaced : ∀ {request : TweenRequest} {other : Option κ}, other ≠ some label →
      spot.node.isSome = true →
        (spot.node.map (Tween.start settings request other)).or spot.track.tween ≠ some tween := by
    intro request other hother hnode hor
    obtain ⟨node, hnode⟩ := Option.isSome_iff_exists.mp hnode
    rw [hnode, Option.map_some, Option.some_or] at hor
    cases hor
    exact hother hlabel
  rw [tween_obey] at htween
  cases cue with
  | tween id request own => exact hreplaced hcue h htween
  | move id place options own => exact hreplaced hcue h htween
  | stopAll => cases htween
  | tick elapsed =>
      have hnode : spot.node = none := Option.isNone_iff_eq_none.mp h
      simp only [hnode, Option.bind_none] at htween
      cases htween
  | start _ _ | stop _ | put _ _ | remove _ | write _ _ _ => cases h

/-- A tween that no cue ends waits on. -/
theorem Carries.obey {duration time : Float} (h : spot.Carries label duration time)
    {cue : Cue κ ν} (hcancels : spot.cancels cue = false)
    (hfills : cue.fills duration time = false) :
    (spot.obey settings cue).Carries label duration (cue.pass time) := by
  obtain ⟨tween, htween, hlabel, rfl, rfl⟩ := h
  -- without a node no other tween can begin
  have hkept : ∀ {request : TweenRequest} {other : Option κ}, spot.node.isSome = false →
      (spot.node.map (Tween.start settings request other)).or spot.track.tween = some tween := by
    intro request other hnode
    rw [Option.isSome_eq_false_iff.mp hnode |> Option.isNone_iff_eq_none.mp, Option.map_none,
      Option.none_or, htween]
  rw [Carries, tween_obey]
  cases cue with
  | tween id request own => exact ⟨tween, hkept hcancels, hlabel, rfl, rfl⟩
  | move id place options own => exact ⟨tween, hkept hcancels, hlabel, rfl, rfl⟩
  | stopAll => cases hcancels
  | tick elapsed =>
      have hnode : spot.node.isSome = true := by simpa [cancels] using hcancels
      obtain ⟨node, hnode⟩ := Option.isSome_iff_exists.mp hnode
      have hgoing : (tween.later elapsed).hasArrived = false := hfills
      refine ⟨tween.later elapsed, ?_, hlabel, rfl, rfl⟩
      simp only [hnode, htween, Option.bind_some, hgoing]
      rfl
  | start _ _ | stop _ | put _ _ | remove _ | write _ _ _ => exact ⟨tween, htween, hlabel, rfl, rfl⟩

end Spot

end Labels

/-! ## A run -/

namespace Stage

section Definitions

/-- Whether a cue ends the tween of an agent other than by its arrival. -/
def cancels (s : Stage κ ν) (id : String) (cue : Cue κ ν) : Bool :=
  cue.concerns id && (s.spot id).cancels cue

/-- No tween with a label is under way. -/
def Silent (label : κ) (s : Stage κ ν) : Prop := ∀ id, ¬(s.spot id).Awaits label

/-- A label is on the track of one agent at most. -/
def Own (label : κ) (id : String) (s : Stage κ ν) : Prop :=
  ∀ other, (s.spot other).Awaits label → other = id

theorem Silent.own {label : κ} {s : Stage κ ν} (h : s.Silent label) (id : String) :
    s.Own label id :=
  fun other hother => absurd hother (h other)

variable [RenderNode ν]

/-- Whether a tween of an agent that has been under way for some time still is after some cues:
none of them has cancelled it, and none has brought it to its duration. -/
def waits (s : Stage κ ν) (id : String) (duration time : Float) : List (Cue κ ν) → Bool
  | [] => true
  | cue :: rest =>
    !s.cancels id cue && !cue.fills duration time &&
      (s.perform cue).waits id duration (cue.pass time) rest

end Definitions

variable [RenderNode ν] {id : String} {label : κ} {duration : Float}

/-! ### One cue -/

section Cues

variable {s : Stage κ ν} {cue : Cue κ ν} {time : Float}

theorem awaits_perform (hcue : cue.label? ≠ some label)
    (h : ((s.perform cue).spot id).Awaits label) : (s.spot id).Awaits label := by
  rw [spot_perform] at h
  cases hc : cue.concerns id with
  | true =>
      rw [hc, if_pos rfl] at h
      exact Spot.awaits_of_obey s.engine.settings hcue h
  | false =>
      rw [hc, if_neg (by decide)] at h
      exact h

theorem Silent.perform (h : s.Silent label) (hcue : cue.label? ≠ some label) :
    (s.perform cue).Silent label :=
  fun id hafter => h id (awaits_perform hcue hafter)

theorem Own.perform (h : s.Own label id) (hcue : cue.label? ≠ some label) :
    (s.perform cue).Own label id :=
  fun other hafter => h other (awaits_perform hcue hafter)

theorem not_awaits_perform_of_cancels (hcue : cue.label? ≠ some label)
    (h : s.cancels id cue = true) : ¬((s.perform cue).spot id).Awaits label := by
  obtain ⟨hconcerns, hcancels⟩ := (Bool.and_eq_true _ _).mp h
  rw [spot_perform, hconcerns, if_pos rfl]
  exact Spot.not_awaits_of_cancels s.engine.settings hcue hcancels

theorem carries_perform (h : (s.spot id).Carries label duration time)
    (hcancels : s.cancels id cue = false) (hfills : cue.fills duration time = false) :
    ((s.perform cue).spot id).Carries label duration (cue.pass time) := by
  rw [spot_perform]
  cases hc : cue.concerns id with
  | true =>
      rw [cancels, hc, Bool.true_and] at hcancels
      rw [if_pos rfl]
      exact h.obey s.engine.settings hcancels hfills
  | false =>
      rw [if_neg (by decide)]
      cases cue with
      | tick elapsed | stopAll => cases hc
      | tween _ _ _ | move _ _ _ _ | start _ _ | stop _ | put _ _ | remove _ | write _ _ _ =>
          exact h

/-- A tick that brings a tween to its duration takes its label away, also where it calls it. -/
theorem not_awaits_perform_of_fills (h : (s.spot id).Carries label duration time)
    (hcue : cue.label? ≠ some label) (hfills : cue.fills duration time = true) :
    ¬((s.perform cue).spot id).Awaits label := by
  cases cue with
  | tick elapsed =>
      cases hnode : (s.spot id).node.isSome with
      | true =>
          have hcalled : (s.spot id).called? elapsed = some label :=
            (h.called? elapsed).mpr ⟨hnode, of_decide_eq_true hfills⟩
          rw [spot_perform, Cue.concerns, if_pos rfl]
          exact Spot.not_awaits_of_called s.engine.settings hcalled label
      | false =>
          refine not_awaits_perform_of_cancels hcue ?_
          exact (Bool.true_and _).trans (by simpa [Spot.cancels] using hnode)
  | tween _ _ _ | move _ _ _ _ | start _ _ | stop _ | stopAll | put _ _ | remove _
  | write _ _ _ => cases hfills

/-- What is called with the label is called for the agent, and only as its spot says. -/
theorem Own.eq_of_mem_callsOf (h : s.Own label id) {call : String × κ}
    (hcall : call ∈ (s.callsOf cue).flatten) (hlabel : call.2 = label) :
    call = (id, label) ∧ ∃ elapsed, cue = .tick elapsed ∧
      (s.spot id).called? elapsed = some label := by
  obtain ⟨other, own⟩ := call
  cases hlabel
  cases cue with
  | tick elapsed =>
      rw [callsOf, List.flatten_singleton] at hcall
      have hcalled := mem_called_iff.mp hcall
      have hid : other = id := h other (Spot.awaits_of_called hcalled)
      rw [hid] at hcalled ⊢
      exact ⟨rfl, elapsed, rfl, hcalled⟩
  | tween _ _ _ | move _ _ _ _ | start _ _ | stop _ | stopAll | put _ _ | remove _
  | write _ _ _ => cases hcall

/-- What is not under way is not called. -/
theorem Silent.callsOf (h : s.Silent label) (cue : Cue κ ν) :
    ∀ call ∈ (s.callsOf cue).flatten, call.2 ≠ label := by
  intro call hcall hlabel
  obtain ⟨-, elapsed, -, hcalled⟩ := (h.own call.1).eq_of_mem_callsOf hcall hlabel
  exact h call.1 (Spot.awaits_of_called hcalled)

/-- As long as a tween waits, it is not called, and a cue that cancels it does not call it. -/
theorem Own.callsOf_of_carries (h : s.Own label id)
    (hcarries : (s.spot id).Carries label duration time)
    (hcue : s.cancels id cue = true ∨ cue.fills duration time = false) :
    ∀ call ∈ (s.callsOf cue).flatten, call.2 ≠ label := by
  intro call hcall hlabel
  obtain ⟨-, elapsed, rfl, hcalled⟩ := h.eq_of_mem_callsOf hcall hlabel
  obtain ⟨hnode, hfills⟩ := (hcarries.called? elapsed).mp hcalled
  rcases hcue with hcancels | hshort
  · have hgone : (s.spot id).node.isNone = true := hcancels
    rw [Option.isNone_iff_eq_none.mp hgone] at hnode
    cases hnode
  · exact absurd hfills (of_decide_eq_false hshort)

/-- A label of one agent is called by a cue once at most, and is then gone. -/
theorem Own.filter_callsOf [DecidableEq κ] (h : s.Own label id) (hcue : cue.label? ≠ some label) :
    (s.callsOf cue).flatten.filter (·.2 = label) = [] ∨
      (s.callsOf cue).flatten.filter (·.2 = label) = [(id, label)] ∧
        (s.perform cue).Silent label := by
  by_cases hcalled : ∃ elapsed, cue = .tick elapsed ∧ (s.spot id).called? elapsed = some label
  · obtain ⟨elapsed, rfl, hcalled⟩ := hcalled
    refine .inr ⟨?_, fun other hafter => ?_⟩
    · -- the calls with the label are among those for the agent
      have hwithin : (s.callsOf (.tick elapsed)).flatten.filter (·.2 = label) =
          ((s.called elapsed).filter (·.1 == id)).filter (·.2 = label) := by
        rw [callsOf, List.flatten_singleton, List.filter_filter]
        refine List.filter_congr fun call hcall => ?_
        by_cases hlabel : call.2 = label
        · have hmem : call ∈ (s.callsOf (.tick elapsed)).flatten := by
            rwa [callsOf, List.flatten_singleton]
          obtain ⟨rfl, -⟩ := h.eq_of_mem_callsOf hmem hlabel
          simp
        · simp [hlabel]
      rw [hwithin, filter_called, hcalled]
      simp
    · obtain rfl := h other (awaits_perform hcue hafter)
      rw [spot_perform, Cue.concerns, if_pos rfl] at hafter
      exact Spot.not_awaits_of_called s.engine.settings hcalled label hafter
  · refine .inl (List.filter_eq_nil_iff.mpr fun call hcall hlabel => ?_)
    obtain ⟨-, hcalls⟩ := h.eq_of_mem_callsOf hcall (of_decide_eq_true hlabel)
    exact hcalled hcalls

end Cues

/-! ### Some cues -/

section Runs

theorem awaits_run : ∀ {cues : List (Cue κ ν)} {s : Stage κ ν},
    (∀ cue ∈ cues, cue.label? ≠ some label) → ((s.run cues).spot id).Awaits label →
      (s.spot id).Awaits label
  | [], _, _, h => h
  | _ :: _, _, hcues, h => by
      obtain ⟨hcue, hrest⟩ := List.forall_mem_cons.mp hcues
      exact awaits_perform hcue (awaits_run hrest h)

theorem silent_run {cues : List (Cue κ ν)} {s : Stage κ ν} (h : s.Silent label)
    (hcues : ∀ cue ∈ cues, cue.label? ≠ some label) : (s.run cues).Silent label :=
  fun id hafter => h id (awaits_run hcues hafter)

/-- What is not under way is not called as long as no cue begins it. -/
theorem Silent.calls : ∀ {cues : List (Cue κ ν)} {s : Stage κ ν}, s.Silent label →
    (∀ cue ∈ cues, cue.label? ≠ some label) → ∀ call ∈ (s.calls cues).flatten, call.2 ≠ label
  | [], _, _, _, _, hcall => by cases hcall
  | cue :: rest, s, h, hcues, call, hcall => by
      obtain ⟨hcue, hrest⟩ := List.forall_mem_cons.mp hcues
      rw [Stage.calls, List.flatten_append] at hcall
      rcases List.mem_append.mp hcall with hnow | hlater
      · exact h.callsOf cue call hnow
      · exact (h.perform hcue).calls hrest call hlater

theorem carries_run : ∀ (cues : List (Cue κ ν)) {s : Stage κ ν} {time : Float},
    (s.spot id).Carries label duration time → s.waits id duration time cues = true →
      ((s.run cues).spot id).Carries label duration (cues.foldl Cue.pass time)
  | [], _, _, h, _ => h
  | cue :: rest, s, time, h, hwaits => by
      simp only [waits, Bool.and_eq_true, Bool.not_eq_true'] at hwaits
      obtain ⟨⟨hcancels, hfills⟩, hrest⟩ := hwaits
      exact carries_run rest (carries_perform h hcancels hfills) hrest

/-- A tween that waits no more has lost its label. -/
theorem not_awaits_run : ∀ (cues : List (Cue κ ν)) {s : Stage κ ν} {time : Float},
    (s.spot id).Carries label duration time → (∀ cue ∈ cues, cue.label? ≠ some label) →
      s.waits id duration time cues = false → ¬((s.run cues).spot id).Awaits label
  | [], _, _, _, _, hwaits => by cases hwaits
  | cue :: rest, s, time, h, hcues, hwaits => by
      obtain ⟨hcue, hrest⟩ := List.forall_mem_cons.mp hcues
      rw [waits] at hwaits
      cases hcancels : s.cancels id cue with
      | true => exact fun hafter =>
          not_awaits_perform_of_cancels hcue hcancels (awaits_run hrest hafter)
      | false =>
          cases hfills : cue.fills duration time with
          | true => exact fun hafter =>
              not_awaits_perform_of_fills h hcue hfills (awaits_run hrest hafter)
          | false =>
              rw [hcancels, hfills] at hwaits
              exact not_awaits_run rest (carries_perform h hcancels hfills) hrest hwaits

/-- As long as a tween waits, it is not called. -/
theorem Own.calls_of_waits : ∀ (cues : List (Cue κ ν)) {s : Stage κ ν} {time : Float},
    s.Own label id → (s.spot id).Carries label duration time →
      (∀ cue ∈ cues, cue.label? ≠ some label) → s.waits id duration time cues = true →
        ∀ call ∈ (s.calls cues).flatten, call.2 ≠ label
  | [], _, _, _, _, _, _, _, hcall => by cases hcall
  | cue :: rest, s, time, h, hcarries, hcues, hwaits, call, hcall => by
      obtain ⟨hcue, hrest⟩ := List.forall_mem_cons.mp hcues
      simp only [waits, Bool.and_eq_true, Bool.not_eq_true'] at hwaits
      obtain ⟨⟨hcancels, hfills⟩, hlater⟩ := hwaits
      rw [calls, List.flatten_append] at hcall
      rcases List.mem_append.mp hcall with hnow | hthen
      · exact h.callsOf_of_carries hcarries (.inr hfills) call hnow
      · exact calls_of_waits rest (h.perform hcue) (carries_perform hcarries hcancels hfills) hrest
          hlater call hthen

/-- A label of one agent is called once at most, as long as no cue begins it again. -/
theorem Own.filter_calls [DecidableEq κ] : ∀ (cues : List (Cue κ ν)) {s : Stage κ ν},
    s.Own label id → (∀ cue ∈ cues, cue.label? ≠ some label) →
      (s.calls cues).flatten.filter (·.2 = label) = [] ∨
        (s.calls cues).flatten.filter (·.2 = label) = [(id, label)]
  | [], _, _, _ => .inl rfl
  | cue :: rest, s, h, hcues => by
      obtain ⟨hcue, hrest⟩ := List.forall_mem_cons.mp hcues
      rw [calls, List.flatten_append, List.filter_append]
      rcases h.filter_callsOf hcue with hnone | ⟨hone, hsilent⟩
      · rw [hnone, List.nil_append]
        exact filter_calls rest (h.perform hcue) hrest
      · have hlater : ((s.perform cue).calls rest).flatten.filter (·.2 = label) = [] :=
          List.filter_eq_nil_iff.mpr fun call hcall hlabel =>
            hsilent.calls hrest call hcall (of_decide_eq_true hlabel)
        rw [hone, hlater]
        exact .inr rfl

/-- The tick that calls the label of a tween is the one that brings it to its duration while it
waits. -/
theorem mem_called_run_iff {s : Stage κ ν} {middle : List (Cue κ ν)} {time : Float}
    (hcarries : (s.spot id).Carries label duration time)
    (hmiddle : ∀ cue ∈ middle, cue.label? ≠ some label) (elapsed : Float) :
    (id, label) ∈ (s.run middle).called elapsed ↔
      s.waits id duration time middle = true ∧ ((s.run middle).nodes.find? id).isSome = true ∧
        1.0 ≤ progress (middle.foldl Cue.pass time + forward elapsed) duration := by
  rw [mem_called_iff]
  cases hwaits : s.waits id duration time middle with
  | true =>
      rw [(carries_run middle hcarries hwaits).called? elapsed]
      exact (and_iff_right rfl).symm
  | false =>
      refine ⟨fun hcall => ?_, fun h => by cases h.1⟩
      exact absurd (Spot.awaits_of_called hcall) (not_awaits_run middle hcarries hmiddle hwaits)

/-- A tween that is cancelled while it waits is never called. -/
theorem Own.calls_of_cancels {s : Stage κ ν} {middle rest : List (Cue κ ν)} {other : Cue κ ν}
    {time : Float} (h : s.Own label id) (hcarries : (s.spot id).Carries label duration time)
    (hcues : ∀ cue ∈ middle ++ other :: rest, cue.label? ≠ some label)
    (hwaits : s.waits id duration time middle = true)
    (hcancels : (s.run middle).cancels id other = true) :
    ∀ call ∈ (s.calls (middle ++ other :: rest)).flatten, call.2 ≠ label := by
  obtain ⟨hmiddle, hothers⟩ := List.forall_mem_append.mp hcues
  obtain ⟨hother, hrest⟩ := List.forall_mem_cons.mp hothers
  have hwaiting := carries_run middle hcarries hwaits
  have hmine : (s.run middle).Own label id := fun agent hagent =>
    h agent (awaits_run hmiddle hagent)
  have hgone : ((s.run middle).perform other).Silent label := fun agent hagent => by
    obtain rfl := hmine.perform hother agent hagent
    exact not_awaits_perform_of_cancels hother hcancels hagent
  intro call hcall
  rw [calls_append, List.flatten_append, calls, List.flatten_append] at hcall
  rcases List.mem_append.mp hcall with hwhile | hend
  · exact h.calls_of_waits middle hcarries hmiddle hwaits call hwhile
  · rcases List.mem_append.mp hend with hnow | hthen
    · exact hmine.callsOf_of_carries hwaiting (.inl hcancels) call hnow
    · exact hgone.calls hrest call hthen

end Runs

/-! ### From the beginning of a tween -/

section Begun

variable {s : Stage κ ν} {cue : Cue κ ν} {request : TweenRequest}

theorem callsOf_of_request? {own : Option κ} {settings : AnimationSettings}
    (h : cue.request? settings = some (id, request, own)) : s.callsOf cue = [] := by
  cases cue <;> cases h <;> rfl

theorem spot_perform_of_request? {own : Option κ}
    (h : cue.request? s.engine.settings = some (id, request, own)) (other : String) :
    (s.perform cue).spot other =
      if id == other then (s.spot other).tween s.engine.settings request own
      else s.spot other := by
  rw [spot_perform]
  cases cue <;> cases h <;> rfl

/-- A tween that has begun waits, and no time has passed for it. -/
theorem carries_of_request? (h : cue.request? s.engine.settings = some (id, request, some label))
    (hnode : (s.nodes.find? id).isSome = true) :
    ((s.perform cue).spot id).Carries label
      (request.duration.getD s.engine.settings.defaultTweenDuration).toFloat 0.0 := by
  obtain ⟨node, hnode⟩ := Option.isSome_iff_exists.mp hnode
  have hspot : (s.spot id).node = some node := hnode
  rw [spot_perform_of_request? h, beq_self_eq_true, if_pos rfl]
  simp only [Spot.tween, hspot]
  exact ⟨_, rfl, rfl, rfl, rfl⟩

theorem own_of_request? (h : cue.request? s.engine.settings = some (id, request, some label))
    (hsilent : s.Silent label) : (s.perform cue).Own label id := by
  intro other hother
  by_cases hid : id = other
  · exact hid.symm
  · rw [spot_perform_of_request? h, beq_false_of_ne hid, if_neg (by decide)] at hother
    exact absurd hother (hsilent other)

end Begun

/-- Take a run in which a tween with a label of its own begins on a node.

* Its label is called once at most, and with the id of its agent.
* The tick that calls it is the one in which the tween, still waiting, is brought to its duration
  while the node is there.
* If it is cancelled while it waits, it is never called. -/
theorem calls_of_tween [DecidableEq κ] (s : Stage κ ν) (before : List (Cue κ ν)) (cue : Cue κ ν)
    (after : List (Cue κ ν)) {request : TweenRequest}
    (hcue : cue.request? s.engine.settings = some (id, request, some label))
    (hnode : ((s.run before).nodes.find? id).isSome = true)
    (hold : ∀ other tween, (s.engine.track other).tween = some tween → tween.label ≠ some label)
    (hnew : ∀ other ∈ before ++ after, other.label? ≠ some label) :
    let begun := (s.run before).perform cue
    let duration := (request.duration.getD s.engine.settings.defaultTweenDuration).toFloat
    let called := (s.calls (before ++ cue :: after)).flatten
    (called.filter (·.2 = label) = [] ∨ called.filter (·.2 = label) = [(id, label)]) ∧
    (∀ middle elapsed rest, after = middle ++ .tick elapsed :: rest →
      ((id, label) ∈ (begun.run middle).called elapsed ↔
        begun.waits id duration 0.0 middle = true ∧
          ((begun.run middle).nodes.find? id).isSome = true ∧
            1.0 ≤ progress (middle.foldl Cue.pass 0.0 + forward elapsed) duration)) ∧
    (∀ middle other rest, after = middle ++ other :: rest →
      begun.waits id duration 0.0 middle = true → (begun.run middle).cancels id other = true →
        ∀ call ∈ called, call.2 ≠ label) := by
  intro begun duration called
  obtain ⟨hbefore, hafter⟩ := List.forall_mem_append.mp hnew
  have hcue' : cue.request? (s.run before).engine.settings = some (id, request, some label) := by
    rw [settings_run]
    exact hcue
  have hsilent₀ : s.Silent label := fun other hother => by
    obtain ⟨tween, htween, hlabel⟩ := hother
    exact hold other tween htween hlabel
  have hsilent : (s.run before).Silent label := silent_run hsilent₀ hbefore
  have hown : begun.Own label id := own_of_request? hcue' hsilent
  have hcarries : (begun.spot id).Carries label duration 0.0 := by
    have hbegun := carries_of_request? hcue' hnode
    rwa [settings_run] at hbegun
  have hcalled : called = (s.calls before).flatten ++ (begun.calls after).flatten := by
    show (s.calls (before ++ cue :: after)).flatten = _
    rw [calls_append, List.flatten_append, calls, callsOf_of_request? hcue', List.nil_append]
  refine ⟨?_, ?_, ?_⟩
  · have hnone : (s.calls before).flatten.filter (·.2 = label) = [] :=
      List.filter_eq_nil_iff.mpr fun call hcall hlabel =>
        hsilent₀.calls hbefore call hcall (of_decide_eq_true hlabel)
    rw [hcalled, List.filter_append, hnone, List.nil_append]
    exact hown.filter_calls after hafter
  · rintro middle elapsed rest rfl
    obtain ⟨hmiddle, -⟩ := List.forall_mem_append.mp hafter
    exact mem_called_run_iff hcarries hmiddle elapsed
  · rintro middle other rest rfl hwaits hcancels call hcall
    rw [hcalled] at hcall
    rcases List.mem_append.mp hcall with hfirst | hlater
    · exact hsilent₀.calls hbefore call hfirst
    · exact hown.calls_of_cancels hcarries hafter hwaits hcancels call hlater

/-- Of two tweens of one agent the second is called, when its own time is up, and the first, which
it replaces, never. -/
theorem calls_of_second_tween :
    let s : Stage String SceneNode := ⟨.new {}, Table.ofList [("hero", .atPoint ⟨0.0, 0.0⟩)]⟩
    let first := .tween "hero" ⟨[("y", 5.0)], some 100, none⟩ (some "first")
    let second := .move "hero" ⟨100.0, 0.0⟩ ⟨some 200, none⟩ (some "second")
    let middle := [.tick 150.0, .start "hero" ⟨"spin", none, none⟩]
    let later := middle ++ [.tick 100.0, .tick 100.0]
    ("hero", "second") ∈ (((s.run [first, .tick 50.0]).perform second).run middle).called 100.0 ∧
      ∀ call ∈ (s.calls ([] ++ first :: .tick 50.0 :: second :: later)).flatten,
        call.2 ≠ "first" := by
  intro s first second middle later
  have hnone : ∀ label other tween, (s.engine.track other).tween = some tween →
      tween.label ≠ some label := by
    intro label other tween htween
    cases htween
  have hsecond := calls_of_tween s [first, .tick 50.0] second later rfl (by decide)
    (hnone "second") (by decide)
  have hfirst := calls_of_tween s [] first (.tick 50.0 :: second :: later) rfl (by decide)
    (hnone "first") (by decide)
  exact ⟨(hsecond.2.1 middle 100.0 [.tick 100.0] rfl).mpr ⟨by decide, by decide, by decide⟩,
    hfirst.2.2 [.tick 50.0] second later rfl (by decide) (by decide)⟩

end Stage

end Storybook
