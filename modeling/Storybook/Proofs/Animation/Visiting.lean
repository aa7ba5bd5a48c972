/-
# `Storybook.Proofs.Animation.Visiting` — agents do not interfere

A tick goes through the tracks one after the other, and takes its node, its track and its calls
along from each visit to the next; `stopAll` goes through them too.  In which order is nobody's
business: `Engine.tickAlong` and `Engine.stopAllAlong` take any, and `Stage.Plays` is a run in which
every tick and every `stopAll` may choose its own.

Two things are shown of such runs.

* The order does not matter: what a visit reads and writes is the share of one agent
  (`Round.share_visit`), so that a round of visits leaves every share as its own visit leaves it
  (`Round.share_foldl`).
* The other agents do not matter: a spot changes only with the cues that concern it
  (`Stage.spot_run`), and its own calls are read off the spot (`Stage.filter_calls`).

`Stage.plays_apart` puts them together.  A track on which nothing runs counts as none.
-/
import Storybook.Proofs.Animation.Calls

namespace Storybook

variable {κ ν : Type}

/-! ## Visits in an order -/

/-- A tick on its way from track to track. -/
structure Round (κ ν : Type) where
  tracks : Table (Track κ)
  nodes : Table ν
  called : List (String × κ)
  /-- The agents that had a track but no node. -/
  orphans : List String

/-- Visits a track: it moves its node, or is noted as an orphan. -/
def Round.visit [RenderNode ν] (settings : AnimationSettings) (elapsed : Float)
    (round : Round κ ν) (id : String) : Round κ ν :=
  match round.tracks.find? id with
  | none => round
  | some track =>
    match round.nodes.find? id with
    | none => { round with orphans := round.orphans ++ [id] }
    | some node =>
      let (track, node, label) := track.advance settings elapsed node
      { round with
        tracks := round.tracks.insert id track
        nodes := round.nodes.insert id node
        called := round.called ++ label.toList.map (id, ·) }

namespace Engine

variable [RenderNode ν]

/-- Lets time pass, visiting the tracks in an order; orphans and tracks on which nothing runs any
more are dropped after the last visit. -/
def tickAlong (engine : Engine κ) (nodes : Table ν) (elapsed : Float) (order : List String) :
    Engine κ × Table ν × List (String × κ) :=
  let round := order.foldl (Round.visit engine.settings elapsed) ⟨engine.tracks, nodes, [], []⟩
  let kept := round.tracks.filter fun id track => !track.isIdle && !round.orphans.contains id
  ({ engine with tracks := kept }, round.nodes, round.called)

/-- Ends everything, restoring the nodes in an order. -/
def stopAllAlong (engine : Engine κ) (nodes : Table ν) (order : List String) :
    Engine κ × Table ν :=
  (new engine.settings,
    order.foldl (fun nodes id => nodes.adjust id (engine.track id).restore) nodes)

end Engine

/-- Whether a cue goes through all tracks. -/
def Cue.visitsAll : Cue κ ν → Bool
  | .stopAll | .tick _ => true
  | _ => false

namespace Stage

variable [RenderNode ν]

/-- A cue may lead from a stage to another one, with some calls, if it visits the tracks in some
order, each of them once. -/
inductive Follows (s : Stage κ ν) : Cue κ ν → Stage κ ν → List (List (String × κ)) → Prop
  | tick {elapsed : Float} {order : List String} (horder : order.Perm s.engine.tracks.names) :
      Follows s (.tick elapsed)
        ⟨(s.engine.tickAlong s.nodes elapsed order).1,
          (s.engine.tickAlong s.nodes elapsed order).2.1⟩
        [(s.engine.tickAlong s.nodes elapsed order).2.2]
  | stopAll {order : List String} (horder : order.Perm s.engine.tracks.names) :
      Follows s .stopAll
        ⟨(s.engine.stopAllAlong s.nodes order).1, (s.engine.stopAllAlong s.nodes order).2⟩ []
  | one {cue : Cue κ ν} (hcue : cue.visitsAll = false) : Follows s cue (s.perform cue) []

/-- A run of some cues may lead from a stage to another one, with the calls of each tick. -/
inductive Plays : Stage κ ν → List (Cue κ ν) → Stage κ ν → List (List (String × κ)) → Prop
  | done (s : Stage κ ν) : Plays s [] s []
  | next {s s' last : Stage κ ν} {cue : Cue κ ν} {rest : List (Cue κ ν)}
      {now later : List (List (String × κ))} (hcue : s.Follows cue s' now)
      (hrest : Plays s' rest last later) : Plays s (cue :: rest) last (now ++ later)

end Stage

/-! ## The order does not matter -/

/-- What a round has of one agent. -/
@[ext] structure Share (κ ν : Type) where
  track : Option (Track κ)
  node : Option ν
  called : List (String × κ)
  isOrphan : Bool

/-- What a visit does to the share of its agent. -/
def Share.visit [RenderNode ν] (settings : AnimationSettings) (elapsed : Float) (id : String)
    (share : Share κ ν) : Share κ ν :=
  match share.track, share.node with
  | none, _ => share
  | some _, none => { share with isOrphan := true }
  | some track, some node =>
    let (track, node, label) := track.advance settings elapsed node
    ⟨some track, some node, share.called ++ label.toList.map (id, ·), share.isOrphan⟩

namespace Round

/-- The share of an agent. -/
def share (round : Round κ ν) (id : String) : Share κ ν :=
  ⟨round.tracks.find? id, round.nodes.find? id, round.called.filter (·.1 == id),
    round.orphans.contains id⟩

variable [RenderNode ν] (settings : AnimationSettings) (elapsed : Float)

theorem filter_own (id : String) (label : Option κ) :
    (label.toList.map (id, ·)).filter (·.1 == id) = label.toList.map (id, ·) := by
  cases label <;> simp

theorem filter_other {id other : String} (h : other ≠ id) (label : Option κ) :
    (label.toList.map (other, ·)).filter (·.1 == id) = [] := by
  cases label <;> simp [h]

/-- A visit changes the share of its agent, and no other. -/
theorem share_visit (round : Round κ ν) (id other : String) :
    (round.visit settings elapsed other).share id =
      if other = id then (round.share id).visit settings elapsed id else round.share id := by
  by_cases h : other = id
  · subst h
    rw [if_pos rfl]
    cases htrack : round.tracks.find? other with
    | none => simp [visit, share, Share.visit, htrack]
    | some track =>
        cases hnode : round.nodes.find? other with
        | none => simp [visit, share, Share.visit, htrack, hnode]
        | some node =>
            simp only [visit, share, Share.visit, htrack, hnode, Table.find?_insert_self,
              List.filter_append, filter_own]
  · rw [if_neg h]
    cases htrack : round.tracks.find? other with
    | none => simp [visit, htrack]
    | some track =>
        cases hnode : round.nodes.find? other with
        | none => simp [visit, share, htrack, hnode, Ne.symm h]
        | some node =>
            simp only [visit, share, htrack, hnode, Table.find?_insert, if_neg (Ne.symm h),
              List.filter_append, filter_other h, List.append_nil]

/-- Visits in an order without repetition do to each share what its own visit does to it. -/
theorem share_foldl (id : String) : ∀ {order : List String} (round : Round κ ν), order.Nodup →
    (order.foldl (visit settings elapsed) round).share id =
      if id ∈ order then (round.share id).visit settings elapsed id else round.share id
  | [], _, _ => rfl
  | other :: rest, round, horder => by
      obtain ⟨hfresh, hrest⟩ := List.nodup_cons.mp horder
      rw [List.foldl_cons, share_foldl id _ hrest, share_visit]
      by_cases h : other = id
      · subst h
        rw [if_neg hfresh, if_pos rfl, if_pos List.mem_cons_self]
      · have hmem : id ∈ other :: rest ↔ id ∈ rest := by simp [Ne.symm h]
        simp only [if_neg h, hmem]

end Round

namespace Engine

variable [RenderNode ν]

/-- After a round over all tracks each share is as its own visit has left it. -/
theorem share_round (engine : Engine κ) (nodes : Table ν) (elapsed : Float) {order : List String}
    (horder : order.Perm engine.tracks.names) (id : String) :
    (order.foldl (Round.visit engine.settings elapsed) ⟨engine.tracks, nodes, [], []⟩).share id =
      Share.visit engine.settings elapsed id
        ⟨engine.tracks.find? id, nodes.find? id, [], false⟩ := by
  have hnodup : order.Nodup := horder.nodup_iff.mpr engine.tracks.nodup_names
  rw [Round.share_foldl engine.settings elapsed id _ hnodup]
  by_cases hmem : id ∈ order
  · rw [if_pos hmem]
    rfl
  · -- without a track there is nothing to visit
    have hnone : engine.tracks.find? id = none := by
      rw [horder.mem_iff, Table.mem_names_iff] at hmem
      simpa using hmem
    rw [if_neg hmem]
    simp [Round.share, Share.visit, hnone]

theorem tickAlong_engine (engine : Engine κ) (nodes : Table ν) (elapsed : Float)
    {order : List String} (horder : order.Perm engine.tracks.names) :
    (engine.tickAlong nodes elapsed order).1 = (engine.tick nodes elapsed).1 := by
  refine congrArg (Engine.mk engine.settings) (Table.ext_find? fun id => ?_)
  have hshare := engine.share_round nodes elapsed horder id
  generalize order.foldl _ _ = round at hshare ⊢
  have htrack : round.tracks.find? id = _ := congrArg Share.track hshare
  have horphan : round.orphans.contains id = _ := congrArg Share.isOrphan hshare
  simp only [Table.find?_filter, Table.find?_mapValues, Table.find?_filterMap, htrack, horphan]
  cases htracks : engine.tracks.find? id with
  | none => rfl
  | some track =>
      cases hnode : nodes.find? id with
      | none => simp [Share.visit]
      | some node => simp [Share.visit, advanceTrack]

theorem tickAlong_nodes (engine : Engine κ) (nodes : Table ν) (elapsed : Float)
    {order : List String} (horder : order.Perm engine.tracks.names) :
    (engine.tickAlong nodes elapsed order).2.1 = (engine.tick nodes elapsed).2.1 := by
  refine Table.ext_find? fun id => ?_
  have hnode : (engine.tickAlong nodes elapsed order).2.1.find? id = _ :=
    congrArg Share.node (engine.share_round nodes elapsed horder id)
  rw [hnode, tick_node, Engine.track]
  cases htracks : engine.tracks.find? id with
  | none => cases nodes.find? id <;> rfl
  | some track => cases nodes.find? id <;> rfl

theorem filter_tickAlong (engine : Engine κ) (nodes : Table ν) (elapsed : Float)
    {order : List String} (horder : order.Perm engine.tracks.names) (id : String) :
    (engine.tickAlong nodes elapsed order).2.2.filter (·.1 == id) =
      (engine.tick nodes elapsed).2.2.filter (·.1 == id) := by
  have hcalled : (engine.tickAlong nodes elapsed order).2.2.filter (·.1 == id) = _ :=
    congrArg Share.called (engine.share_round nodes elapsed horder id)
  have hspot := Stage.filter_called ⟨engine, nodes⟩ id elapsed
  rw [hcalled]
  refine Eq.trans ?_ hspot.symm
  simp only [Spot.called?, Stage.spot, Engine.track]
  cases htracks : engine.tracks.find? id with
  | none => cases nodes.find? id <;> rfl
  | some track =>
      cases nodes.find? id with
      | none => rfl
      | some node =>
          have hlabel := track.label_advance engine.settings elapsed node
          simp [Share.visit, hlabel]

theorem find?_foldl_adjust (engine : Engine κ) (id : String) :
    ∀ {order : List String} (nodes : Table ν), order.Nodup →
      (order.foldl (fun nodes id => nodes.adjust id (engine.track id).restore) nodes).find? id =
        if id ∈ order then (nodes.find? id).map (engine.track id).restore else nodes.find? id
  | [], _, _ => rfl
  | other :: rest, nodes, horder => by
      obtain ⟨hfresh, hrest⟩ := List.nodup_cons.mp horder
      rw [List.foldl_cons, find?_foldl_adjust engine id _ hrest, Table.find?_adjust]
      by_cases h : id = other
      · subst h
        rw [if_neg hfresh, if_pos rfl, if_pos List.mem_cons_self]
      · have hmem : id ∈ other :: rest ↔ id ∈ rest := by simp [h]
        simp only [if_neg h, hmem]

theorem stopAllAlong_eq (engine : Engine κ) (nodes : Table ν) {order : List String}
    (horder : order.Perm engine.tracks.names) :
    engine.stopAllAlong nodes order = engine.stopAll nodes := by
  refine congrArg (Prod.mk _) (Table.ext_find? fun id => ?_)
  have hnodup : order.Nodup := horder.nodup_iff.mpr engine.tracks.nodup_names
  rw [find?_foldl_adjust engine id nodes hnodup, Table.find?_mapValues]
  by_cases hmem : id ∈ order
  · rw [if_pos hmem]
  · have hnone : engine.tracks.find? id = none := by
      rw [horder.mem_iff, Table.mem_names_iff] at hmem
      simpa using hmem
    have hempty : engine.track id = .empty := by rw [Engine.track, hnone, Option.getD_none]
    rw [if_neg hmem, hempty]
    cases nodes.find? id <;> rfl

end Engine

namespace Stage

variable [RenderNode ν]

/-- Whatever the order, a cue leads where `perform` says, and calls the same for each agent. -/
theorem Follows.eq_perform {s s' : Stage κ ν} {cue : Cue κ ν} {calls : List (List (String × κ))}
    (h : s.Follows cue s' calls) :
    s' = s.perform cue ∧
      ∀ id, calls.map (·.filter (·.1 == id)) = (s.callsOf cue).map (·.filter (·.1 == id)) := by
  cases h with
  | tick horder =>
      rw [Engine.tickAlong_engine _ _ _ horder, Engine.tickAlong_nodes _ _ _ horder]
      refine ⟨rfl, fun id => ?_⟩
      rw [List.map_singleton, Engine.filter_tickAlong _ _ _ horder]
      rfl
  | stopAll horder =>
      rw [Engine.stopAllAlong_eq _ _ horder]
      exact ⟨rfl, fun id => rfl⟩
  | one hcue =>
      refine ⟨rfl, fun id => ?_⟩
      cases cue with
      | tick _ | stopAll => cases hcue
      | tween _ _ _ | move _ _ _ _ | start _ _ | stop _ | put _ _ | remove _ | write _ _ _ => rfl

theorem Plays.eq_run {s last : Stage κ ν} {cues : List (Cue κ ν)}
    {calls : List (List (String × κ))} (h : s.Plays cues last calls) :
    last = s.run cues ∧
      ∀ id, calls.map (·.filter (·.1 == id)) = (s.calls cues).map (·.filter (·.1 == id)) := by
  induction h with
  | done s => exact ⟨rfl, fun id => rfl⟩
  | next hcue _ ih =>
      obtain ⟨rfl, hnow⟩ := hcue.eq_perform
      obtain ⟨rfl, hlater⟩ := ih
      refine ⟨rfl, fun id => ?_⟩
      rw [Stage.calls, List.map_append, List.map_append, hnow id, hlater id]

/-- There is always a run. -/
theorem exists_follows (s : Stage κ ν) (cue : Cue κ ν) :
    ∃ calls, s.Follows cue (s.perform cue) calls := by
  have hrefl : s.engine.tracks.names.Perm s.engine.tracks.names := .refl _
  cases hall : cue.visitsAll with
  | false => exact ⟨[], .one hall⟩
  | true =>
      cases cue with
      | tick elapsed =>
          have hfollows : s.Follows (.tick elapsed) _ _ := .tick hrefl
          obtain ⟨hstage, -⟩ := hfollows.eq_perform
          exact ⟨_, hstage ▸ hfollows⟩
      | stopAll =>
          have hfollows : s.Follows .stopAll _ _ := .stopAll hrefl
          obtain ⟨hstage, -⟩ := hfollows.eq_perform
          exact ⟨_, hstage ▸ hfollows⟩
      | tween _ _ _ | move _ _ _ _ | start _ _ | stop _ | put _ _ | remove _ | write _ _ _ =>
          cases hall

theorem exists_plays : ∀ (cues : List (Cue κ ν)) (s : Stage κ ν),
    ∃ last calls, s.Plays cues last calls
  | [], s => ⟨s, [], .done s⟩
  | cue :: rest, s => by
      obtain ⟨now, hnow⟩ := s.exists_follows cue
      obtain ⟨last, later, hlater⟩ := exists_plays rest (s.perform cue)
      exact ⟨last, now ++ later, .next hnow hlater⟩

end Stage

/-! ## The other agents do not matter -/

namespace Spot

/-- The calls of a cue for the agent of a spot. -/
def callsOf (id : String) (spot : Spot κ ν) : Cue κ ν → List (List (String × κ))
  | .tick elapsed => [(spot.called? elapsed).toList.map (id, ·)]
  | _ => []

/-- The calls for the agent of a spot in the course of some cues that concern it. -/
def calls [RenderNode ν] (settings : AnimationSettings) (id : String) (spot : Spot κ ν) :
    List (Cue κ ν) → List (List (String × κ))
  | [] => []
  | cue :: rest => spot.callsOf id cue ++ (spot.obey settings cue).calls settings id rest

end Spot

namespace Stage

variable [RenderNode ν]

theorem filter_callsOf (s : Stage κ ν) (id : String) (cue : Cue κ ν) :
    (s.callsOf cue).map (·.filter (·.1 == id)) =
      if cue.concerns id then (s.spot id).callsOf id cue else [] := by
  cases cue with
  | tick elapsed => exact congrArg (List.singleton ·) (s.filter_called id elapsed)
  | stopAll => rfl
  | tween _ _ _ | move _ _ _ _ | start _ _ | stop _ | put _ _ | remove _ | write _ _ _ =>
      exact (ite_self _).symm

/-- The calls for an agent are read off its spot and the cues that concern it. -/
theorem filter_calls (id : String) : ∀ (cues : List (Cue κ ν)) (s : Stage κ ν),
    (s.calls cues).map (·.filter (·.1 == id)) =
      (s.spot id).calls s.engine.settings id (cues.filter (·.concerns id))
  | [], _ => rfl
  | cue :: rest, s => by
      have hrest := filter_calls id rest (s.perform cue)
      rw [settings_perform, spot_perform] at hrest
      rw [Stage.calls, List.map_append, filter_callsOf, hrest]
      cases hc : cue.concerns id with
      | true =>
          rw [if_pos rfl, if_pos rfl, List.filter_cons_of_pos (by exact hc)]
          rfl
      | false =>
          rw [if_neg (by decide), if_neg (by decide), List.filter_cons_of_neg (by simp [hc])]
          rfl

/-- Whatever is done to the other agents, and in whatever order each tick and each `stopAll` visits
the tracks, an agent has the node, the tween, the animation and the calls that it has in a run of
the cues that concern it; and there is such a run. -/
theorem plays_apart {s last : Stage κ ν} {cues : List (Cue κ ν)}
    {calls : List (List (String × κ))} (h : s.Plays cues last calls) (id : String) :
    (∃ last' calls', s.Plays (cues.filter (·.concerns id)) last' calls') ∧
      ∀ last' calls', s.Plays (cues.filter (·.concerns id)) last' calls' →
        last.nodes.find? id = last'.nodes.find? id ∧
          (last.engine.track id).tween = (last'.engine.track id).tween ∧
          (last.engine.track id).run = (last'.engine.track id).run ∧
          calls.map (·.filter (·.1 == id)) = calls'.map (·.filter (·.1 == id)) := by
  refine ⟨exists_plays _ s, fun last' calls' h' => ?_⟩
  obtain ⟨rfl, hcalls⟩ := h.eq_run
  obtain ⟨rfl, hcalls'⟩ := h'.eq_run
  have hown : (cues.filter (·.concerns id)).filter (·.concerns id) =
      cues.filter (·.concerns id) := by
    rw [List.filter_filter]
    simp only [Bool.and_self]
  have hspot : (s.run cues).spot id = (s.run (cues.filter (·.concerns id))).spot id := by
    rw [spot_run, spot_run, hown]
  refine ⟨congrArg Spot.node hspot, congrArg (·.track.tween) hspot, congrArg (·.track.run) hspot,
    ?_⟩
  rw [hcalls id, hcalls' id, filter_calls, filter_calls, hown]

/-- Two agents arrive in one tick, which visits the second one in the order of the names first: the
first one fares as if it were alone. -/
theorem plays_apart_moon :
    let s : Stage String SceneNode :=
      ⟨.new {}, Table.ofList [("hero", .atPoint ⟨0.0, 0.0⟩), ("moon", .atPoint ⟨0.0, 9.0⟩)]⟩
    let hero := .move "hero" ⟨1.0, 0.0⟩ ⟨some 0, none⟩ (some "here")
    let moon := .move "moon" ⟨0.0, 0.0⟩ ⟨some 0, none⟩ (some "set")
    let begun := (s.perform hero).perform moon
    let ticked := begun.engine.tickAlong begun.nodes 1.0 ["moon", "hero"]
    s.Plays [hero, moon, .tick 1.0] ⟨ticked.1, ticked.2.1⟩ [ticked.2.2] ∧
      ticked.2.2 = [("moon", "set"), ("hero", "here")] ∧
      ∀ last calls, s.Plays [hero, .tick 1.0] last calls →
        ticked.2.1.find? "hero" = last.nodes.find? "hero" ∧
          calls.map (·.filter (·.1 == "hero")) = [[("hero", "here")]] := by
  intro s hero moon begun ticked
  have horder : ["moon", "hero"].Perm begun.engine.tracks.names := by decide
  have hplays : s.Plays [hero, moon, .tick 1.0] ⟨ticked.1, ticked.2.1⟩ [ticked.2.2] :=
    .next (.one rfl) (.next (.one rfl) (.next (.tick horder) (.done _)))
  have hcalled : ticked.2.2 = [("moon", "set"), ("hero", "here")] := by decide
  refine ⟨hplays, hcalled, fun last calls halone => ?_⟩
  obtain ⟨hnode, -, -, hcalls⟩ := (plays_apart hplays "hero").2 last calls halone
  rw [hcalled] at hcalls
  exact ⟨hnode, hcalls.symm⟩

end Stage

end Storybook
