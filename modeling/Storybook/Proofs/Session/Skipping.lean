/-
# `Storybook.Proofs.Session.Skipping` — movements with nothing to apply

Of a movement that finds nothing to apply no more is left than the random words that were drawn for
its operands:

| statement | finds nothing to apply |
| :-- | :-- |
| `move` | where a coordinate is no finite number, or the agent has no node |
| `tween` | where none of the values is a finite number, or the agent has no node |
| `animate` | where no kind has the name, or the agent has no node |

There is one exception.  A tween is handed on with the properties that have finite values, also if
these are none.  Where the agent has a node, that bare tween takes the place of the one that runs:
the movement of the agent ends where it is, though nothing else moves it.  So such a statement is
left out whole exactly if there is no node, or just such a bare tween was begun before
(`execute_of_hasNothingToApply`).
-/
import Storybook.Session.Basic

namespace Storybook

namespace Expression

variable {σ : Type} [WordSource σ]

/-- The values of some expressions, from the first one to the last one, and the source after
them. -/
def evaluateAll (env : Environment) : List Expression → σ → List Value × σ
  | [], source => ([], source)
  | e :: rest, source =>
    let (value, source) := evaluate env e source
    let (values, source) := evaluateAll env rest source
    (value :: values, source)

end Expression

/-- The expressions that a movement reads. -/
def Statement.operands : Statement → List Expression
  | .move _ x y _ => [x, y]
  | .tween _ properties _ => properties.entries.map (·.2)
  | _ => []

/-- A tween of no property, as it begins. -/
def Tween.bare {κ : Type} (settings : AnimationSettings) (options : TweenOptions) : Tween κ where
  motions := []
  duration := (options.duration.getD settings.defaultTweenDuration).toFloat
  elapsed := 0.0
  easing := Easing.resolve options.easing settings.standardEasing
  label := none

/-! ## What the engine refuses -/

section Engine

variable {κ ν : Type} [RenderNode ν]

namespace Engine

variable {engine : Engine κ} {nodes : Table ν} {id : String}

theorem tween_of_find?_none (h : nodes.find? id = none) (request : TweenRequest)
    (label : Option κ) : engine.tween nodes id request label = .error (.nodeNotFound id) := by
  unfold Engine.tween
  rw [h]

/-- A tween without properties is begun all the same. -/
theorem tween_bare {node : ν} (h : nodes.find? id = some node) (options : TweenOptions) :
    engine.tween nodes id ⟨[], options.duration, options.easing⟩ none =
      .ok (engine.withTrack id
        { engine.track id with tween := some (.bare engine.settings options) }) := by
  unfold Engine.tween
  rw [h]
  rfl

theorem start_eq_error {spec : AnimationSpec}
    (h : nodes.find? id = none ∨ AnimationKind.ofName? spec.kind = none) :
    ∃ e, engine.start nodes id spec = .error e := by
  unfold Engine.start
  cases hkind : AnimationKind.ofName? spec.kind with
  | none => exact ⟨_, rfl⟩
  | some kind =>
    rcases h with hnode | hnone
    · rw [hnode]
      exact ⟨_, rfl⟩
    · cases hkind.symm.trans hnone

omit [RenderNode ν] in
/-- Another tween on a track is another engine. -/
theorem withTrack_tween_eq_self_iff (tween : Tween κ) :
    engine.withTrack id { engine.track id with tween := some tween } = engine ↔
      (engine.tracks.find? id).bind (·.tween) = some tween := by
  constructor
  · intro h
    have hfound := congrArg (fun e : Engine κ => (e.tracks.find? id).bind (·.tween)) h
    rw [← hfound]
    show (Table.find? (engine.tracks.insert id _) id).bind (·.tween) = _
    rw [Table.find?_insert_self]
    rfl
  · intro h
    obtain ⟨track, hfind, htween⟩ := Option.bind_eq_some_iff.mp h
    have htrack : engine.track id = track := by
      unfold Engine.track
      rw [hfind]
      rfl
    have hsame : { track with tween := some tween } = track := by rw [← htween]
    rw [htrack, hsame]
    refine congrArg (Engine.mk engine.settings) (Table.ext_find? fun name => ?_)
    rw [Table.find?_insert]
    split
    · next hname => rw [hname, hfind]
    · rfl

end Engine

end Engine

namespace Session

variable {σ ν : Type} [WordSource σ]

/-! ## Operands -/

/-- The values that a statement reads. -/
def readings (s : Session σ ν) (statement : Statement) : List Value :=
  (Expression.evaluateAll (.ofVariables s.bindings) statement.operands s.source).1

/-- The session in which the operands of a statement have been read. -/
def afterReading (s : Session σ ν) (statement : Statement) : Session σ ν :=
  { s with
    source := (Expression.evaluateAll (.ofVariables s.bindings) statement.operands s.source).2 }

/-- Reading the values of a tween draws random words, and no more. -/
theorem tweenTargets_snd (s : Session σ ν) (properties : List (String × Expression)) :
    (s.tweenTargets properties).2 =
      { s with source := (Expression.evaluateAll (.ofVariables s.bindings)
        (properties.map (·.2)) s.source).2 } := by
  induction properties generalizing s with
  | nil => rfl
  | cons property rest ih => exact ih (s.evaluate property.2).2

theorem tweenTargets_eq_nil (s : Session σ ν) (properties : List (String × Expression))
    (h : ∀ value ∈ (Expression.evaluateAll (.ofVariables s.bindings) (properties.map (·.2))
      s.source).1, value.toNumber.isFinite = false) : (s.tweenTargets properties).1 = [] := by
  induction properties generalizing s with
  | nil => rfl
  | cons property rest ih =>
    obtain ⟨hfirst, hrest⟩ := List.forall_mem_cons.mp h
    have hnone := ih (s.evaluate property.2).2 hrest
    exact (if_neg (ne_true_of_eq_false hfirst)).trans hnone

variable [RenderNode ν]

/-! ## Movements with nothing to apply -/

/-- Whether a statement is a movement that finds nothing valid to apply. -/
def HasNothingToApply (s : Session σ ν) (statement : Statement) : Prop :=
  match statement with
  | .move target _ _ _ =>
    (∃ value ∈ s.readings statement, value.toNumber.isFinite = false) ∨
      s.nodes.find? target = none
  | .tween target _ _ =>
    (∀ value ∈ s.readings statement, value.toNumber.isFinite = false) ∨
      s.nodes.find? target = none
  | .animate target animation =>
    s.nodes.find? target = none ∨ AnimationKind.ofName? animation.kind = none
  | _ => False

variable (s : Session σ ν)

omit [WordSource σ] in
theorem moveAgent_of_not_finite (target : String) {x y : Float} (options : TweenOptions)
    (h : x.isFinite = false ∨ y.isFinite = false) : s.moveAgent target x y options = s := by
  refine if_neg ?_
  rw [Bool.and_eq_true]
  rintro ⟨hx, hy⟩
  rcases h with h | h
  · cases hx.symm.trans h
  · cases hy.symm.trans h

omit [WordSource σ] in
theorem moveAgent_of_find?_none {target : String} (x y : Float) (options : TweenOptions)
    (h : s.nodes.find? target = none) : s.moveAgent target x y options = s := by
  unfold moveAgent
  split
  · rw [Engine.move, Engine.tween_of_find?_none h]
  · rfl

theorem execute_move_of_nothing {target : String} {x y : Expression} {options : TweenOptions}
    (h : s.HasNothingToApply (.move target x y options)) :
    s.execute (.move target x y options) = s.afterReading (.move target x y options) := by
  have heq : s.execute (.move target x y options) =
      (s.afterReading (.move target x y options)).moveAgent target
        (s.evaluate x).1.toNumber ((s.evaluate x).2.evaluate y).1.toNumber options := rfl
  rw [heq]
  rcases h with ⟨value, hvalue, hfinite⟩ | hnode
  · refine moveAgent_of_not_finite _ target options ?_
    rcases List.mem_cons.mp hvalue with rfl | hlast
    · exact .inl hfinite
    · rw [List.mem_singleton.mp hlast] at hfinite
      exact .inr hfinite
  · exact moveAgent_of_find?_none _ _ _ options hnode

theorem execute_animate_of_nothing {target : String} {animation : AnimationSpec}
    (h : s.HasNothingToApply (.animate target animation)) :
    s.execute (.animate target animation) = s := by
  obtain ⟨e, herror⟩ : ∃ e, s.engine.start s.nodes target animation = .error e :=
    Engine.start_eq_error h
  simp only [execute]
  rw [herror]

/-- The engine that a movement with nothing to apply leaves: a tween of no property is begun
where there is a node. -/
def engineAfter (s : Session σ ν) : Statement → Engine Unit
  | .tween target _ options =>
    match s.nodes.find? target with
    | none => s.engine
    | some _ => s.engine.withTrack target
        { s.engine.track target with tween := some (.bare s.engine.settings options) }
  | _ => s.engine

/-- Whether a statement is a tween whose agent has a node, and no tween of no property that has
just begun. -/
def BeginsBare (s : Session σ ν) : Statement → Prop
  | .tween target _ options =>
    (s.nodes.find? target).isSome = true ∧
      (s.engine.tracks.find? target).bind (·.tween) ≠ some (.bare s.engine.settings options)
  | _ => False

/-- A tween is handed on with the properties that have finite values. -/
theorem execute_tween (target : String) (properties : Table Expression) (options : TweenOptions) :
    s.execute (.tween target properties options) =
      match s.engine.tween s.nodes target
        ⟨(s.tweenTargets properties.entries).1, options.duration, options.easing⟩ none with
      | .ok engine => { s.afterReading (.tween target properties options) with engine }
      | .error _ => s.afterReading (.tween target properties options) := by
  have hafter : (s.tweenTargets properties.entries).2 =
      s.afterReading (.tween target properties options) :=
    s.tweenTargets_snd properties.entries
  simp only [execute]
  rw [hafter]
  rfl

theorem execute_tween_of_nothing {target : String} {properties : Table Expression}
    {options : TweenOptions} (h : s.HasNothingToApply (.tween target properties options)) :
    s.execute (.tween target properties options) =
      { s.afterReading (.tween target properties options) with
        engine := s.engineAfter (.tween target properties options) } := by
  rw [execute_tween]
  unfold engineAfter
  dsimp only
  cases hnode : s.nodes.find? target with
  | none => rw [Engine.tween_of_find?_none hnode]; rfl
  | some node =>
    have hnil : (s.tweenTargets properties.entries).1 = [] := by
      rcases h with hvalues | hnone
      · exact s.tweenTargets_eq_nil properties.entries hvalues
      · cases hnode.symm.trans hnone
    rw [hnil, Engine.tween_bare hnode]

omit [WordSource σ] [RenderNode ν] in
theorem engineAfter_eq_iff (statement : Statement) :
    s.engineAfter statement = s.engine ↔ ¬ s.BeginsBare statement := by
  cases statement with
  | tween target properties options =>
    unfold engineAfter BeginsBare
    dsimp only
    cases s.nodes.find? target with
    | none => exact ⟨fun _ h => Bool.false_ne_true h.1, fun _ => rfl⟩
    | some node =>
      dsimp only
      rw [Engine.withTrack_tween_eq_self_iff, not_and, Classical.not_not]
      exact ⟨fun h _ => h, fun h => h rfl⟩
  | _ => exact ⟨fun _ h => h, fun _ => rfl⟩

/-- A movement with nothing to apply draws the random words of its operands, and begins a tween
of no property if it is a tween whose agent has a node.  So nothing else happens exactly if it does
not begin such a tween. -/
theorem execute_of_hasNothingToApply (statement : Statement) (h : s.HasNothingToApply statement) :
    s.execute statement =
        { s.afterReading statement with engine := s.engineAfter statement } ∧
      (s.execute statement = s.afterReading statement ↔ ¬ s.BeginsBare statement) := by
  have heq : s.execute statement =
      { s.afterReading statement with engine := s.engineAfter statement } := by
    cases statement with
    | move target x y options => exact s.execute_move_of_nothing h
    | tween target properties options => exact s.execute_tween_of_nothing h
    | animate target animation => exact s.execute_animate_of_nothing h
    | _ => exact absurd h id
  refine ⟨heq, ?_⟩
  rw [heq, ← engineAfter_eq_iff]
  constructor
  · intro hsame
    exact congrArg Session.engine hsame
  · intro hengine
    rw [hengine]
    rfl

/-! ## A walk -/

/-- A hero with a node, on the way from one side to the other. -/
def walk : Session WordScript SceneNode :=
  (new {} (Table.ofList [("hero", .atPoint ⟨0.0, 0.0⟩)]) ⟨[7]⟩).execute
    (.move "hero" (.number 100.0) (.number 0.0) ⟨some 1000, some "linear"⟩)

/-- A movement with a word for its second coordinate; a random word is drawn for the first one. -/
def stray : Statement :=
  .move "hero" (.random (.range (.number 1.0) (.number 6.0))) (.string "up") ⟨none, none⟩

/-- It leaves the hero on the way. -/
theorem execute_stray : walk.HasNothingToApply stray ∧
    walk.execute stray = { walk.afterReading stray with engine := walk.engineAfter stray } ∧
    (walk.execute stray = walk.afterReading stray ↔ ¬ walk.BeginsBare stray) := by
  have hnothing : walk.HasNothingToApply stray := .inl (by decide +kernel)
  exact ⟨hnothing, walk.execute_of_hasNothingToApply stray hnothing⟩

/-- A tween with a word for its only value. -/
def aimless : Statement := .tween "hero" (Table.ofList [("x", .string "left")]) ⟨none, none⟩

/-- Where the hero of a session is, from left to right. -/
def heroPlace (s : Session WordScript SceneNode) : Option Float :=
  (s.nodes.find? "hero").map fun node => node.transform.x

/-- It has nothing to apply either, and yet it ends the walk halfway. -/
theorem heroPlace_after_aimless : walk.HasNothingToApply aimless ∧
    (walk.execute aimless).engine ≠ walk.engine ∧
    heroPlace ((walk.tick 500.0).tick 500.0) = some 100.0 ∧
    heroPlace (((walk.tick 500.0).execute aimless).tick 500.0) = some 50.0 := by
  refine ⟨.inl (by decide +kernel), ?_, by decide +kernel, by decide +kernel⟩
  intro heq
  have hmotions : ((walk.execute aimless).engine.track "hero").tween.map (·.motions.length) =
      (walk.engine.track "hero").tween.map (·.motions.length) := by rw [heq]
  exact absurd hmotions (by decide +kernel)

end Session

end Storybook
