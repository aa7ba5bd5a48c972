/-
# `Storybook.Proofs.Story.RoundTrip` — stories that are read as they were written

A story whose numbers are finite is read from its JSON as it was.  The proof follows the
types of a story upwards: records of plain values, expressions, statements, agents, pages.

Expressions, statements and agents contain others of their sort, and their readers count down
the depth of the document.  So the three inductions are over the value, for every depth that is
enough for its JSON: the values inside it lie less deep (`Json.variantWithin?_variant`).
-/
import Storybook.Proofs.Json.Record
import Storybook.Proofs.Story.Finite
import Storybook.Story.Decoding

namespace Storybook

open Json (fieldsOf Restores)

/-! ## Names -/

theorem BinaryOperator.restores (op : BinaryOperator) (nested : Bool) :
    Restores (Json.name? nested ofSymbol?) (fun op => .str op.symbol) op :=
  Json.restores_name (by cases op <;> decide) nested

theorem UnaryOperator.restores (op : UnaryOperator) (nested : Bool) :
    Restores (Json.name? nested ofSymbol?) (fun op => .str op.symbol) op :=
  Json.restores_name (by cases op <;> decide) nested

theorem Gesture.restores (gesture : Gesture) (nested : Bool) :
    Restores (Json.name? nested ofName?) (fun gesture => .str gesture.name) gesture :=
  Json.restores_name (by cases gesture <;> decide) nested

/-! ## Records of plain values -/

theorem StringPart.restores (part : StringPart) : Restores ofJson? toJson part := by
  cases part with
  | text literal => exact ⟨nofun, rfl⟩
  | placeholder name =>
      refine ⟨nofun, ?_⟩
      simp [toJson, Json.variant, ofJson?, Json.slots?, Json.required, Json.str?]

theorem Point.restores {p : Point} (h : p.isFinite = true) : Restores ofJson? toJson p := by
  obtain ⟨hx, hy⟩ := (Bool.and_eq_true _ _).mp h
  refine ⟨nofun, ?_⟩
  simp [toJson, ofJson?, (Json.restores_float hx).read_write, (Json.restores_float hy).read_write]

theorem Point.optional_point {p : Option Point} (h : p.all Point.isFinite = true) :
    Json.optional ofJson? (p.map toJson) = some p :=
  Json.optional_map fun q hq => Point.restores ((Option.all_eq_true _ _).mp h q hq)

theorem AnimationSpec.toJson_eq (a : AnimationSpec) :
    a.toJson = .obj (fieldsOf ["kind", "durationMs", "repeat"]
      [some (.str a.kind), a.duration.map Json.ofUInt64, a.cycles.map Json.ofInt64]) := by
  simp [toJson, fieldsOf, Json.field?_some]

theorem AnimationSpec.restores (a : AnimationSpec) : Restores ofJson? toJson a := by
  refine ⟨nofun, ?_⟩
  rw [toJson_eq, ofJson?, Json.slots?_fieldsOf (by decide) rfl]
  simp [Json.required_some (Json.restores_str _),
    Json.optional_map fun n _ => Json.restores_uint64 n,
    Json.optional_map fun n _ => Json.restores_int64 n]

theorem TweenOptions.toJson_eq (o : TweenOptions) :
    o.toJson = .obj (fieldsOf ["durationMs", "easing"]
      [o.duration.map Json.ofUInt64, o.easing.map Json.str]) := by
  simp [toJson, fieldsOf]

theorem TweenOptions.restores (o : TweenOptions) : Restores ofJson? toJson o := by
  refine ⟨nofun, ?_⟩
  rw [toJson_eq, ofJson?, Json.slots?_fieldsOf (by decide) rfl]
  simp [Json.optional_map fun n _ => Json.restores_uint64 n,
    Json.optional_map fun s _ => Json.restores_str s]

theorem Json.optional_float {x : Option Float} (h : x.all Float.isFinite = true) :
    Json.optional Json.float? (x.map Json.ofFloat) = some x :=
  Json.optional_map fun y hy => Json.restores_float ((Option.all_eq_true _ _).mp h y hy)

theorem MusicOptions.toJson_eq (o : MusicOptions) :
    o.toJson = .obj (fieldsOf ["looping", "volume"]
      [some (.bool o.looping), o.volume.map Json.ofFloat]) := by
  simp [toJson, fieldsOf, Json.field?_some]

theorem MusicOptions.restores {o : MusicOptions} (h : o.volume.all Float.isFinite = true) :
    Restores ofJson? toJson o := by
  refine ⟨nofun, ?_⟩
  rw [toJson_eq, ofJson?, Json.slots?_fieldsOf (by decide) rfl]
  simp [Json.defaulted_some (Json.restores_bool _), Json.optional_float h]

/-! ## Expressions -/

namespace Expression

theorem toJson_ne_null (e : Expression) : e.toJson ≠ .null := by
  cases e <;> simp [toJson, Json.variant]

mutual

/-- An expression is read from its JSON as it was, with any depth that is enough for it. -/
theorem variantWithin?_toJson : ∀ (e : Expression) {depth : Nat} (nested : Bool),
    e.isFinite = true → e.toJson.depth ≤ depth →
      Json.variantWithin? kinds ofFields? depth nested e.toJson = some e
  | number value, _, nested, hfinite, hdepth => by
      refine Json.variantWithin?_leaf "number" ["value"]
        [some (.ofFloat value)] (by decide) rfl hdepth nested fun _ => ?_
      rw [ofFields?, Json.slots?_fieldsOf (by decide) rfl]
      simp [Json.required_some (Json.restores_float hfinite)]
  | string value, _, nested, _, hdepth => by
      refine Json.variantWithin?_leaf "string" ["value"]
        [some (.str value)] (by decide) rfl hdepth nested fun _ => ?_
      rw [ofFields?, Json.slots?_fieldsOf (by decide) rfl]
      simp [Json.required_some (Json.restores_str _)]
  | boolean value, _, nested, _, hdepth => by
      refine Json.variantWithin?_leaf "boolean" ["value"]
        [some (.bool value)] (by decide) rfl hdepth nested fun _ => ?_
      rw [ofFields?, Json.slots?_fieldsOf (by decide) rfl]
      simp [Json.required_some (Json.restores_bool _)]
  | var name, _, nested, _, hdepth => by
      refine Json.variantWithin?_leaf "variable" ["name"]
        [some (.str name)] (by decide) rfl hdepth nested fun _ => ?_
      rw [ofFields?, Json.slots?_fieldsOf (by decide) rfl]
      simp [Json.required_some (Json.restores_str _)]
  | binary op left right, _, nested, hfinite, hdepth => by
      obtain ⟨hleft, hright⟩ := (Bool.and_eq_true _ _).mp hfinite
      obtain ⟨inside, hinside, hwithin⟩ := Json.variantWithin?_variant "binary_op"
        ["op", "left", "right"] [some (.str op.symbol), some left.toJson, some right.toJson]
        (by decide) rfl hdepth nested
      have hleft := variantWithin?_toJson left true hleft (hinside _ (by simp))
      have hright := variantWithin?_toJson right true hright (hinside _ (by simp))
      refine hwithin.trans ?_
      rw [ofFields?, Json.slots?_fieldsOf (by decide) rfl]
      simp [Json.required_some (op.restores true), Json.required_eq hleft,
        Json.required_eq hright]
  | unary op operand, _, nested, hfinite, hdepth => by
      obtain ⟨inside, hinside, hwithin⟩ := Json.variantWithin?_variant "unary_op"
        ["op", "operand"] [some (.str op.symbol), some operand.toJson] (by decide) rfl hdepth
        nested
      have hoperand := variantWithin?_toJson operand true hfinite (hinside _ (by simp))
      refine hwithin.trans ?_
      rw [ofFields?, Json.slots?_fieldsOf (by decide) rfl]
      simp [Json.required_some (op.restores true), Json.required_eq hoperand]
  | range first last, _, nested, hfinite, hdepth => by
      obtain ⟨hfirst, hlast⟩ := (Bool.and_eq_true _ _).mp hfinite
      obtain ⟨inside, hinside, hwithin⟩ := Json.variantWithin?_variant "range"
        ["start", "end"] [some first.toJson, some last.toJson] (by decide) rfl hdepth nested
      have hfirst := variantWithin?_toJson first true hfirst (hinside _ (by simp))
      have hlast := variantWithin?_toJson last true hlast (hinside _ (by simp))
      refine hwithin.trans ?_
      rw [ofFields?, Json.slots?_fieldsOf (by decide) rfl]
      simp [Json.required_eq hfirst, Json.required_eq hlast]
  | random source, _, nested, hfinite, hdepth => by
      obtain ⟨inside, hinside, hwithin⟩ := Json.variantWithin?_variant "random" ["range"]
        [some source.toJson] (by decide) rfl hdepth nested
      have hsource := variantWithin?_toJson source true hfinite (hinside _ (by simp))
      refine hwithin.trans ?_
      rw [ofFields?, Json.slots?_fieldsOf (by decide) rfl]
      simp [Json.required_eq hsource]
  | pickOne options, _, nested, hfinite, hdepth => by
      obtain ⟨inside, hinside, hwithin⟩ := Json.variantWithin?_variant "pick_one" ["options"]
        [some (.arr (toJsons options))] (by decide) rfl hdepth nested
      have hoptions := mapM_variantWithin?_toJsons options hfinite
        (Json.depthItems_le (hinside (.arr (toJsons options)) (by simp)))
      refine hwithin.trans ?_
      rw [ofFields?, Json.slots?_fieldsOf (by decide) rfl]
      simp [Json.required_arr, hoptions]
  | interpolated parts, _, nested, _, hdepth => by
      refine Json.variantWithin?_leaf "interpolated_string" ["parts"]
        [some (.arr (parts.map StringPart.toJson))] (by decide) rfl hdepth nested fun _ => ?_
      rw [ofFields?, Json.slots?_fieldsOf (by decide) rfl]
      simp [Json.required_some (Json.list?_map fun part _ => StringPart.restores part)]
  | unknown, _, nested, _, hdepth =>
      Json.variantWithin?_leaf "unknown" [] [] (by decide) rfl hdepth nested fun _ => rfl

theorem mapM_variantWithin?_toJsons : ∀ (es : List Expression) {depth : Nat},
    areFinite es = true → Json.depthItems (toJsons es) ≤ depth →
      (toJsons es).mapM (Json.variantWithin? kinds ofFields? depth true) = some es
  | [], _, _, _ => rfl
  | e :: rest, depth, hfinite, hdepth => by
      obtain ⟨he, hrest⟩ := (Bool.and_eq_true _ _).mp hfinite
      have hmax : max e.toJson.depth (Json.depthItems (toJsons rest)) ≤ depth := hdepth
      have he := variantWithin?_toJson e true he (Nat.le_trans (Nat.le_max_left _ _) hmax)
      have hrest :=
        mapM_variantWithin?_toJsons rest hrest (Nat.le_trans (Nat.le_max_right _ _) hmax)
      simp [toJsons, List.mapM_cons, he, hrest]

end

theorem restores {e : Expression} (h : e.isFinite = true) (nested : Bool) :
    Restores (ofJson? nested) toJson e :=
  ⟨e.toJson_ne_null, variantWithin?_toJson e nested h (Nat.le_refl _)⟩

end Expression

/-! ## Statements -/

namespace Statement

theorem toJson_ne_null (statement : Statement) : statement.toJson ≠ .null := by
  cases statement <;> simp [toJson, Json.variant]

theorem properties_restores {properties : Table Expression}
    (h : properties.entries.all (·.2.isFinite) = true) :
    Restores (Json.table? (Expression.ofJson? true))
      (fun t => .obj (t.mapValues fun _ value => value.toJson).entries) properties :=
  Json.table?_mapValues fun e he => Expression.restores (List.all_eq_true.mp h e he) true

theorem playSound_toJson (src : String) (volume : Option Float) :
    (playSound src volume).toJson = .variant "play_sound" (fieldsOf ["src", "volume"]
      [some (.str src), volume.map Json.ofFloat]) := by
  simp [toJson, fieldsOf, Json.field?_some]

theorem stopSound_toJson (src : Option String) :
    (stopSound src).toJson = .variant "stop_sound" (fieldsOf ["src"] [src.map Json.str]) := by
  simp [toJson, fieldsOf]

mutual

/-- A statement is read from its JSON as it was, with any depth that is enough for it. -/
theorem variantWithin?_toJson : ∀ (s : Statement) {depth : Nat} (nested : Bool),
    s.isFinite = true → s.toJson.depth ≤ depth →
      Json.variantWithin? kinds ofFields? depth nested s.toJson = some s
  | init name value, _, nested, hfinite, hdepth => by
      refine Json.variantWithin?_leaf "init" ["name", "value"]
        [some (.str name), some value.toJson] (by decide) rfl hdepth nested fun _ => ?_
      rw [ofFields?, Json.slots?_fieldsOf (by decide) rfl]
      simp [Json.required_some (Json.restores_str _),
        Json.required_some (Expression.restores hfinite true)]
  | set name value, _, nested, hfinite, hdepth => by
      refine Json.variantWithin?_leaf "set" ["name", "value"]
        [some (.str name), some value.toJson] (by decide) rfl hdepth nested fun _ => ?_
      rw [ofFields?, Json.slots?_fieldsOf (by decide) rfl]
      simp [Json.required_some (Json.restores_str _),
        Json.required_some (Expression.restores hfinite true)]
  | add name amount, _, nested, hfinite, hdepth => by
      refine Json.variantWithin?_leaf "add" ["name", "amount"]
        [some (.str name), some amount.toJson] (by decide) rfl hdepth nested fun _ => ?_
      rw [ofFields?, Json.slots?_fieldsOf (by decide) rfl]
      simp [Json.required_some (Json.restores_str _),
        Json.required_some (Expression.restores hfinite true)]
  | subtract name amount, _, nested, hfinite, hdepth => by
      refine Json.variantWithin?_leaf "subtract" ["name", "amount"]
        [some (.str name), some amount.toJson] (by decide) rfl hdepth nested fun _ => ?_
      rw [ofFields?, Json.slots?_fieldsOf (by decide) rfl]
      simp [Json.required_some (Json.restores_str _),
        Json.required_some (Expression.restores hfinite true)]
  | goToPage page, _, nested, _, hdepth => by
      refine Json.variantWithin?_leaf "go_to_page" ["page"]
        [some (.ofInt64 page)] (by decide) rfl hdepth nested fun _ => ?_
      rw [ofFields?, Json.slots?_fieldsOf (by decide) rfl]
      simp [Json.required_some (Json.restores_int64 _)]
  | goBack, _, nested, _, hdepth =>
      Json.variantWithin?_leaf "go_back" [] [] (by decide) rfl hdepth nested fun _ => rfl
  | move target x y options, _, nested, hfinite, hdepth => by
      obtain ⟨hx, hy⟩ := (Bool.and_eq_true _ _).mp hfinite
      refine Json.variantWithin?_leaf "move" ["target", "x", "y", "options"]
        [some (.str target), some x.toJson, some y.toJson, some options.toJson] (by decide) rfl
        hdepth nested fun _ => ?_
      rw [ofFields?, Json.slots?_fieldsOf (by decide) rfl]
      simp [Json.required_some (Json.restores_str _),
        Json.required_some (Expression.restores hx true),
        Json.required_some (Expression.restores hy true),
        Json.defaulted_some (TweenOptions.restores _)]
  | tween target properties options, _, nested, hfinite, hdepth => by
      refine Json.variantWithin?_leaf "tween" ["target", "properties", "options"]
        [some (.str target),
          some (.obj (properties.mapValues fun _ value => value.toJson).entries),
          some options.toJson] (by decide) rfl hdepth nested fun _ => ?_
      rw [ofFields?, Json.slots?_fieldsOf (by decide) rfl]
      simp [Json.required_some (Json.restores_str _),
        Json.required_some (properties_restores hfinite),
        Json.defaulted_some (TweenOptions.restores _)]
  | animate target animation, _, nested, _, hdepth => by
      refine Json.variantWithin?_leaf "animate" ["target", "animation"]
        [some (.str target), some animation.toJson] (by decide) rfl hdepth nested fun _ => ?_
      rw [ofFields?, Json.slots?_fieldsOf (by decide) rfl]
      simp [Json.required_some (Json.restores_str _),
        Json.required_some (AnimationSpec.restores _)]
  | stopAnimation target, _, nested, _, hdepth => by
      refine Json.variantWithin?_leaf "stop_animation" ["target"]
        [some (.str target)] (by decide) rfl hdepth nested fun _ => ?_
      rw [ofFields?, Json.slots?_fieldsOf (by decide) rfl]
      simp [Json.required_some (Json.restores_str _)]
  | playSound src volume, _, nested, hfinite, hdepth => by
      rw [playSound_toJson] at hdepth ⊢
      refine Json.variantWithin?_leaf "play_sound" ["src", "volume"]
        [some (.str src), volume.map Json.ofFloat] (by decide) rfl hdepth nested fun _ => ?_
      rw [ofFields?, Json.slots?_fieldsOf (by decide) rfl]
      simp [Json.required_some (Json.restores_str _),
        Json.optional_float hfinite]
  | stopSound src, _, nested, _, hdepth => by
      rw [stopSound_toJson] at hdepth ⊢
      refine Json.variantWithin?_leaf "stop_sound" ["src"]
        [src.map Json.str] (by decide) rfl hdepth nested fun _ => ?_
      rw [ofFields?, Json.slots?_fieldsOf (by decide) rfl]
      simp [Json.optional_map fun s _ => Json.restores_str s]
  | stopMusic, _, nested, _, hdepth =>
      Json.variantWithin?_leaf "stop_music" [] [] (by decide) rfl hdepth nested fun _ => rfl
  | music src options, _, nested, hfinite, hdepth => by
      refine Json.variantWithin?_leaf "music" ["src", "options"]
        [some (.str src), some options.toJson] (by decide) rfl hdepth nested fun _ => ?_
      rw [ofFields?, Json.slots?_fieldsOf (by decide) rfl]
      simp [Json.required_some (Json.restores_str _),
        Json.defaulted_some (MusicOptions.restores hfinite)]
  | wait duration actions, _, nested, hfinite, hdepth => by
      obtain ⟨inside, hinside, hwithin⟩ := Json.variantWithin?_variant "wait"
        ["durationMs", "actions"] [some (.ofUInt64 duration), some (.arr (toJsons actions))]
        (by decide) rfl hdepth nested
      have hactions := mapM_variantWithin?_toJsons actions hfinite
        (Json.depthItems_le (hinside (.arr (toJsons actions)) (by simp)))
      refine hwithin.trans ?_
      rw [ofFields?, Json.slots?_fieldsOf (by decide) rfl]
      simp [Json.required_some (Json.restores_uint64 _), Json.required_arr, hactions]
  | timer interval times actions, _, nested, hfinite, hdepth => by
      obtain ⟨inside, hinside, hwithin⟩ := Json.variantWithin?_variant "timer"
        ["intervalMs", "repeat", "actions"]
        [some (.ofUInt64 interval), times.map Json.ofUInt32, some (.arr (toJsons actions))]
        (by decide) rfl hdepth nested
      have hactions := mapM_variantWithin?_toJsons actions hfinite
        (Json.depthItems_le (hinside (.arr (toJsons actions)) (by simp)))
      refine hwithin.trans ?_
      rw [ofFields?, Json.slots?_fieldsOf (by decide) rfl]
      simp [Json.required_some (Json.restores_uint64 _),
        Json.optional_map fun n _ => Json.restores_uint32 n, Json.required_arr, hactions]
  | unknown, _, nested, _, hdepth =>
      Json.variantWithin?_leaf "unknown" [] [] (by decide) rfl hdepth nested fun _ => rfl

theorem mapM_variantWithin?_toJsons : ∀ (l : List Statement) {depth : Nat},
    areFinite l = true → Json.depthItems (toJsons l) ≤ depth →
      (toJsons l).mapM (Json.variantWithin? kinds ofFields? depth true) = some l
  | [], _, _, _ => rfl
  | s :: rest, depth, hfinite, hdepth => by
      obtain ⟨hs, hrest⟩ := (Bool.and_eq_true _ _).mp hfinite
      have hmax : max s.toJson.depth (Json.depthItems (toJsons rest)) ≤ depth := hdepth
      have hs := variantWithin?_toJson s true hs (Nat.le_trans (Nat.le_max_left _ _) hmax)
      have hrest :=
        mapM_variantWithin?_toJsons rest hrest (Nat.le_trans (Nat.le_max_right _ _) hmax)
      simp [toJsons, List.mapM_cons, hs, hrest]

end

theorem restores {s : Statement} (h : s.isFinite = true) (nested : Bool) :
    Restores (ofJson? nested) toJson s :=
  ⟨s.toJson_ne_null, variantWithin?_toJson s nested h (Nat.le_refl _)⟩

theorem toJsons_eq_map (l : List Statement) : toJsons l = l.map toJson := by
  induction l with
  | nil => rfl
  | cons s rest ih => rw [toJsons, ih, List.map_cons]

theorem list_restores {l : List Statement} (h : areFinite l = true) (nested : Bool) :
    Restores (Json.list? (ofJson? nested)) (fun l => .arr (toJsons l)) l := by
  simp only [toJsons_eq_map]
  rw [areFinite_eq_all] at h
  exact Json.list?_map fun s hs => restores (List.all_eq_true.mp h s hs) nested

end Statement

/-! ## Agents -/

theorem Handler.restores {h : Handler} (hfinite : h.isFinite = true) :
    Restores ofJson? toJson h := by
  refine ⟨nofun, ?_⟩
  have hfields : h.toJson = .obj (fieldsOf ["type", "statements"]
      [some (.str h.gesture.name), some (.arr (Statement.toJsons h.statements))]) := rfl
  rw [hfields, ofJson?, Json.slots?_fieldsOf (by decide) rfl]
  simp [Json.required_some (h.gesture.restores true),
    Json.required_some (Statement.list_restores hfinite true)]

namespace TextAgent

/-- The values of the fields of a text. -/
def values (a : TextAgent) : List (Option Json) :=
  [some (.str a.id), some a.content.toJson, a.position.map Point.toJson,
    a.fontSize.map Json.ofFloat, a.color.map Json.str, a.animation.map AnimationSpec.toJson]

theorem toJson_eq (a : TextAgent) :
    a.toJson = .variant "text" (fieldsOf fieldNames a.values) := by
  simp [toJson, fieldsOf, fieldNames, values, Json.field?_some]

theorem ofFields?_values {a : TextAgent} (h : (Agent.text a).isFinite = true) :
    ofFields? (.obj (fieldsOf fieldNames a.values)) = some a := by
  simp only [Agent.isFinite, Bool.and_eq_true] at h
  obtain ⟨⟨hcontent, hposition⟩, hfont⟩ := h
  rw [ofFields?, Json.slots?_fieldsOf (by decide) rfl]
  simp [values, Json.required_some (Json.restores_str _),
    Json.required_some (Expression.restores hcontent true),
    Point.optional_point hposition,
    Json.optional_float hfont,
    Json.optional_map fun s _ => Json.restores_str s,
    Json.optional_map fun a _ => AnimationSpec.restores a]

end TextAgent

namespace ButtonAgent

def values (a : ButtonAgent) : List (Option Json) :=
  [some (.str a.id), some a.label.toJson, a.position.map Point.toJson, a.size.map Point.toJson,
    a.color.map Json.str, a.animation.map AnimationSpec.toJson,
    some (.arr (a.handlers.map Handler.toJson))]

theorem toJson_eq (a : ButtonAgent) :
    a.toJson = .variant "button" (fieldsOf fieldNames a.values) := by
  simp [toJson, fieldsOf, fieldNames, values, Json.field?_some]

theorem ofFields?_values {a : ButtonAgent} (h : (Agent.button a).isFinite = true) :
    ofFields? (.obj (fieldsOf fieldNames a.values)) = some a := by
  simp only [Agent.isFinite, Bool.and_eq_true] at h
  obtain ⟨⟨⟨hlabel, hposition⟩, hsize⟩, hhandlers⟩ := h
  have hevents : ∀ h ∈ a.handlers, Restores Handler.ofJson? Handler.toJson h :=
    fun h hmem => Handler.restores (List.all_eq_true.mp hhandlers h hmem)
  rw [ofFields?, Json.slots?_fieldsOf (by decide) rfl]
  simp [values, Json.required_some (Json.restores_str _),
    Json.required_some (Expression.restores hlabel true),
    Point.optional_point hposition,
    Point.optional_point hsize,
    Json.optional_map fun s _ => Json.restores_str s,
    Json.optional_map fun a _ => AnimationSpec.restores a,
    Json.defaulted_some (Json.list?_map hevents)]

end ButtonAgent

namespace ImageAgent

def values (a : ImageAgent) : List (Option Json) :=
  [some (.str a.id), some (.str a.src), a.position.map Point.toJson, a.size.map Point.toJson,
    a.animation.map AnimationSpec.toJson]

theorem toJson_eq (a : ImageAgent) :
    a.toJson = .variant "image" (fieldsOf fieldNames a.values) := by
  simp [toJson, fieldsOf, fieldNames, values, Json.field?_some]

theorem ofFields?_values {a : ImageAgent} (h : (Agent.image a).isFinite = true) :
    ofFields? (.obj (fieldsOf fieldNames a.values)) = some a := by
  obtain ⟨hposition, hsize⟩ := (Bool.and_eq_true _ _).mp h
  rw [ofFields?, Json.slots?_fieldsOf (by decide) rfl]
  simp [values, Json.required_some (Json.restores_str _),
    Point.optional_point hposition,
    Point.optional_point hsize,
    Json.optional_map fun a _ => AnimationSpec.restores a]

end ImageAgent

namespace VideoAgent

def values (a : VideoAgent) : List (Option Json) :=
  [some (.str a.id), some (.str a.src), a.position.map Point.toJson, a.size.map Point.toJson,
    some (.bool a.autoplay), some (.bool a.looping), a.animation.map AnimationSpec.toJson]

theorem toJson_eq (a : VideoAgent) :
    a.toJson = .variant "video" (fieldsOf fieldNames a.values) := by
  simp [toJson, fieldsOf, fieldNames, values, Json.field?_some]

theorem ofFields?_values {a : VideoAgent} (h : (Agent.video a).isFinite = true) :
    ofFields? (.obj (fieldsOf fieldNames a.values)) = some a := by
  obtain ⟨hposition, hsize⟩ := (Bool.and_eq_true _ _).mp h
  rw [ofFields?, Json.slots?_fieldsOf (by decide) rfl]
  simp [values, Json.required_some (Json.restores_str _),
    Point.optional_point hposition,
    Point.optional_point hsize,
    Json.defaulted_some (Json.restores_bool _),
    Json.optional_map fun a _ => AnimationSpec.restores a]

end VideoAgent

namespace Agent

theorem toJson_ne_null (agent : Agent) : agent.toJson ≠ .null := by
  cases agent <;>
    simp [toJson, TextAgent.toJson, ButtonAgent.toJson, ImageAgent.toJson, VideoAgent.toJson,
      Json.variant]

mutual

/-- An agent is read from its JSON as it was, with any depth that is enough for it. -/
theorem variantWithin?_toJson : ∀ (a : Agent) {depth : Nat} (nested : Bool),
    a.isFinite = true → a.toJson.depth ≤ depth →
      Json.variantWithin? kinds ofFields? depth nested a.toJson = some a
  | text a, _, nested, hfinite, hdepth => by
      rw [toJson, a.toJson_eq] at hdepth ⊢
      refine Json.variantWithin?_leaf "text" _ a.values (by decide) rfl hdepth nested fun _ => ?_
      rw [ofFields?, TextAgent.ofFields?_values hfinite, Option.map_some]
  | button a, _, nested, hfinite, hdepth => by
      rw [toJson, a.toJson_eq] at hdepth ⊢
      refine Json.variantWithin?_leaf "button" _ a.values (by decide) rfl hdepth nested fun _ => ?_
      rw [ofFields?, ButtonAgent.ofFields?_values hfinite, Option.map_some]
  | image a, _, nested, hfinite, hdepth => by
      rw [toJson, a.toJson_eq] at hdepth ⊢
      refine Json.variantWithin?_leaf "image" _ a.values (by decide) rfl hdepth nested fun _ => ?_
      rw [ofFields?, ImageAgent.ofFields?_values hfinite, Option.map_some]
  | video a, _, nested, hfinite, hdepth => by
      rw [toJson, a.toJson_eq] at hdepth ⊢
      refine Json.variantWithin?_leaf "video" _ a.values (by decide) rfl hdepth nested fun _ => ?_
      rw [ofFields?, VideoAgent.ofFields?_values hfinite, Option.map_some]
  | choice condition agents elseAgents, _, nested, hfinite, hdepth => by
      simp only [isFinite, Bool.and_eq_true] at hfinite
      obtain ⟨⟨hcondition, hagents⟩, helse⟩ := hfinite
      obtain ⟨inside, hinside, hwithin⟩ := Json.variantWithin?_variant "if"
        ["condition", "agents", "elseAgents"]
        [some condition.toJson, some (.arr (toJsons agents)), some (.arr (toJsons elseAgents))]
        (by decide) rfl hdepth nested
      have hagents := mapM_variantWithin?_toJsons agents hagents
        (Json.depthItems_le (hinside (.arr (toJsons agents)) (by simp)))
      have helse := mapM_variantWithin?_toJsons elseAgents helse
        (Json.depthItems_le (hinside (.arr (toJsons elseAgents)) (by simp)))
      refine hwithin.trans ?_
      rw [ofFields?, Json.slots?_fieldsOf (by decide) rfl]
      simp [Json.required_some (Expression.restores hcondition true), Json.required_arr,
        Json.defaulted_arr, hagents, helse]
  | forEach name range agents, _, nested, hfinite, hdepth => by
      obtain ⟨hrange, hagents⟩ := (Bool.and_eq_true _ _).mp hfinite
      obtain ⟨inside, hinside, hwithin⟩ := Json.variantWithin?_variant "for"
        ["variable", "range", "agents"]
        [some (.str name), some range.toJson, some (.arr (toJsons agents))] (by decide) rfl
        hdepth nested
      have hagents := mapM_variantWithin?_toJsons agents hagents
        (Json.depthItems_le (hinside (.arr (toJsons agents)) (by simp)))
      refine hwithin.trans ?_
      rw [ofFields?, Json.slots?_fieldsOf (by decide) rfl]
      simp [Json.required_some (Json.restores_str _),
        Json.required_some (Expression.restores hrange true), Json.required_arr, hagents]
  | wait duration agents actions, _, nested, hfinite, hdepth => by
      obtain ⟨hagents, hactions⟩ := (Bool.and_eq_true _ _).mp hfinite
      obtain ⟨inside, hinside, hwithin⟩ := Json.variantWithin?_variant "wait"
        ["durationMs", "agents", "actions"]
        [some (.ofUInt64 duration), some (.arr (toJsons agents)),
          some (.arr (Statement.toJsons actions))] (by decide) rfl hdepth nested
      have hagents := mapM_variantWithin?_toJsons agents hagents
        (Json.depthItems_le (hinside (.arr (toJsons agents)) (by simp)))
      refine hwithin.trans ?_
      rw [ofFields?, Json.slots?_fieldsOf (by decide) rfl]
      simp [Json.required_some (Json.restores_uint64 _), Json.required_arr, hagents,
        Json.required_some (Statement.list_restores hactions true)]
  | timer interval times actions, _, nested, hfinite, hdepth => by
      refine Json.variantWithin?_leaf "timer" ["intervalMs", "repeat", "actions"]
        [some (.ofUInt64 interval), times.map Json.ofUInt32,
          some (.arr (Statement.toJsons actions))] (by decide) rfl hdepth nested fun _ => ?_
      rw [ofFields?, Json.slots?_fieldsOf (by decide) rfl]
      simp [Json.required_some (Json.restores_uint64 _),
        Json.optional_map fun n _ => Json.restores_uint32 n,
        Json.required_some (Statement.list_restores hfinite true)]

theorem mapM_variantWithin?_toJsons : ∀ (l : List Agent) {depth : Nat},
    areFinite l = true → Json.depthItems (toJsons l) ≤ depth →
      (toJsons l).mapM (Json.variantWithin? kinds ofFields? depth true) = some l
  | [], _, _, _ => rfl
  | a :: rest, depth, hfinite, hdepth => by
      obtain ⟨ha, hrest⟩ := (Bool.and_eq_true _ _).mp hfinite
      have hmax : max a.toJson.depth (Json.depthItems (toJsons rest)) ≤ depth := hdepth
      have ha := variantWithin?_toJson a true ha (Nat.le_trans (Nat.le_max_left _ _) hmax)
      have hrest :=
        mapM_variantWithin?_toJsons rest hrest (Nat.le_trans (Nat.le_max_right _ _) hmax)
      simp [toJsons, List.mapM_cons, ha, hrest]

end

theorem restores {a : Agent} (h : a.isFinite = true) : Restores ofJson? toJson a :=
  ⟨a.toJson_ne_null, variantWithin?_toJson a false h (Nat.le_refl _)⟩

theorem toJsons_eq_map (l : List Agent) : toJsons l = l.map toJson := by
  induction l with
  | nil => rfl
  | cons a rest ih => rw [toJsons, ih, List.map_cons]

theorem list_restores {l : List Agent} (h : areFinite l = true) :
    Restores (Json.list? ofJson?) (fun l => .arr (toJsons l)) l := by
  simp only [toJsons_eq_map]
  rw [areFinite_eq_all] at h
  exact Json.list?_map fun a ha => restores (List.all_eq_true.mp h a ha)

end Agent

/-! ## Pages and stories -/

theorem Page.toJson_eq (page : Page) :
    page.toJson = .obj (fieldsOf fieldNames
      [some (.ofInt64 page.id), some (.arr (Agent.toJsons page.agents)),
        some (.arr (Statement.toJsons page.statements)),
        page.autoAdvance.map Json.ofUInt64]) := by
  simp [toJson, fieldsOf, fieldNames, Json.field?_some]

theorem Page.restores {page : Page} (h : page.isFinite = true) :
    Restores ofJson? toJson page := by
  obtain ⟨hagents, hstatements⟩ := (Bool.and_eq_true _ _).mp h
  refine ⟨nofun, ?_⟩
  rw [toJson_eq, ofJson?, Json.slots?_fieldsOf (by decide) rfl]
  simp [Json.required_some (Json.restores_int64 _),
    Json.required_some (Agent.list_restores hagents),
    Json.required_some (Statement.list_restores hstatements false),
    Json.optional_map fun n _ => Json.restores_uint64 n]

/-- A story whose numbers are finite is read from its JSON as it was. -/
theorem Story.ofJson?_toJson {story : Story} (h : story.isFinite = true) :
    ofJson? story.toJson = some story := by
  obtain ⟨hpages, hstatements⟩ := (Bool.and_eq_true _ _).mp h
  have hfields : story.toJson = .obj (fieldsOf ["title", "pages", "statements"]
      [some (.str story.title), some (.arr (story.pages.map Page.toJson)),
        some (.arr (Statement.toJsons story.statements))]) := rfl
  have hrestores : ∀ page ∈ story.pages, Restores Page.ofJson? Page.toJson page :=
    fun page hpage => Page.restores (List.all_eq_true.mp hpages page hpage)
  rw [hfields, ofJson?, Json.slots?_fieldsOf (by decide) rfl]
  simp [Json.required_some (Json.restores_str _), Json.required_some (Json.list?_map hrestores),
    Json.required_some (Statement.list_restores hstatements false)]

/-- A story with statements inside agents, agents inside agents, and options that are there
and that are not. -/
def lightStory : Story where
  title := "Light"
  pages := [{
    id := 1
    agents := [
      .choice (.binary .less (.var "lamps") (.number 3.0))
        [.text ⟨"hint", .interpolated [.text "Lamp ", .placeholder "lamps"], some ⟨10.0, -0.5⟩,
          none, some "#ffcc00", none⟩]
        [.wait 1500 [] [.unknown]],
      .button ⟨"switch", .unknown, none, some ⟨40.0, 20.0⟩, none, some ⟨"pulse", none, some (-1)⟩,
        [⟨.click, [.timer 250 (some 2) [.playSound "click.ogg" (some 0.5)]]⟩]⟩]
    statements := [.tween "hint" (Table.ofList [("x", .number 5.0), ("opacity", .random
      (.range (.number 0.0) (.number 1.0)))]) ⟨none, some "linear"⟩]
    autoAdvance := some 4000 }]
  statements := [.init "lamps" (.pickOne [.number 1.0, .string "many"])]

theorem Story.ofJson?_toJson_light :
    lightStory.isFinite = true ∧ ofJson? lightStory.toJson = some lightStory :=
  have hfinite : lightStory.isFinite = true := by decide
  ⟨hfinite, ofJson?_toJson hfinite⟩

end Storybook
