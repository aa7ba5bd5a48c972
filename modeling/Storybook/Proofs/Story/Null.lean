/-
# `Storybook.Proofs.Story.Null` — where the JSON of a story has a null

The writer has one use for null: a number that is infinite or NaN.  So the JSON of a story has
a null in it, at any depth, exactly if some number of the story is not finite; and the
documents without one are those that read back.
-/
import Storybook.Proofs.Story.RoundTrip

namespace Storybook

/-! ## Nulls in a value -/

namespace Json

mutual

/-- Whether there is a null in a value, at any depth. -/
def hasNull : Json → Bool
  | null => true
  | arr items => itemsHaveNull items
  | obj fields => fieldsHaveNull fields
  | bool _ | int _ | float _ | str _ => false

def itemsHaveNull : List Json → Bool
  | [] => false
  | item :: rest => hasNull item || itemsHaveNull rest

def fieldsHaveNull : List (String × Json) → Bool
  | [] => false
  | (_, value) :: rest => hasNull value || fieldsHaveNull rest

end

theorem itemsHaveNull_map {α : Type} {write : α → Json} {test : α → Bool} {l : List α}
    (h : ∀ x ∈ l, (write x).hasNull = !test x) : itemsHaveNull (l.map write) = !l.all test := by
  induction l with
  | nil => rfl
  | cons x rest ih =>
    obtain ⟨hx, hrest⟩ := List.forall_mem_cons.mp h
    rw [List.map_cons, itemsHaveNull, hx, ih hrest, List.all_cons, Bool.not_and]

theorem itemsHaveNull_plain {α : Type} {write : α → Json} {l : List α}
    (h : ∀ x ∈ l, (write x).hasNull = false) : itemsHaveNull (l.map write) = false := by
  have hall : (l.all fun _ => true) = true := List.all_eq_true.mpr fun _ _ => rfl
  rw [@itemsHaveNull_map α write (fun _ => true) l h, hall]
  rfl

theorem fieldsHaveNull_append (l l' : List (String × Json)) :
    fieldsHaveNull (l ++ l') = (fieldsHaveNull l || fieldsHaveNull l') := by
  induction l with
  | nil => rfl
  | cons f rest ih => rw [List.cons_append, fieldsHaveNull, fieldsHaveNull, ih, Bool.or_assoc]

/-- An optional value that can be written without null. -/
theorem fieldsHaveNull_field? {α : Type} {write : α → Json} {test : α → Bool}
    (h : ∀ x, (write x).hasNull = !test x) (name : String) (value : Option α) :
    fieldsHaveNull (field? name (value.map write)) = !value.all test := by
  cases value with
  | none => rfl
  | some x => exact (Bool.or_false _).trans (h x)

/-- An optional value that is always written without null. -/
theorem fieldsHaveNull_plain {α : Type} {write : α → Json} (h : ∀ x, (write x).hasNull = false)
    (name : String) (value : Option α) :
    fieldsHaveNull (field? name (value.map write)) = false := by
  cases value with
  | none => rfl
  | some x => exact (Bool.or_false _).trans (h x)

theorem hasNull_ofFloat (x : Float) : (ofFloat x).hasNull = !x.isFinite := by
  unfold ofFloat
  cases x.isFinite <;> rfl

end Json

open Json (hasNull itemsHaveNull fieldsHaveNull fieldsHaveNull_append fieldsHaveNull_field?
  fieldsHaveNull_plain hasNull_ofFloat Restores fieldsOf)

/-! ## Plain values -/

theorem StringPart.hasNull_toJson (part : StringPart) : part.toJson.hasNull = false := by
  cases part <;> rfl

theorem Point.hasNull_toJson (p : Point) : p.toJson.hasNull = !p.isFinite := by
  simp only [toJson, hasNull, itemsHaveNull, hasNull_ofFloat, isFinite, Bool.or_false,
    Bool.not_and]

theorem AnimationSpec.hasNull_toJson (a : AnimationSpec) : a.toJson.hasNull = false := by
  simp only [toJson, hasNull, fieldsHaveNull, fieldsHaveNull_append]
  rw [fieldsHaveNull_plain fun _ => rfl, fieldsHaveNull_plain fun _ => rfl]
  rfl

theorem TweenOptions.hasNull_toJson (o : TweenOptions) : o.toJson.hasNull = false := by
  simp only [toJson, hasNull, fieldsHaveNull_append]
  rw [fieldsHaveNull_plain fun _ => rfl, fieldsHaveNull_plain fun _ => rfl]
  rfl

theorem MusicOptions.hasNull_toJson (o : MusicOptions) :
    o.toJson.hasNull = !o.volume.all Float.isFinite :=
  fieldsHaveNull_field? hasNull_ofFloat "volume" o.volume

/-! ## Expressions and statements -/

namespace Expression

mutual

theorem hasNull_toJson : (e : Expression) → e.toJson.hasNull = !e.isFinite
  | number value => (Bool.or_false _).trans (hasNull_ofFloat value)
  | string _ | boolean _ | var _ | unknown => rfl
  | binary op left right | range left right => by
    simp only [toJson, Json.variant, hasNull, fieldsHaveNull, hasNull_toJson left,
      hasNull_toJson right, isFinite, Bool.or_false, Bool.false_or, Bool.not_and]
  | unary op operand | random operand => by
    simp only [toJson, Json.variant, hasNull, fieldsHaveNull, hasNull_toJson operand, isFinite,
      Bool.or_false, Bool.false_or]
  | pickOne options => (Bool.or_false _).trans (itemsHaveNull_toJsons options)
  | interpolated parts => (Bool.or_false _).trans
    (Json.itemsHaveNull_plain fun part _ => part.hasNull_toJson)

theorem itemsHaveNull_toJsons : (l : List Expression) →
    itemsHaveNull (toJsons l) = !areFinite l
  | [] => rfl
  | e :: rest => by
    rw [toJsons, itemsHaveNull, hasNull_toJson e, itemsHaveNull_toJsons rest, areFinite,
      Bool.not_and]

end

end Expression

namespace Statement

theorem fieldsHaveNull_properties (properties : Table Expression) :
    fieldsHaveNull (properties.mapValues fun _ value => value.toJson).entries =
      !properties.entries.all (·.2.isFinite) := by
  show fieldsHaveNull (properties.entries.map fun e => (e.1, e.2.toJson)) = _
  induction properties.entries with
  | nil => rfl
  | cons e rest ih =>
    rw [List.map_cons, fieldsHaveNull, e.2.hasNull_toJson, ih, List.all_cons, Bool.not_and]

mutual

theorem hasNull_toJson : (s : Statement) → s.toJson.hasNull = !s.isFinite
  | init _ value | set _ value | add _ value | subtract _ value => by
    simp only [toJson, Json.variant, hasNull, fieldsHaveNull, value.hasNull_toJson, isFinite,
      Bool.or_false, Bool.false_or]
  | goToPage _ | goBack | stopAnimation _ | stopMusic | unknown => rfl
  | move _ x y options => by
    simp only [toJson, Json.variant, hasNull, fieldsHaveNull, x.hasNull_toJson, y.hasNull_toJson,
      options.hasNull_toJson, isFinite, Bool.or_false, Bool.false_or, Bool.not_and]
  | tween _ properties options => by
    simp only [toJson, Json.variant, hasNull, fieldsHaveNull, fieldsHaveNull_properties,
      options.hasNull_toJson, isFinite, Bool.or_false, Bool.false_or]
  | animate _ animation => by
    simp only [toJson, Json.variant, hasNull, fieldsHaveNull, animation.hasNull_toJson, isFinite,
      Bool.or_false, Bool.not_true]
  | playSound _ volume => fieldsHaveNull_field? hasNull_ofFloat "volume" volume
  | stopSound src => fieldsHaveNull_plain (fun _ => rfl) "src" src
  | music _ options => (Bool.or_false _).trans options.hasNull_toJson
  | wait _ actions => (Bool.or_false _).trans (itemsHaveNull_toJsons actions)
  | timer _ times actions => by
    simp only [toJson, Json.variant, hasNull, fieldsHaveNull, fieldsHaveNull_append,
      itemsHaveNull_toJsons actions, isFinite, Json.ofUInt64, Bool.or_false, Bool.false_or]
    rw [fieldsHaveNull_plain fun _ => rfl]
    rfl

theorem itemsHaveNull_toJsons : (l : List Statement) →
    itemsHaveNull (toJsons l) = !areFinite l
  | [] => rfl
  | s :: rest => by
    rw [toJsons, itemsHaveNull, hasNull_toJson s, itemsHaveNull_toJsons rest, areFinite,
      Bool.not_and]

end

end Statement

/-! ## Agents -/

theorem Handler.hasNull_toJson (h : Handler) : h.toJson.hasNull = !h.isFinite :=
  (Bool.or_false _).trans (Statement.itemsHaveNull_toJsons h.statements)

namespace Agent

mutual

theorem hasNull_toJson : (a : Agent) → a.toJson.hasNull = !a.isFinite
  | text a => by
    simp only [toJson, TextAgent.toJson, Json.variant, hasNull, fieldsHaveNull,
      fieldsHaveNull_append, a.content.hasNull_toJson]
    rw [fieldsHaveNull_field? Point.hasNull_toJson, fieldsHaveNull_field? hasNull_ofFloat,
      fieldsHaveNull_plain fun _ => rfl, fieldsHaveNull_plain AnimationSpec.hasNull_toJson, isFinite]
    simp only [Bool.or_false, Bool.false_or, Bool.not_and, Bool.or_assoc]
  | button a => by
    simp only [toJson, ButtonAgent.toJson, Json.variant, hasNull, fieldsHaveNull,
      fieldsHaveNull_append, a.label.hasNull_toJson]
    rw [fieldsHaveNull_field? Point.hasNull_toJson, fieldsHaveNull_field? Point.hasNull_toJson,
      fieldsHaveNull_plain fun _ => rfl, fieldsHaveNull_plain AnimationSpec.hasNull_toJson,
      Json.itemsHaveNull_map fun h _ => h.hasNull_toJson, isFinite]
    simp only [Bool.or_false, Bool.false_or, Bool.not_and, Bool.or_assoc]
  | image a => by
    simp only [toJson, ImageAgent.toJson, Json.variant, hasNull, fieldsHaveNull,
      fieldsHaveNull_append]
    rw [fieldsHaveNull_field? Point.hasNull_toJson, fieldsHaveNull_field? Point.hasNull_toJson,
      fieldsHaveNull_plain AnimationSpec.hasNull_toJson, isFinite]
    simp only [Bool.or_false, Bool.false_or, Bool.not_and]
  | video a => by
    simp only [toJson, VideoAgent.toJson, Json.variant, hasNull, fieldsHaveNull,
      fieldsHaveNull_append]
    rw [fieldsHaveNull_field? Point.hasNull_toJson, fieldsHaveNull_field? Point.hasNull_toJson,
      fieldsHaveNull_plain AnimationSpec.hasNull_toJson, isFinite]
    simp only [Bool.or_false, Bool.false_or, Bool.not_and]
  | choice condition agents elseAgents => by
    simp only [toJson, Json.variant, hasNull, fieldsHaveNull, condition.hasNull_toJson,
      itemsHaveNull_toJsons agents, itemsHaveNull_toJsons elseAgents, isFinite, Bool.or_false,
      Bool.false_or, Bool.not_and, Bool.or_assoc]
  | forEach _ range agents => by
    simp only [toJson, Json.variant, hasNull, fieldsHaveNull, range.hasNull_toJson,
      itemsHaveNull_toJsons agents, isFinite, Bool.or_false, Bool.false_or, Bool.not_and]
  | wait _ agents actions => by
    simp only [toJson, Json.variant, hasNull, fieldsHaveNull, itemsHaveNull_toJsons agents,
      Statement.itemsHaveNull_toJsons, isFinite, Json.ofUInt64, Bool.or_false, Bool.false_or,
      Bool.not_and]
  | timer _ times actions => by
    simp only [toJson, Json.variant, hasNull, fieldsHaveNull, fieldsHaveNull_append,
      Statement.itemsHaveNull_toJsons, isFinite, Json.ofUInt64, Bool.or_false, Bool.false_or]
    rw [fieldsHaveNull_plain fun _ => rfl]
    rfl

theorem itemsHaveNull_toJsons : (l : List Agent) → itemsHaveNull (toJsons l) = !areFinite l
  | [] => rfl
  | a :: rest => by
    rw [toJsons, itemsHaveNull, hasNull_toJson a, itemsHaveNull_toJsons rest, areFinite,
      Bool.not_and]

end

end Agent

/-! ## Pages and stories -/

theorem Page.hasNull_toJson (page : Page) : page.toJson.hasNull = !page.isFinite := by
  simp only [toJson, hasNull, fieldsHaveNull, fieldsHaveNull_append, Json.ofInt64,
    Agent.itemsHaveNull_toJsons, Statement.itemsHaveNull_toJsons, isFinite]
  rw [fieldsHaveNull_plain fun _ => rfl]
  simp only [Bool.or_false, Bool.false_or, Bool.not_and]

/-- The JSON of a story has a null exactly if some number of the story is not finite. -/
theorem Story.hasNull_toJson (story : Story) : story.toJson.hasNull = !story.isFinite := by
  simp only [toJson, hasNull, fieldsHaveNull, Statement.itemsHaveNull_toJsons, isFinite,
    Json.itemsHaveNull_map fun page _ => Page.hasNull_toJson page, Bool.or_false, Bool.false_or,
    Bool.not_and]

theorem Story.toJson_eq (story : Story) :
    story.toJson = .obj (fieldsOf ["title", "pages", "statements"]
      [some (.str story.title), some (.arr (story.pages.map Page.toJson)),
        some (.arr (Statement.toJsons story.statements))]) := rfl

/-- A story without such a number is restored from its JSON. -/
theorem Story.restores {story : Story} (h : story.isFinite = true) :
    Restores ofJson? toJson story := by
  obtain ⟨hpages, hstatements⟩ := (Bool.and_eq_true _ _).mp h
  have hpage : ∀ page ∈ story.pages, Restores Page.ofJson? Page.toJson page :=
    fun page hmem => Page.restores (List.all_eq_true.mp hpages page hmem)
  refine ⟨nofun, ?_⟩
  rw [toJson_eq, ofJson?, Json.slots?_fieldsOf (by decide) rfl]
  simp [Json.required_some (Json.restores_str _), Json.required_some (Json.list?_map hpage),
    Json.required_some (Statement.list_restores hstatements false)]

/-- A finite story is the only one with its JSON. -/
theorem Story.eq_of_toJson_eq {story other : Story} (hother : other.isFinite = true)
    (h : story.toJson = other.toJson) : story = other := by
  have hfinite : story.isFinite = true := by
    have hnull := story.hasNull_toJson
    rw [h, other.hasNull_toJson, hother] at hnull
    exact (Bool.not_inj hnull).symm
  have hread := (Story.restores hfinite).read_write
  rw [h, (Story.restores hother).read_write] at hread
  exact (Option.some.inj hread).symm

end Storybook
