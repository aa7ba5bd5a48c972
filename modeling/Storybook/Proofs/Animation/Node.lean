/-
# `Storybook.Proofs.Animation.Node` — the numbers of a node, written and read

The fields of a transform are known by name, and a `SceneNode` takes numbers of any other name
too.  The laws here say what a name reads after a number has been written, and after the whole
transform has been replaced: the fields are then those of the new transform, and every other
number is what it was.
-/
import Storybook.Animation.Node

namespace Storybook

namespace Transform

theorem get?_eq_none_iff (t : Transform) (name : String) :
    t.get? name = none ↔ name ∉ fieldNames := by
  unfold get? fieldNames
  split <;> simp_all

theorem set?_eq_none_iff (t : Transform) (name : String) (value : Float) :
    t.set? name value = none ↔ name ∉ fieldNames := by
  unfold set? fieldNames
  split <;> simp_all

/-- A name is a field of all transforms or of none. -/
theorem get?_eq_none_congr {t : Transform} {name : String} (h : t.get? name = none)
    (t' : Transform) : t'.get? name = none :=
  (get?_eq_none_iff t' name).mpr ((get?_eq_none_iff t name).mp h)

theorem get?_of_set? {t t' : Transform} {name : String} {value : Float}
    (h : t.set? name value = some t') (other : String) :
    t'.get? other = if other = name then some value else t.get? other := by
  by_cases hother : other = name
  · subst hother
    rw [if_pos rfl]
    unfold set? at h
    split at h <;> cases h <;> rfl
  · rw [if_neg hother]
    unfold set? at h
    split at h <;> cases h <;> (unfold get?; split <;> first | rfl | exact absurd rfl hother)

end Transform

namespace SceneNode

theorem property?_eq (name : String) (node : SceneNode) :
    RenderNode.property? name node = (node.transform.get? name).or (node.extras.find? name) := rfl

/-- With another transform a node has its fields, and its other numbers as before. -/
theorem property?_setTransform (name : String) (t : Transform) (node : SceneNode) :
    RenderNode.property? name (RenderNode.setTransform t node) =
      (t.get? name).or (RenderNode.property? name node) := by
  show (t.get? name).or (node.extras.find? name) = _
  cases hget : t.get? name with
  | some value => rfl
  | none =>
      rw [property?_eq, Transform.get?_eq_none_congr hget node.transform, Option.none_or,
        Option.none_or]

theorem property?_write (name other : String) (value : Float) (node : SceneNode) :
    RenderNode.property? other (RenderNode.write name value node) =
      if other = name then some value else RenderNode.property? other node := by
  cases hset : node.transform.set? name value with
  | some t =>
      have hwrite : RenderNode.write name value node = { node with transform := t } := by
        simp [RenderNode.write, RenderNode.setProperty?, hset]
      rw [hwrite, property?_eq, Transform.get?_of_set? hset, property?_eq]
      split <;> rfl
  | none =>
      have hwrite : RenderNode.write name value node =
          { node with extras := node.extras.insert name value } := by
        simp [RenderNode.write, RenderNode.setProperty?, hset]
      rw [hwrite, property?_eq, property?_eq, Table.find?_insert]
      by_cases hother : other = name
      · subst hother
        have hget : node.transform.get? other = none :=
          (Transform.get?_eq_none_iff _ _).mpr ((Transform.set?_eq_none_iff _ _ _).mp hset)
        simp [hget]
      · simp [hother]

/-- A field that has been written does not outlast the transform. -/
theorem property?_setTransform_write {name : String} (other : String) (t : Transform)
    (value : Float) (node : SceneNode) (h : other ≠ name ∨ name ∈ Transform.fieldNames) :
    RenderNode.property? other (RenderNode.setTransform t (RenderNode.write name value node)) =
      RenderNode.property? other (RenderNode.setTransform t node) := by
  rw [property?_setTransform, property?_setTransform, property?_write]
  by_cases hother : other = name
  · subst hother
    have hfield : other ∈ Transform.fieldNames := h.resolve_left fun hne => hne rfl
    cases hget : t.get? other with
    | some value => rfl
    | none => exact absurd hfield ((Transform.get?_eq_none_iff t other).mp hget)
  · rw [if_neg hother]

end SceneNode

end Storybook
