/-
# `Storybook.Proofs.Script.Nesting` — how deep expressions nest

The rules of expressions count how deep parentheses, operators in front of operands and blocks
nest, and give up where there is no room left.  They do not count `random` and `pick_one`: these
pass the room on as it is to the expressions inside them.

| layers of an expression, on a way down to a leaf | how many |
| :-- | :-- |
| operators in front of operands | fewer than `maxNesting` (`Written.count_unary_path`) |
| `random` and `pick_one` | as many as one likes, in any order (`Surface.under`) |
-/
import Storybook.Proofs.Script.Occurring

namespace Storybook.Script

open Expression (Layer layer)

/-! ## Operators in front of operands -/

theorem layer_withPlaceholders (e : Expression) : (withPlaceholders e).layer = e.layer := by
  cases e with
  | string text =>
    show (stringExpression text).layer = []
    unfold stringExpression
    dsimp only
    split <;> rfl
  | _ => rfl

/-- The induction is on the way down: behind each operator there is less room. -/
theorem Written.count_unary_path {num : Float → Prop} {room : Nat} {e : Expression}
    {path : List Expression} (h : Written num room e) (hpath : (withPlaceholders e).Path path) :
    (path.flatMap layer).count .unary ≤ room := by
  generalize hroot : withPlaceholders e = root at hpath
  induction hpath generalizing e room with
  | @leaf root hleaf =>
    have hlayer : root.layer.count .unary = 0 := by
      cases root with
      | unary => cases hleaf
      | _ => rfl
    rw [List.flatMap_singleton, hlayer]
    exact Nat.zero_le _
  | @step root child path hchild _ ih =>
    subst hroot
    rw [children_withPlaceholders] at hchild
    obtain ⟨inner, hinner, rfl⟩ := List.mem_map.mp hchild
    obtain ⟨less, hle, hwritten⟩ := h.child hinner
    have hrest := ih hwritten rfl
    rw [List.flatMap_cons, List.count_append, layer_withPlaceholders]
    omega

/-- A displayed text is a leaf. -/
theorem count_unary_path_interpolated {content : String} {path : List Expression}
    (hpath : (interpolated content).Path path) : (path.flatMap layer).count .unary = 0 := by
  cases hpath with
  | leaf => rfl
  | step hchild => exact absurd hchild List.not_mem_nil

/-! ## All layers -/

/-- An expression with some layers, the first one outermost, around a variable. -/
def Surface.under : List Layer → Surface
  | [] => .var lever
  | .unary :: layers => .unary .not (under layers)
  | .random :: layers => .random (under layers) (.var lever)
  | .pickOne :: layers => .pickOne [under layers]

namespace Surface

theorem level_under (layers : List Layer) : (under layers).level = .operand := by
  cases layers with
  | nil => rfl
  | cons outer => cases outer <;> rfl

/-- It needs no parentheses anywhere. -/
theorem isLooser_under (layers : List Layer) (l : Level) :
    (under layers).isLooser l = false := by
  rw [isLooser, level_under]
  cases l <;> rfl

/-- Its depth is the number of its operators. -/
theorem depth_under (layers : List Layer) :
    (under layers).depth = layers.count .unary := by
  induction layers with
  | nil => rfl
  | cons outer layers ih =>
    cases outer with
    | unary =>
      rw [under, depth, isLooser_under, ih, List.count_cons_self]
      rfl
    | random =>
      rw [under, depth, isLooser_under, ih, List.count_cons_of_ne (by decide)]
      exact Nat.max_zero _
    | pickOne =>
      rw [under, depth, depths, ih, List.count_cons_of_ne (by decide)]
      exact Nat.max_zero _

/-- A way down passes its layers in their order. -/
theorem exists_path_under (layers : List Layer) :
    ∃ path, (withPlaceholders (under layers).value).Path path ∧
      path.flatMap layer = layers := by
  induction layers with
  | nil => exact ⟨_, .leaf rfl, rfl⟩
  | cons outer layers ih =>
    obtain ⟨path, hpath, hlayers⟩ := ih
    cases outer with
    | unary => exact ⟨_, .step (List.mem_singleton_self _) hpath, congrArg (_ :: ·) hlayers⟩
    | random =>
      have hrange : (Expression.range (withPlaceholders (under layers).value)
          (.var lever.name)).Path (_ :: path) := .step (List.mem_cons_self ..) hpath
      exact ⟨_, .step (List.mem_singleton_self _) hrange, congrArg (_ :: ·) hlayers⟩
    | pickOne =>
      rw [under, value_pickOne]
      exact ⟨_, .step (List.mem_singleton_self _) hpath, congrArg (_ :: ·) hlayers⟩

end Surface

/-! ## What nests in stories -/

/-- Some layers occur if an expression of the story of some script has a way from its root down to
a leaf that passes them, and no others. -/
def Occur {ι : Type} [IdSource ι] (ids : ι) (layers : List Layer) : Prop :=
  ∃ source story ids', compile ids source = .ok (story, ids') ∧
    ∃ e ∈ story.expressions, ∃ path, e.Path path ∧ path.flatMap layer = layers

theorem occur_of_count_unary_lt {ι : Type} [IdSource ι] (ids : ι) {layers : List Layer}
    (h : layers.count .unary < maxNesting) : Occur ids layers := by
  have hdepth : (Surface.under layers).depth ≤ maxNesting - 1 := by
    rw [Surface.depth_under]
    exact Nat.le_sub_one_of_lt h
  obtain ⟨path, hpath, hlayers⟩ := Surface.exists_path_under layers
  exact ⟨_, _, _, compile_lever ids "Tower" hdepth, _,
    expressions_leverStory ▸ List.mem_singleton_self _, path, hpath, hlayers⟩

/-- The limit bounds the operators in front of operands and nothing else: the layers that occur are
those with fewer of them than the limit, whatever `random` and `pick_one` there are among them. -/
theorem layers_occur_iff {ι : Type} [IdSource ι] (ids : ι) (layers : List Layer) :
    Occur ids layers ↔ layers.count .unary < maxNesting := by
  refine ⟨?_, occur_of_count_unary_lt ids⟩
  have hpos : 0 < maxNesting := by decide
  rintro ⟨source, story, ids', hcompile, e, he, path, hpath, rfl⟩
  rcases (has_ofScript_of_compile hcompile).expressions e he with ⟨written, hwritten, rfl⟩ |
    ⟨content, rfl⟩
  · exact Nat.lt_of_le_pred hpos (hwritten.count_unary_path hpath)
  · rw [count_unary_path_interpolated hpath]
    exact hpos

/-- One option inside of another. -/
def towerText : Nat → List Char
  | 0 => "lever".toList
  | n + 1 => "pick_one [".toList ++ (towerText n ++ "]".toList)

/-- A script in which `pick_one` nests deeper than the limit. -/
def towerScript : String :=
  String.ofList ("fable \"Tower\" do set lever to ".toList ++
    (towerText (maxNesting + 1) ++ " end".toList))

theorem text_under_pickOne (n : Nat) :
    (Surface.under (List.replicate n .pickOne)).text .tight = towerText n := by
  induction n with
  | zero => rfl
  | succ n ih =>
    show "pick_one".toList ++ ([' '] ++ ("[".toList ++ ([] ++
      (([] ++ ((Surface.under (List.replicate n .pickOne)).text .tight ++ ([] ++ []))) ++
        "]".toList)))) = _
    rw [ih, List.nil_append, List.nil_append, List.append_nil, List.append_nil]
    rfl

theorem leverScript_tower : leverScript "Tower"
    ((Surface.under (List.replicate (maxNesting + 1) .pickOne)).token .tight) = towerScript := by
  have hspread (t : Token) : spread (leverTokens "Tower" t) =
      "fable \"Tower\" do set lever to ".toList ++ (t.written ++ " end".toList) := rfl
  have htext : ((Surface.under (List.replicate (maxNesting + 1) .pickOne)).token .tight).written =
      towerText (maxNesting + 1) := text_under_pickOne (maxNesting + 1)
  unfold leverScript towerScript
  refine congrArg String.ofList ((hspread _).trans ?_)
  rw [htext]

/-- The script is accepted. -/
theorem compile_tower : ∃ story ids', compile (⟨0⟩ : IdCounter) towerScript = .ok (story, ids') ∧
    ∃ e ∈ story.expressions, ∃ path, e.Path path ∧ maxNesting < (path.flatMap layer).length := by
  have hdepth : (Surface.under (List.replicate (maxNesting + 1) .pickOne)).depth ≤
      maxNesting - 1 := by
    rw [Surface.depth_under]
    decide
  obtain ⟨path, hpath, hlayers⟩ :=
    Surface.exists_path_under (List.replicate (maxNesting + 1) .pickOne)
  refine ⟨_, _, leverScript_tower ▸ compile_lever _ "Tower" hdepth, _,
    expressions_leverStory ▸ List.mem_singleton_self _, path, hpath, ?_⟩
  rw [hlayers, List.length_replicate]
  exact Nat.lt_succ_self _

end Storybook.Script
