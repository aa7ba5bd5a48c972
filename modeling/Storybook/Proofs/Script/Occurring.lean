/-
# `Storybook.Proofs.Script.Occurring` — what occurs in the stories of scripts

From above: every expression of a story was written in its script and had its strings
interpolated, or it is a displayed text (`has_ofScript_of_compile`), and every name outside of
placeholders is one that the rule of variables reads.

From below: a script may do nothing but set a variable.  Its story is that statement
(`compile_lever`); so whatever can be written as an expression, with the room that is left in the
block of the story, occurs in some story.
-/
import Storybook.Proofs.Script.Assembled
import Storybook.Proofs.Script.Retrieval
import Storybook.Proofs.Story.Occurrences

namespace Storybook

open Script

/-- Parts that are written in a script; the expressions are no longer as they are written. -/
def Parts.ofScript : Parts where
  number _ := True
  name name := isVariableName name = true
  expression e := ∃ written, Written (fun _ => True) (maxNesting - 1) written ∧
    e = withPlaceholders written
  label e := ∃ content, e = interpolated content

namespace Script

/-! ## From above -/

theorem ofScript_admits : Admits .ofScript fun _ => True where
  number _ _ := trivial
  name _ hname := hname
  expression e he := ⟨e, he, rfl⟩
  label content := ⟨content, rfl⟩

/-- The parts of a story are written in its script. -/
theorem has_ofScript_of_compile {ι : Type} [IdSource ι] {ids ids' : ι} {source : String}
    {story : Story} (h : compile ids source = .ok (story, ids')) : story.Has .ofScript :=
  compile_has ofScript_admits (fun _ _ => trivial) Rule.Yields.anyNumber h

theorem allWithPlaceholders_eq_map (l : List Expression) :
    allWithPlaceholders l = l.map withPlaceholders := by
  induction l with
  | nil => rfl
  | cons e rest ih => exact congrArg (withPlaceholders e :: ·) ih

/-- Strings are leaves, whether they are interpolated or not. -/
theorem children_withPlaceholders (e : Expression) :
    (withPlaceholders e).children = e.children.map withPlaceholders := by
  cases e with
  | string text =>
    show (stringExpression text).children = []
    unfold stringExpression
    dsimp only
    split <;> rfl
  | pickOne options => exact allWithPlaceholders_eq_map options
  | _ => rfl

/-- What stands inside a written expression is written, with less room behind an operator. -/
theorem Written.child {num : Float → Prop} {room : Nat} {e child : Expression}
    (h : Written num room e) (hchild : child ∈ e.children) :
    ∃ less, less + e.layer.count .unary ≤ room ∧ Written num less child := by
  induction h with
  | number | string | boolean | var => exact absurd hchild List.not_mem_nil
  | binary _ hleft hright | range hleft hright =>
    rcases List.mem_cons.mp hchild with rfl | hchild
    · exact ⟨_, Nat.le_refl _, hleft⟩
    · rw [List.mem_singleton.mp hchild]
      exact ⟨_, Nat.le_refl _, hright⟩
  | unary _ hoperand =>
    rw [List.mem_singleton.mp hchild]
    exact ⟨_, Nat.le_refl _, hoperand⟩
  | random hfirst hlast =>
    rw [List.mem_singleton.mp hchild]
    exact ⟨_, Nat.le_refl _, .range hfirst hlast⟩
  | pickOne hoptions => exact ⟨_, Nat.le_refl _, hoptions _ hchild⟩
  | enclosed _ ih =>
    obtain ⟨less, hle, hwritten⟩ := ih hchild
    exact ⟨less, Nat.le_succ_of_le hle, hwritten⟩

/-! ## From below -/

section Lever

variable {title : String} {value : Expression}

/-- A tree that is the one of a script that sets a variable, up to positions. -/
theorem eq_of_unplaced_leverTree {tree : Tree}
    (h : tree.unplaced = (leverTree title value).unplaced) :
    ∃ position, tree = ⟨title, [⟨position, .statement (.set lever.name value)⟩]⟩ := by
  obtain ⟨title', items⟩ := tree
  obtain ⟨rfl, hitems⟩ := Tree.mk.inj h
  cases items with
  | nil => cases hitems
  | cons item rest =>
    obtain ⟨position, node⟩ := item
    obtain ⟨hnode, hrest⟩ := List.cons.inj hitems
    have hnode : node.unplaced = .statement (.set lever.name value) := (Located.mk.inj hnode).2
    cases rest with
    | cons => cases hrest
    | nil =>
      cases node with
      | statement command =>
        have hcommand : command.unplaced = .set lever.name value := Node.statement.inj hnode
        cases command with
        | set =>
          cases hcommand
          exact ⟨position, rfl⟩
        | _ => cases hcommand
      | _ => cases hnode

def leverStory (title : String) (value : Expression) : Story :=
  ⟨title, [], [.set lever.name (withPlaceholders value)]⟩

theorem expressions_leverStory : (leverStory title value).expressions = [withPlaceholders value] :=
  rfl

/-- A script that sets a variable to what is written has the story that does this. -/
theorem compile_lever {ι : Type} [IdSource ι] (ids : ι) (title : String) {e : Surface}
    (h : e.depth ≤ maxNesting - 1) :
    compile ids (leverScript title (e.token .tight)) = .ok (leverStory title e.value, ids) := by
  have hspelled : (leverTree title e.value).Spelled Form (leverTokens title (e.token .tight)) :=
    leverTree_spelled title (Surface.form .tight h)
  have hsettled : Settled (spread (leverTokens title (e.token .tight))) := by
    unfold leverTokens
    exact settled_word _ _ _
  have hat : (Cursor.ofText (leverScript title (e.token .tight))).At
      (leverTokens title (e.token .tight)) := by
    unfold Cursor.At Cursor.ofText leverScript
    rw [front_eq_spread hsettled, String.toList_ofList]
  obtain ⟨tree, rest, hread, htree, -⟩ := takes_script hspelled _ hat
  obtain ⟨position, rfl⟩ := eq_of_unplaced_leverTree htree
  unfold compile Tree.read
  rw [hread]
  rfl

end Lever

end Script

end Storybook
