/-
# `Storybook.Proofs.Script.WellFormed` — the shape of the stories that scripts have

Evaluation, sessions and drawing rely on a shape of stories that no single rule of the grammar
imposes:

| part | shape | where it comes from |
| :-- | :-- | :-- |
| contents of texts, labels of buttons | interpolated strings | assembly |
| other strings | interpolated exactly if they have a placeholder | assembly |
| `random` | holds a range | the rule of `random` |
| minus | stands before no number | the rule of operands |
| `tween` | has properties | the rule of `tween` |
| `wait` and `timer` beside agents | are agents, not statements | the order of the rules |
| unknown statements and expressions | none | no rule makes them |

What the rules give is in `Written` and `Node.Written` already; here it is carried through
assembly, which rewrites strings only.
-/
import Storybook.Proofs.Script.Assembled
import Storybook.Proofs.Story.Null

namespace Storybook

open Script (hasPlaceholder splitParts withPlaceholders allWithPlaceholders)

/-! ## Expressions -/

namespace Expression

mutual

/-- Whether an expression is one that scripts have: strings are interpolated if they have a
placeholder and only then, `random` holds a range, and no minus stands before a number. -/
def WellFormed : Expression → Prop
  | number _ | boolean _ | var _ => True
  | string value => hasPlaceholder (splitParts value) = false
  | interpolated parts => hasPlaceholder parts = true
  | binary _ left right => WellFormed left ∧ WellFormed right
  | unary op operand =>
    (op = .negate → ∀ value, operand ≠ number value) ∧ WellFormed operand
  | range first last => WellFormed first ∧ WellFormed last
  | random source => (∃ first last, source = range first last) ∧ WellFormed source
  | pickOne options => AllWellFormed options
  | unknown => False

def AllWellFormed : List Expression → Prop
  | [] => True
  | expression :: rest => WellFormed expression ∧ AllWellFormed rest

end

end Expression

/-! ## Stories -/

/-- Parts as scripts have them; what is displayed is always interpolated. -/
def Parts.wellFormed : Parts where
  number _ := True
  name _ := True
  expression := Expression.WellFormed
  label e := ∃ parts, e = .interpolated parts

/-- Whether a story has the shape of those that scripts have. -/
def Story.WellFormed (story : Story) : Prop := story.Has .wellFormed

namespace Script

/-! ## Strings with their placeholders -/

/-- A string is interpolated exactly if it has a placeholder. -/
theorem wellFormed_stringExpression (text : String) : (stringExpression text).WellFormed := by
  unfold stringExpression
  dsimp only
  split
  · next h => exact h
  · next h => exact Bool.eq_false_iff.mpr h

/-- Only a number becomes a number. -/
theorem eq_number_of_withPlaceholders {e : Expression} {value : Float}
    (h : withPlaceholders e = .number value) : e = .number value := by
  cases e with
  | number => exact h
  | string text =>
    have h : stringExpression text = .number value := h
    unfold stringExpression at h
    dsimp only at h
    split at h
    · exact nomatch h
    · exact nomatch h
  | _ => exact nomatch h

theorem allWellFormed_withPlaceholders {l : List Expression}
    (h : ∀ e ∈ l, (withPlaceholders e).WellFormed) :
    Expression.AllWellFormed (allWithPlaceholders l) := by
  induction l with
  | nil => exact trivial
  | cons e rest ih =>
    obtain ⟨he, hrest⟩ := List.forall_mem_cons.mp h
    exact ⟨he, ih hrest⟩

/-- The induction is on how the expression is written. -/
theorem Written.wellFormed {num : Float → Prop} {room : Nat} {e : Expression}
    (h : Written num room e) : (withPlaceholders e).WellFormed := by
  induction h with
  | number | boolean | var => exact trivial
  | string value => exact wellFormed_stringExpression value
  | binary _ _ _ ihl ihr => exact ⟨ihl, ihr⟩
  | unary hnumber _ ih =>
    refine ⟨fun hop value he => ?_, ih⟩
    exact hnumber hop value (eq_number_of_withPlaceholders he)
  | range _ _ ihl ihr => exact ⟨ihl, ihr⟩
  | random _ _ ihl ihr => exact ⟨⟨_, _, rfl⟩, ihl, ihr⟩
  | pickOne _ ih => exact allWellFormed_withPlaceholders ih
  | enclosed _ ih => exact ih

theorem wellFormed_admits {num : Float → Prop} : Admits .wellFormed num where
  number _ _ := trivial
  name _ _ := trivial
  expression _ he := he.wellFormed
  label content := ⟨splitParts content, rfl⟩

/-- Every story of a script is well formed. -/
theorem wellFormed_of_compile {ι : Type} [IdSource ι] {ids ids' : ι} {source : String}
    {story : Story} (h : compile ids source = .ok (story, ids')) : story.WellFormed := by
  have hnumber : Rule.Yields source Rule.number fun _ => True := Rule.Yields.anyNumber
  exact compile_has wellFormed_admits (fun _ _ => trivial) hnumber h

/-- A script with a minus before a variable, a random member of a range, a string with a
placeholder in an expression and a `wait` beside agents. -/
def lanternScript : String :=
  "fable \"Lantern\" do init oil to -(2 + random 1 .. 3) timer every 2s do add 1 to oil end " ++
    "page 1 do text \"Oil: {oil}\" set label to \"{oil} left\" " ++
    "wait 1s do tween #lamp to \x7bx: -oil\x7d text \"Dark\" end end end"

def lanternStory : Story where
  title := "Lantern"
  pages :=
    [⟨1,
      [.text ⟨"text_1", .interpolated [.text "Oil: ", .placeholder "oil"], none, none, none, none⟩,
        .wait 1000 [.text ⟨"text_2", .interpolated [.text "Dark"], none, none, none, none⟩]
          [.tween "lamp" (Table.empty.insert "x" (.unary .negate (.var "oil"))) ⟨none, none⟩]],
      [.set "label" (.interpolated [.placeholder "oil", .text " left"])], none⟩]
  statements :=
    [.init "oil" (.unary .negate (.binary .add (.number 2.0)
        (.random (.range (.number 1.0) (.number 3.0))))),
      .timer 2000 none [.add "oil" (.number 1.0)]]

/-- The label is set to an interpolated string, and the minus stays in front of its operands. -/
theorem wellFormed_of_compile_lantern : ∃ ids',
    compile (⟨0⟩ : IdCounter) lanternScript = .ok (lanternStory, ids') ∧
      lanternStory.WellFormed := by
  have hjson : (compile (⟨0⟩ : IdCounter) lanternScript).toOption.map (·.1.toJson) =
      some lanternStory.toJson := by
    decide +kernel
  obtain ⟨story, ids', hcompile, hseen⟩ := exists_compile_of_map Story.toJson hjson
  obtain rfl : story = lanternStory := Story.eq_of_toJson_eq (by decide +kernel) hseen
  exact ⟨ids', hcompile, wellFormed_of_compile hcompile⟩

end Script

end Storybook
