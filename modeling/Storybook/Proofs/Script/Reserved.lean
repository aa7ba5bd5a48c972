/-
# `Storybook.Proofs.Script.Reserved` — which names a story can have

A name comes into a story on one of two ways, and only the first one knows the reserved words:

| where the name stands | read by | names |
| :-- | :-- | :-- |
| written by `init`, `set`, `add`, `subtract` or `for`, or read in an expression | `variableName` | all but the reserved words |
| in a placeholder of a text | `placeholder?` | all |

So `{end}` in a text is a placeholder, though no variable can have that name.
-/
import Storybook.Proofs.Script.Occurring

namespace Storybook.Script

/-! ## Placeholders of texts -/

/-- The name of a placeholder is a name. -/
theorem isName_of_placeholder? {cs name rest : List Char}
    (h : placeholder? cs = some (name, rest)) : Text.isName name = true := by
  unfold placeholder? at h
  split at h
  · cases h
  · dsimp only at h
    split at h
    · next hname =>
      cases h
      exact hname
    · cases h

/-- Literal parts hold no placeholder. -/
theorem placeholders_literalPart (reversed : List Char) :
    (literalPart reversed).filterMap StringPart.placeholder? = [] := by
  cases reversed <;> rfl

/-- The induction is along the text, as it is split. -/
theorem isName_of_mem_splitFrom (reversed cs : List Char) :
    ∀ name ∈ (splitFrom reversed cs).filterMap StringPart.placeholder?,
      Text.isName name.toList = true := by
  induction reversed, cs using splitFrom.induct with
  | case1 reversed =>
    rw [splitFrom, placeholders_literalPart]
    exact fun _ hname => absurd hname List.not_mem_nil
  | case2 reversed rest name after hplaceholder ih =>
    rw [splitFrom, if_pos rfl]
    split
    · next name' after' h =>
      cases hplaceholder.symm.trans h
      rw [List.filterMap_append, placeholders_literalPart, List.nil_append]
      refine List.forall_mem_cons.mpr ⟨?_, ih⟩
      rw [String.toList_ofList]
      exact isName_of_placeholder? hplaceholder
    · next h => cases hplaceholder.symm.trans h
  | case3 reversed rest hplaceholder ih =>
    rw [splitFrom, if_pos rfl]
    split
    · next h => cases hplaceholder.symm.trans h
    · exact ih
  | case4 reversed c rest hc ih =>
    rw [splitFrom, if_neg hc]
    exact ih

theorem isNameChar_of_isName {name : List Char} (h : Text.isName name = true) :
    ∀ c ∈ name, Text.isNameChar c = true := by
  cases name with
  | nil => exact fun _ hc => absurd hc List.not_mem_nil
  | cons first others =>
    obtain ⟨hfirst, hothers⟩ := Bool.and_eq_true_iff.mp h
    exact List.forall_mem_cons.mpr
      ⟨Text.isNameChar_of_isNameStart hfirst, List.all_eq_true.mp hothers⟩

/-- A text in braces. -/
def braced (text : String) : String := String.ofList ('\x7b' :: (text.toList ++ ['\x7d']))

/-- A name in braces is one placeholder. -/
theorem splitParts_braced {name : String} (h : Text.isName name.toList = true) :
    splitParts (braced name) = [.placeholder name] := by
  have hname : ∀ c ∈ name.toList, (c != '\x7d') = true := by
    intro c hc
    refine bne_iff_ne.mpr ?_
    rintro rfl
    exact absurd (isNameChar_of_isName h _ hc) (by decide +kernel)
  have hafter : (name.toList ++ ['\x7d']).dropWhile (· != '\x7d') = ['\x7d'] := by
    rw [List.dropWhile_append_of_pos hname]
    rfl
  have hbefore : (name.toList ++ ['\x7d']).takeWhile (· != '\x7d') = name.toList := by
    rw [List.takeWhile_append_of_pos hname]
    exact List.append_nil _
  have hplaceholder : placeholder? (name.toList ++ ['\x7d']) = some (name.toList, []) := by
    unfold placeholder?
    rw [hafter, hbefore]
    exact if_pos h
  rw [splitParts, braced, String.toList_ofList, splitFrom, if_pos rfl]
  split
  · next heq =>
    cases hplaceholder.symm.trans heq
    rw [splitFrom, String.ofList_toList]
    rfl
  · next heq => cases hplaceholder.symm.trans heq

/-! ## Names in stories -/

/-- What scripts make of an expression: one that is written, with its strings interpolated, or a
displayed text. -/
def IsScripted (e : Expression) : Prop :=
  (∃ room written, Written (fun _ => True) room written ∧ e = withPlaceholders written) ∨
    ∃ content, e = interpolated content

theorem IsScripted.child {e child : Expression} (h : IsScripted e) (hchild : child ∈ e.children) :
    IsScripted child := by
  rcases h with ⟨room, written, hwritten, rfl⟩ | ⟨content, rfl⟩
  · rw [children_withPlaceholders] at hchild
    obtain ⟨inner, hinner, rfl⟩ := List.mem_map.mp hchild
    obtain ⟨less, -, hless⟩ := hwritten.child hinner
    exact .inl ⟨less, inner, hless, rfl⟩
  · exact absurd hchild List.not_mem_nil

theorem Written.isVariableName {num : Float → Prop} {room : Nat} {name : String}
    (h : Written num room (.var name)) : isVariableName name = true := by
  generalize he : Expression.var name = e at h
  induction h with
  | var hname =>
    cases he
    exact hname
  | enclosed _ ih => exact ih he
  | _ => cases he

theorem Written.ne_interpolated {num : Float → Prop} {room : Nat} {e : Expression}
    (h : Written num room e) (parts : List StringPart) : e ≠ .interpolated parts := by
  induction h with
  | enclosed _ ih => exact ih
  | _ => exact fun he => by cases he

theorem IsScripted.isVariableName {e : Expression} (h : IsScripted e) {name : String}
    (hname : e.name? = some name) : isVariableName name = true := by
  rcases h with ⟨room, written, hwritten, rfl⟩ | ⟨content, rfl⟩
  · cases written with
    | var =>
      cases hname
      exact hwritten.isVariableName
    | string text =>
      have hname : (stringExpression text).name? = some name := hname
      unfold stringExpression at hname
      dsimp only at hname
      split at hname <;> cases hname
    | _ => cases hname
  · cases hname

theorem IsScripted.isName {e : Expression} (h : IsScripted e) :
    ∀ name ∈ e.placeholders, Text.isName name.toList = true := by
  rcases h with ⟨room, written, hwritten, rfl⟩ | ⟨content, rfl⟩
  · cases written with
    | string text =>
      show ∀ name ∈ (stringExpression text).placeholders, _
      unfold stringExpression
      dsimp only
      split
      · exact isName_of_mem_splitFrom [] text.toList
      · exact fun _ hname => absurd hname List.not_mem_nil
    | interpolated parts => exact absurd rfl (hwritten.ne_interpolated parts)
    | _ => exact fun _ hname => absurd hname List.not_mem_nil
  · exact isName_of_mem_splitFrom [] content.toList

section Names

variable {ι : Type} [IdSource ι] {ids ids' : ι} {source : String} {story : Story}

theorem isScripted_of_compile (h : compile ids source = .ok (story, ids')) :
    ∀ e ∈ Expression.subtrees story.expressions, IsScripted e := by
  refine Expression.forall_mem_subtrees (fun _ _ he hchild => he.child hchild) _ fun e he => ?_
  rcases (has_ofScript_of_compile h).expressions e he with ⟨written, hwritten, rfl⟩ | hlabel
  · exact .inl ⟨_, written, hwritten, rfl⟩
  · exact .inr hlabel

/-- Outside of placeholders no name is a reserved word. -/
theorem isVariableName_of_compile (h : compile ids source = .ok (story, ids')) :
    ∀ name ∈ story.names, isVariableName name = true := by
  refine List.forall_mem_append.mpr ⟨(has_ofScript_of_compile h).targets, fun name hname => ?_⟩
  obtain ⟨e, he, hname⟩ := List.mem_filterMap.mp hname
  exact (isScripted_of_compile h e he).isVariableName hname

/-- In placeholders there are names only. -/
theorem isName_of_compile (h : compile ids source = .ok (story, ids')) :
    ∀ name ∈ story.placeholders, Text.isName name.toList = true := by
  intro name hname
  obtain ⟨e, he, hname⟩ := List.mem_flatMap.mp hname
  exact (isScripted_of_compile h e he).isName name hname

end Names

/-- The names that occur in the stories of scripts: outside of placeholders they are those that are
not reserved, and in placeholders they are all names, reserved or not. -/
theorem names_occur_iff {ι : Type} [IdSource ι] (ids : ι) (name : String) :
    ((∃ source story ids', compile ids source = .ok (story, ids') ∧ name ∈ story.names) ↔
      isVariableName name = true) ∧
    ((∃ source story ids', compile ids source = .ok (story, ids') ∧ name ∈ story.placeholders) ↔
      Text.isName name.toList = true) := by
  refine ⟨⟨?_, fun h => ?_⟩, ⟨?_, fun h => ?_⟩⟩
  · rintro ⟨source, story, ids', hcompile, hname⟩
    exact isVariableName_of_compile hcompile name hname
  · have hcompile := compile_lever ids "Reading" (e := .var ⟨name, h⟩) (Nat.zero_le _)
    exact ⟨_, _, _, hcompile, List.mem_append_right _ (List.mem_singleton_self name)⟩
  · rintro ⟨source, story, ids', hcompile, hname⟩
    exact isName_of_compile hcompile name hname
  · have hcompile := compile_lever ids "Reading" (e := .string (braced name)) (Nat.zero_le _)
    have hvalue : withPlaceholders (Surface.string (braced name)).value =
        .interpolated [.placeholder name] := by
      show stringExpression (braced name) = _
      rw [stringExpression, splitParts_braced h]
      rfl
    refine ⟨_, _, _, hcompile, ?_⟩
    rw [Story.placeholders, expressions_leverStory, hvalue]
    exact List.mem_singleton_self name

/-- A script with a text that has a reserved word in braces. -/
def fadeScript : String := "fable \"Fade\" do page 1 do text \"\x7bend\x7d\" end end"

/-- It is accepted, and its placeholder is the reserved word. -/
theorem compile_fade : ∃ story ids', compile (⟨0⟩ : IdCounter) fadeScript = .ok (story, ids') ∧
    "end" ∈ story.placeholders ∧ "end" ∈ reservedWords ∧ isVariableName "end" = false := by
  have hplaceholders : (compile (⟨0⟩ : IdCounter) fadeScript).toOption.map
      (fun result => result.1.placeholders) = some ["end"] := by
    decide +kernel
  obtain ⟨story, ids', hcompile, hend⟩ := exists_compile_of_map Story.placeholders hplaceholders
  refine ⟨story, ids', hcompile, ?_, by decide, by decide +kernel⟩
  rw [hend]
  exact List.mem_singleton_self _

end Storybook.Script
