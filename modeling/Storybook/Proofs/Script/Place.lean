/-
# `Storybook.Proofs.Script.Place` — where the errors of scripts stand

An error of a script has a line and a column, and nothing in its type says that the script has
such a place.  It does, whether the grammar or assembly raises the error:

    compile ids source = .error d → ∃ n ≤ source.length, d.position = .after (source.toList.take n)

where `Position.after before` counts the lines and columns of a text `before`.  Errors of the
grammar stand where some rule has come to (`SyntaxError.IsAfter`), and faults of assembly at a
position that the tree has from a rule (`fault_of_read`); both are cursors of the text.
-/
import Storybook.Proofs.Script.Assembled

namespace Storybook.Script

/-! ## The position after a text -/

/-- The position after a text: its line is one more than the line feeds of the text, its column
one more than the characters after the last of them. -/
def Position.after (before : List Char) : Position :=
  ⟨before.count '\n' + 1, (before.reverse.takeWhile (· != '\n')).length + 1⟩

theorem Position.after_append (before : List Char) (c : Char) :
    after (before ++ [c]) =
      if c = '\n' then ⟨(after before).line + 1, 1⟩
      else ⟨(after before).line, (after before).column + 1⟩ := by
  unfold after
  rw [List.count_append, List.reverse_append, List.reverse_singleton, List.singleton_append]
  by_cases h : c = '\n'
  · subst h
    rfl
  · have hcount : [c].count '\n' = 0 := List.count_eq_zero.mpr fun hmem =>
      h (List.mem_singleton.mp hmem).symm
    have hcolumns : (c :: before.reverse).takeWhile (· != '\n') =
        c :: before.reverse.takeWhile (· != '\n') :=
      List.takeWhile_cons_of_pos (bne_iff_ne.mpr h)
    rw [if_neg h, hcount, hcolumns]
    rfl

/-- Where a cursor stands after the first characters, if `before` is the text in front of it. -/
theorem Cursor.position_advance (n : Nat) {c : Cursor} {before : List Char}
    (h : c.toPosition = .after before) :
    (c.advance n).toPosition = .after (before ++ c.rest.take n) := by
  induction n generalizing c before with
  | zero =>
    rw [List.take_zero, List.append_nil]
    exact h
  | succ n ih =>
    cases hrest : c.rest with
    | nil =>
      rw [advance_of_nil hrest, List.take_nil, List.append_nil]
      exact h
    | cons first rest =>
      have hnext : (withRest (c.toPlace.after first) rest).toPosition =
          .after (before ++ [first]) := by
        rw [Position.after_append, ← h]
        show (c.toPlace.after first).toPosition = _
        unfold Place.after
        split
        · rfl
        · rfl
      rw [advance_succ hrest, ih hnext, List.take_succ_cons, List.append_assoc]
      rfl

/-- The positions of the cursors of a text are those after its first characters. -/
theorem Position.isOf_iff {source : String} {p : Position} :
    p.IsOf source ↔ ∃ n ≤ source.length, p = .after (source.toList.take n) := by
  have hposition (n : Nat) :
      ((Cursor.ofText source).advance n).toPosition = .after (source.toList.take n) :=
    Cursor.position_advance n (show (Cursor.ofText source).toPosition = .after [] from rfl)
  constructor
  · rintro ⟨c, ⟨n, rfl⟩, rfl⟩
    refine ⟨min n source.length, Nat.min_le_right n _, ?_⟩
    rw [hposition, ← String.length_toList, ← List.take_eq_take_min]
  · rintro ⟨n, -, rfl⟩
    exact ⟨_, ⟨n, rfl⟩, (hposition n).symm⟩

/-! ## The errors of both stages -/

/-- Where the grammar refuses a script, it does so at a place of the script, for a cause of its
own. -/
theorem error_of_read {source : String} {e : SyntaxError} (h : Tree.read source = .error e) :
    e.IsAfter (.ofText source) := by
  have hnumbers : Rule.YieldsNumbers source fun _ => True :=
    .of_number (fun _ _ => trivial) Rule.Yields.anyNumber
  have hscript := Rule.Yields.script hnumbers (.ofText source) (.ofText source)
  unfold Tree.read at h
  cases hout : Rule.script (.ofText source) with
  | ok tree rest => rw [hout] at h; exact nomatch h
  | refuse error => rw [hout] at h hscript; cases h; exact hscript
  | abort error => rw [hout] at h hscript; cases h; exact hscript

/-- What is said of a text that ends too early by a reader that waits for more of it. -/
def incompleteInput : String := "incomplete input"

theorem append_ne_incompleteInput {first : String} (rest : String)
    (h : first.toList.head?.any (· != 'i') = true) : first ++ rest ≠ incompleteInput := by
  intro heq
  have hlist : (first ++ rest).toList.head? = some 'i' := congrArg (·.toList.head?) heq
  cases hfirst : first.toList with
  | nil => rw [hfirst] at h; exact nomatch h
  | cons c others =>
    rw [String.toList_append, hfirst, List.cons_append] at hlist
    have hc : c = 'i' := Option.some.inj hlist
    subst hc
    rw [hfirst] at h
    exact nomatch h

theorem SyntaxError.message_ne_incompleteInput {e : SyntaxError} (h : e.cause.IsOfGrammar) :
    e.message ≠ incompleteInput := by
  unfold SyntaxError.message
  cases hcause : e.cause with
  | unexpected => exact append_ne_incompleteInput _ rfl
  | expected what =>
    dsimp only
    rw [String.append_assoc, String.append_assoc]
    exact append_ne_incompleteInput _ rfl
  | complaint message =>
    rw [hcause] at h
    have hother : incompleteInput ∉ complaints := by decide
    exact fun heq => hother (heq ▸ h)

theorem Fault.message_ne_incompleteInput {f : Fault} (h : f.IsOfScript) :
    f.message ≠ incompleteInput := by
  have hduplicate (key : String) : (Fault.duplicate key).message ≠ incompleteInput := by
    show "duplicate '" ++ key ++ "'" ≠ _
    rw [String.append_assoc]
    exact append_ne_incompleteInput _ rfl
  rcases h with a | m | _ | name | ⟨a, -, -⟩
  case property =>
    show "duplicate property '" ++ name ++ "'" ≠ _
    rw [String.append_assoc]
    exact append_ne_incompleteInput _ rfl
  case notTaken kind _ =>
    show "'" ++ a.key ++ "' is not an attribute of " ++ kind ≠ _
    rw [String.append_assoc, String.append_assoc]
    exact append_ne_incompleteInput _ rfl
  all_goals exact hduplicate _

/-- A script has a story, or an error at a place of the script; the error is never that the
script ends too early for any verdict. -/
theorem compile_places {ι : Type} [IdSource ι] (ids : ι) (source : String) :
    (∃ result, compile ids source = .ok result) ∨
      ∃ d, compile ids source = .error d ∧ d.message ≠ "incomplete input" ∧
        ∃ n ≤ source.length, d.position = .after (source.toList.take n) := by
  unfold compile
  cases hread : Tree.read source with
  | error e =>
    obtain ⟨hfollows, hcause⟩ := error_of_read hread
    refine .inr ⟨_, rfl, SyntaxError.message_ne_incompleteInput hcause, ?_⟩
    exact Position.isOf_iff.mp ⟨e.cursor, hfollows, rfl⟩
  | ok tree =>
    dsimp only
    cases hassemble : tree.assemble ids with
    | ok result => exact .inl ⟨result, rfl⟩
    | error f =>
      obtain ⟨hfault, hposition⟩ := fault_of_read hread ids hassemble
      refine .inr ⟨.ofFault f, rfl, Fault.message_ne_incompleteInput hfault, ?_⟩
      exact Position.isOf_iff.mp hposition

end Storybook.Script
