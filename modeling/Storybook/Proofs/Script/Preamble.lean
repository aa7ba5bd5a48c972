/-
# `Storybook.Proofs.Script.Preamble` — blanks and comments in front of a script

A script with blanks and comments in front of it is the same script further down:

    compile ids (fillers ++ source) = (compile ids source).mapError (.behind fillers)

It has the same story, or the same error at the position moved.  Not every line behind two slashes
is a comment, though: a carriage return that stands before the end of the line keeps it from being
passed over.  Fillers make no difference if and only if they hold no such line
(`compile_filled_iff`); with one, every script is refused there (`compile_unclear`).
-/
import Mathlib.Data.List.Induction
import Storybook.Proofs.Script.BehindTree
import Storybook.Proofs.Script.Closed
import Storybook.Proofs.Script.Place

namespace Storybook.Script

/-! ## Fillers -/

/-- A blank, or two slashes and a line with the line feed that ends it. -/
inductive Filler where
  | blank (c : Char) (isBlank : isSpace c = true)
  | comment (line : List Char) (isLine : ∀ c ∈ line, c ≠ '\n')

namespace Filler

def text : Filler → List Char
  | blank c _ => [c]
  | comment line _ => '/' :: '/' :: (line ++ ['\n'])

def texts (fillers : List Filler) : List Char := fillers.flatMap text

/-- Whether a carriage return in the line of a filler stands only at its end. -/
def IsClear : Filler → Prop
  | blank .. => True
  | comment line _ => '\r' ∉ line.dropLast

theorem texts_cons (f : Filler) (fillers : List Filler) :
    texts (f :: fillers) = f.text ++ texts fillers := List.flatMap_cons

theorem texts_append (fillers others : List Filler) :
    texts (fillers ++ others) = texts fillers ++ texts others := List.flatMap_append

end Filler

/-- Two slashes begin a comment if the line behind them is clear. -/
theorem isComment_line_iff {line : List Char} (h : ∀ c ∈ line, c ≠ '\n') :
    isComment (line ++ ['\n']) = true ↔ '\r' ∉ line.dropLast := by
  induction line with
  | nil => exact iff_of_true rfl List.not_mem_nil
  | cons c line ih =>
    have hfeed := h c (List.mem_cons_self ..)
    have hrest := fun d hd => h d (List.mem_cons_of_mem _ hd)
    by_cases hc : c = '\r'
    · subst hc
      cases line with
      | nil => exact iff_of_true rfl List.not_mem_nil
      | cons d line =>
        have hd : isComment ('\r' :: d :: line ++ ['\n']) = false :=
          beq_eq_false_iff_ne.mpr fun hhead =>
            hrest d (List.mem_cons_self ..) (Option.some.inj hhead)
        exact iff_of_false (ne_true_of_eq_false hd) fun hmem => hmem (List.mem_cons_self ..)
    · have hnext : isComment (c :: line ++ ['\n']) = isComment (line ++ ['\n']) := by
        rw [List.cons_append, isComment] <;> assumption
      rw [hnext, ih hrest]
      cases line with
      | nil => exact iff_of_true List.not_mem_nil List.not_mem_nil
      | cons d line =>
        rw [List.dropLast_cons_cons, List.mem_cons, not_or]
        exact (and_iff_right fun heq => hc heq.symm).symm

namespace Filler

variable {fillers : List Filler}

/-- Clear fillers are passed over. -/
theorem skipped_texts (h : ∀ f ∈ fillers, f.IsClear) : Skipped (texts fillers) := by
  induction fillers with
  | nil => exact .nil
  | cons f fillers ih =>
    have hf := h f (List.mem_cons_self ..)
    have hfillers := ih fun g hg => h g (List.mem_cons_of_mem _ hg)
    cases f with
    | blank c hblank => exact .blank hblank hfillers
    | comment line hline =>
      have htext : texts (comment line hline :: fillers) =
          '/' :: '/' :: (line ++ '\n' :: texts fillers) := by
        simp [texts, text]
      rw [htext]
      exact .comment hline ((isComment_line_iff hline).mpr hf) hfillers

/-- A line that is not clear is not passed over, whatever follows. -/
theorem settled_of_not_isClear {f : Filler} (h : ¬ f.IsClear) (rest : List Char) :
    Settled (f.text ++ rest) := by
  cases f with
  | blank => exact absurd trivial h
  | comment line hline =>
    have hcomment : isComment (line ++ '\n' :: rest) = false := by
      have hline' : isComment (line ++ '\n' :: rest) = isComment (line ++ ['\n']) :=
        isComment_append hline
      rw [hline', ← Bool.not_eq_true, isComment_line_iff hline]
      exact h
    have htext : (comment line hline).text ++ rest = '/' :: '/' :: (line ++ '\n' :: rest) := by
      simp [text]
    rw [htext]
    exact settled_of_not_isComment hcomment

/-- Fillers are clear, or one of them is the first that is not. -/
theorem clear_or_exists_first (fillers : List Filler) : (∀ f ∈ fillers, f.IsClear) ∨
    ∃ clear f others, fillers = clear ++ f :: others ∧ (∀ g ∈ clear, g.IsClear) ∧ ¬ f.IsClear := by
  induction fillers with
  | nil => exact .inl fun _ h => nomatch h
  | cons f fillers ih =>
    by_cases hf : f.IsClear
    · rcases ih with hall | ⟨clear, g, others, rfl, hclear, hg⟩
      · exact .inl (List.forall_mem_cons.mpr ⟨hf, hall⟩)
      · exact .inr ⟨f :: clear, g, others, rfl, List.forall_mem_cons.mpr ⟨hf, hclear⟩, hg⟩
    · exact .inr ⟨[], f, fillers, rfl, nofun, hf⟩

end Filler

/-! ## Scripts behind what is passed over -/

/-- The position at the beginning is moved to the one after the text. -/
theorem Position.behind_start (before : List Char) : behind before ⟨1, 1⟩ = after before := by
  unfold behind after
  rw [if_pos rfl, Nat.add_comm 1, Nat.add_comm 1]

/-- The induction is on the last character, as columns are counted from the last line feed. -/
theorem Place.through_start (before : List Char) :
    through ⟨⟨1, 1⟩, 0⟩ before = behind before ⟨⟨1, 1⟩, 0⟩ := by
  induction before using List.reverseRecOn with
  | nil => rfl
  | append_singleton before c ih =>
    have hthrough : through ⟨⟨1, 1⟩, 0⟩ (before ++ [c]) =
        (through ⟨⟨1, 1⟩, 0⟩ before).after c := by
      simp [through]
    rw [hthrough, ih]
    unfold behind Place.after
    rw [Position.behind_start, Position.behind_start, Position.after_append]
    split <;> simp

/-- What is passed over at the beginning of a text moves the place where the rest begins. -/
theorem Cursor.skip_ofText {text : String} {before rest : List Char} (h : Skipped before)
    (htext : text.toList = before ++ rest) :
    (ofText text).skip = skipFrom rest false (.behind before ⟨⟨1, 1⟩, 0⟩) := by
  show skipFrom text.toList false ⟨⟨1, 1⟩, 0⟩ = _
  rw [htext, h.skipFrom, Place.through_start]

theorem Rule.SkipsBlanks.script : SkipsBlanks Rule.script := (SkipsBlanks.spaced _).bind.bind

section Behind

variable {before : List Char}

def Diagnostic.behind (before : List Char) (d : Diagnostic) : Diagnostic :=
  ⟨d.message, d.position.behind before⟩

theorem Tree.read_behind (h : Skipped before) (source : String) :
    Tree.read (String.ofList before ++ source) =
      ((Tree.read source).map (.moved (.behind before))).mapError (.behind before) := by
  have htext : (String.ofList before ++ source).toList = before ++ source.toList := by
    rw [String.toList_append, String.toList_ofList]
  have hstart : Rule.script (.ofText (String.ofList before ++ source)) =
      Rule.script ((Cursor.ofText source).behind before) :=
    Rule.SkipsBlanks.script _ _ (Cursor.skip_ofText h htext)
  have hmoves : (Rule.script (.ofText source)).Moved before (.moved (.behind before))
      (Rule.script ((Cursor.ofText source).behind before)) :=
    Rule.Moves.script (.ofText source) (Nat.le_refl 1)
  unfold Tree.read
  rw [hstart]
  generalize Rule.script (.ofText source) = out,
    Rule.script ((Cursor.ofText source).behind before) = out' at hmoves ⊢
  cases hmoves with
  | ok tree => rfl
  | refuse e => rfl
  | abort e => rfl

/-- Behind what is passed over, a script has the same story, or the same error at the position
moved. -/
theorem compile_behind {ι : Type} [IdSource ι] (ids : ι) (h : Skipped before) (source : String) :
    compile ids (String.ofList before ++ source) =
      (compile ids source).mapError (.behind before) := by
  unfold compile
  rw [Tree.read_behind h]
  cases Tree.read source with
  | error e => rfl
  | ok tree =>
    simp only [Except.map, Except.mapError, Tree.assemble_moved, Assembly.moved, Checked.moved]
    cases tree.assemble ids with
    | ok result => rfl
    | error f => rfl

end Behind

/-! ## Scripts behind fillers -/

/-- Where a word is missing, it is what was expected. -/
theorem Rule.word_of_not_prefix {w : String} {c : Cursor} (hsettled : c.skip = c)
    (h : ¬ w.toList <+: c.rest) : word w c = .refuse ⟨c, .expected ("'" ++ w ++ "'")⟩ := by
  have htext : text w c = .refuse ⟨c, .unexpected⟩ :=
    if_neg fun hprefix => h (List.isPrefixOf_iff_prefix.mp hprefix)
  have hkeyword : keyword w c = .refuse ⟨c, .expected ("'" ++ w ++ "'")⟩ := by
    unfold keyword unfollowed token named
    rw [htext]
  show (Rule.skip >>= fun _ => keyword w >>= _) c = _
  rw [bind_apply]
  unfold skip
  rw [hsettled]
  dsimp only
  rw [bind_apply, hkeyword]

/-- A script begins with its first word. -/
theorem Tree.read_of_not_prefix {source : String} {c : Cursor}
    (hskip : (Cursor.ofText source).skip = c) (hsettled : c.skip = c)
    (h : ¬ "fable".toList <+: c.rest) : Tree.read source = .error ⟨c, .expected "'fable'"⟩ := by
  have hword : Rule.word "fable" c = .refuse ⟨c, .expected "'fable'"⟩ :=
    Rule.word_of_not_prefix hsettled h
  have hscript : Rule.script c = .refuse ⟨c, .expected "'fable'"⟩ := by
    unfold Rule.script Rule.story
    rw [Rule.bind_apply, Rule.bind_apply, hword]
  unfold Tree.read
  rw [Rule.SkipsBlanks.script _ _ (hskip.trans hsettled.symm), hscript]

/-- At the first line that is not clear every script is refused. -/
theorem compile_unclear {ι : Type} [IdSource ι] (ids : ι) {clear : List Filler} {f : Filler}
    (hclear : ∀ g ∈ clear, g.IsClear) (hf : ¬ f.IsClear) (others : List Filler) (source : String) :
    compile ids (String.ofList (Filler.texts (clear ++ f :: others)) ++ source) =
      .error ⟨"expected 'fable', found " ++
        showFound (f.text ++ (Filler.texts others ++ source.toList)),
        .after (Filler.texts clear)⟩ := by
  have htext : (String.ofList (Filler.texts (clear ++ f :: others)) ++ source).toList =
      Filler.texts clear ++ (f.text ++ (Filler.texts others ++ source.toList)) := by
    rw [String.toList_append, String.toList_ofList, Filler.texts_append, Filler.texts_cons,
      List.append_assoc, List.append_assoc]
  have hsettled := Filler.settled_of_not_isClear hf (Filler.texts others ++ source.toList)
  have hskip := (Cursor.skip_ofText (Filler.skipped_texts hclear) htext).trans (hsettled _)
  have hhead : ¬ "fable".toList <+: f.text ++ (Filler.texts others ++ source.toList) := by
    cases f with
    | blank => exact absurd trivial hf
    | comment => exact fun hprefix => nomatch (List.cons_prefix_cons.mp hprefix).1
  have hread := Tree.read_of_not_prefix hskip (hsettled _) hhead
  have hposition : ((⟨⟨1, 1⟩, 0⟩ : Place).behind (Filler.texts clear)).toPosition =
      .after (Filler.texts clear) := Position.behind_start _
  unfold compile
  rw [hread]
  exact congrArg (fun position => Except.error (Diagnostic.mk _ position)) hposition

/-- A script without pages and statements. -/
def emptyScript : String := "fable \"T\" do end"

theorem compile_emptyScript {ι : Type} [IdSource ι] (ids : ι) :
    compile ids emptyScript = .ok (⟨"T", [], []⟩, ids) := by
  have hread : (Tree.read emptyScript).toOption.map (fun tree => (tree.title, tree.items.isEmpty)) =
      some ("T", true) := by decide +kernel
  obtain ⟨⟨title, items⟩, htree, hseen⟩ := exists_ok_of_map hread
  obtain ⟨rfl, hitems⟩ := Prod.mk.inj hseen
  cases List.isEmpty_iff.mp hitems
  exact compile_eq_ok_iff.mpr ⟨_, htree, rfl⟩

/-- Fillers in front of scripts make no difference, up to the positions of errors, if and only if
their lines are clear. -/
theorem compile_filled_iff {ι : Type} [IdSource ι] (ids : ι) (fillers : List Filler) :
    (∀ source, compile ids (String.ofList (Filler.texts fillers) ++ source) =
        (compile ids source).mapError (.behind (Filler.texts fillers))) ↔
      ∀ f ∈ fillers, f.IsClear := by
  refine ⟨fun hall => ?_, fun hclear => compile_behind ids (Filler.skipped_texts hclear)⟩
  rcases Filler.clear_or_exists_first fillers with hclear | ⟨clear, f, others, rfl, hclear, hf⟩
  · exact hclear
  · have hempty := hall emptyScript
    rw [compile_unclear ids hclear hf, compile_emptyScript] at hempty
    exact nomatch hempty

/-- Two slashes and a line that begins with a carriage return. -/
def note : Filler := .comment ['\r', 'n', 'o', 't', 'e'] (by simp)

theorem texts_note : Filler.texts [note] = "//\rnote\n".toList := rfl

/-- Behind this line a script with a story is refused. -/
theorem compile_note : ∃ line : Filler, Filler.texts [line] = "//\rnote\n".toList ∧
    compile (⟨0⟩ : IdCounter) ("//\rnote\n" ++ emptyScript) =
      .error ⟨"expected 'fable', found '//'", ⟨1, 1⟩⟩ ∧
    compile (⟨0⟩ : IdCounter) emptyScript = .ok (⟨"T", [], []⟩, ⟨0⟩) := by
  have hunclear : ¬ note.IsClear := fun h => h (List.mem_cons_self ..)
  have hfound : showFound (note.text ++ (Filler.texts [] ++ emptyScript.toList)) = "'//'" := by
    decide +kernel
  have hnone : ∀ f ∈ ([] : List Filler), f.IsClear := nofun
  have hrefused := compile_unclear (⟨0⟩ : IdCounter) hnone hunclear [] emptyScript
  rw [List.nil_append, texts_note, String.ofList_toList, hfound] at hrefused
  exact ⟨note, texts_note, hrefused, compile_emptyScript _⟩

end Storybook.Script
