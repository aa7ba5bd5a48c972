/-
# `Storybook.Proofs.Script.Closed` — a text with more behind it

A comment goes on to the end of its line or of the text, and so a text with an open comment at its
end hides what is put behind it.  A text is `Closed` if it has none, and every text of a surface
tree is (`Surface.closing_text`).  Such a text begins with some blanks and comments, which are passed
over whatever is behind them (`Closed.exists_skipped`).

Two cursors are compared: the first one reads a closed text alone, and the second one reads it with
a blank and some `rest` behind it.  The cursors may stand

| | the first one | the second one |
| :-- | :-- | :-- |
| `Inside` | somewhere in the text | there as well |
| `Facing` | at a word of the text | there as well |
| `Ahead` | in front of a word, with blanks and comments between | there as well |
| `Past` | at the end of the text | at `rest`, past the blank |

Blanks and comments lead from `Beside`, which is the first or the last case, to `Ready`, which is
the second or the last one (`Beside.skip`).  All cases count the characters that are left to the
first cursor: they are fewer than `n`.
-/
import Storybook.Proofs.Script.Printing
import Storybook.Proofs.Script.Yield

namespace Storybook.Script

/-! ## Strings and comments that end -/

/-- Whether every string and every comment of a text ends in it. -/
inductive Closed : List Char → Prop
  | nil : Closed []
  | char {c : Char} {text : List Char} : c ≠ '"' → c ≠ '/' → Closed text → Closed (c :: text)
  | slash {text : List Char} : text.head? ≠ some '/' → Closed text → Closed ('/' :: text)
  | string {inside body text : List Char} :
    stringBody inside = some (body, text) → Closed text → Closed ('"' :: inside)
  | comment {line text : List Char} :
    (∀ c ∈ line, c ≠ '\n') → Closed text → Closed ('/' :: '/' :: (line ++ '\n' :: text))

/-- Whether a character begins neither a string nor a comment. -/
def isInert (c : Char) : Bool := c != '"' && c != '/'

theorem isInert_iff {c : Char} : isInert c = true ↔ c ≠ '"' ∧ c ≠ '/' := by
  simp [isInert]

theorem closed_cons_iff {c : Char} {text : List Char} (hquote : c ≠ '"') (hslash : c ≠ '/') :
    Closed (c :: text) ↔ Closed text := by
  refine ⟨fun h => ?_, .char hquote hslash⟩
  cases h with
  | char _ _ htext => exact htext
  | slash | comment => exact absurd rfl hslash
  | string => exact absurd rfl hquote

theorem closed_append_iff {inert text : List Char} (h : ∀ c ∈ inert, isInert c = true) :
    Closed (inert ++ text) ↔ Closed text := by
  induction inert with
  | nil => exact Iff.rfl
  | cons c inert ih =>
    obtain ⟨hquote, hslash⟩ := isInert_iff.mp (h c (List.mem_cons_self ..))
    rw [List.cons_append, closed_cons_iff hquote hslash]
    exact ih fun d hd => h d (List.mem_cons_of_mem _ hd)

theorem closed_slash_iff {text : List Char} (h : text.head? ≠ some '/') :
    Closed ('/' :: text) ↔ Closed text := by
  refine ⟨fun hc => ?_, .slash h⟩
  cases hc with
  | slash _ htext => exact htext
  | char _ hslash => exact absurd rfl hslash
  | comment => exact absurd rfl h

theorem eq_of_append_newline {line line' text text' : List Char} (h : ∀ c ∈ line, c ≠ '\n')
    (h' : ∀ c ∈ line', c ≠ '\n') (heq : line ++ '\n' :: text = line' ++ '\n' :: text') :
    text = text' := by
  induction line generalizing line' with
  | nil =>
    cases line' with
    | nil => exact (List.cons.inj heq).2
    | cons d _ => exact absurd (List.cons.inj heq).1.symm (h' d (List.mem_cons_self ..))
  | cons c line ih =>
    cases line' with
    | nil => exact absurd (List.cons.inj heq).1 (h c (List.mem_cons_self ..))
    | cons d line' =>
      exact ih (fun a ha => h a (List.mem_cons_of_mem _ ha))
        (fun a ha => h' a (List.mem_cons_of_mem _ ha)) (List.cons.inj heq).2

theorem closed_comment_iff {line text : List Char} (h : ∀ c ∈ line, c ≠ '\n') :
    Closed ('/' :: '/' :: (line ++ '\n' :: text)) ↔ Closed text := by
  refine ⟨fun hc => ?_, .comment h⟩
  generalize hall : '/' :: '/' :: (line ++ '\n' :: text) = all at hc
  cases hc with
  | nil => exact nomatch hall
  | char _ hslash => exact absurd (List.cons.inj hall).1.symm hslash
  | slash hhead =>
    rw [← (List.cons.inj hall).2] at hhead
    exact absurd rfl hhead
  | string => exact absurd (List.cons.inj hall).1 (by decide)
  | comment hline htext =>
    have hline' := (List.cons.inj (List.cons.inj hall).2).2
    exact eq_of_append_newline h hline hline' ▸ htext

/-- A string is read up to its quote, whatever follows. -/
theorem stringBody_append {inside body text : List Char}
    (h : stringBody inside = some (body, text)) :
    ∃ read, inside = read ++ text ∧
      ∀ more, stringBody (inside ++ more) = some (body, text ++ more) := by
  fun_induction stringBody inside generalizing body with
  | case1 => exact nomatch h
  | case2 rest =>
    cases h
    exact ⟨['"'], rfl, fun _ => rfl⟩
  | case3 => exact nomatch h
  | case4 c rest ih =>
    obtain ⟨⟨read, after⟩, hrest, hmap⟩ := Option.map_eq_some_iff.mp h
    cases hmap
    obtain ⟨before, hbefore, hmore⟩ := ih hrest
    refine ⟨'\\' :: c :: before, by rw [hbefore]; rfl, fun more => ?_⟩
    rw [List.cons_append, List.cons_append, stringBody, hmore]
    rfl
  | case5 c rest hquote hend hslash ih =>
    obtain ⟨⟨read, after⟩, hrest, hmap⟩ := Option.map_eq_some_iff.mp h
    cases hmap
    obtain ⟨before, hbefore, hmore⟩ := ih hrest
    have hback : c ≠ '\\' := by
      rintro rfl
      cases rest with
      | nil => exact hend rfl rfl
      | cons d rest => exact hslash d rest rfl rfl
    refine ⟨c :: before, by rw [hbefore]; rfl, fun more => ?_⟩
    rw [List.cons_append, stringBody, hmore]
    · rfl
    · exact hquote
    · exact fun hc _ => hback hc
    · exact fun _ _ hc => absurd hc hback

/-- Whether every string and every comment of a text ends in it, and nothing at its end could go on
to a comment. -/
def Closing (text : List Char) : Prop := ∀ rest, Closed rest → Closed (text ++ rest)

theorem Closing.closed {text : List Char} (h : Closing text) : Closed text :=
  List.append_nil text ▸ h [] .nil

theorem Closing.append {text more : List Char} (h : Closing text) (hmore : Closing more) :
    Closing (text ++ more) := by
  intro rest hrest
  rw [List.append_assoc]
  exact h _ (hmore rest hrest)

theorem Closing.of_nil : Closing [] := fun _ h => h

theorem Closing.of_inert {text : List Char} (h : text.all isInert = true) : Closing text :=
  fun _ => (closed_append_iff (List.all_eq_true.mp h)).mpr

theorem Closing.singleton {c : Char} (h : isInert c = true) : Closing [c] :=
  .of_inert (Bool.and_eq_true_iff.mpr ⟨h, rfl⟩)

theorem Closing.quoted (value : String) : Closing (quoted value) := by
  intro rest hrest
  have hshape : Script.quoted value ++ rest = '"' :: (escaped value.toList ++ '"' :: rest) := by
    simp [Script.quoted]
  rw [hshape]
  exact .string (stringBody_escaped _ _) hrest

/-! ### Texts of surface trees -/

theorem Closing.of_isNameChar {text : List Char} (h : ∀ c ∈ text, Text.isNameChar c = true) :
    Closing text := by
  refine .of_inert (List.all_eq_true.mpr fun c hc => isInert_iff.mpr ?_)
  have hname := h c hc
  constructor <;> rintro rfl <;> exact absurd hname (by decide +kernel)

theorem Closing.of_isSpace {blanks : List Char} (h : ∀ c ∈ blanks, isSpace c = true) :
    Closing blanks := by
  refine .of_inert (List.all_eq_true.mpr fun c hc => isInert_iff.mpr ?_)
  have hspace := h c hc
  constructor <;> rintro rfl <;> exact absurd hspace (by decide)

theorem Numeral.closing (n : Numeral) : Closing n.text := by
  have digits {read : List Char} (h : ∀ c ∈ read, c.isDigit = true) : Closing read :=
    .of_isNameChar fun c hc => isNameChar_of_isDigit (h c hc)
  obtain ⟨whole, fraction, _, hwhole, hfraction⟩ := n
  cases fraction with
  | nil => exact digits hwhole
  | cons c fraction =>
    have hpoint : Closing ['.'] := .singleton (by decide)
    exact (digits hwhole).append (hpoint.append (digits hfraction))

theorem Variable.closing (x : Variable) : Closing x.name.toList := by
  obtain ⟨c, others, h, -, hall⟩ := x.exists_toList
  exact h ▸ .of_isNameChar hall

section Spaced

variable (s : Spacing) {text : List Char}

theorem Spacing.closing_gap : Closing s.gap := .of_isSpace s.gap_isSpace

theorem Spacing.closing_inner : Closing s.inner := .of_isSpace s.inner_isSpace

theorem Closing.enclose (needed : Bool) (h : Closing text) : Closing (s.enclose needed text) := by
  cases needed with
  | false => exact h
  | true =>
    have hopen : Closing ['('] := .singleton (by decide)
    have hclose : Closing [')'] := .singleton (by decide)
    exact hopen.append (s.closing_inner.append (h.append (s.closing_inner.append hclose)))

/-- The blank behind a slash parts it from what follows. -/
theorem Closing.operator (op : BinaryOperator) (h : Closing text) :
    Closing (op.symbol.toList ++ (s.gap ++ text)) := by
  have hmore : Closing (s.gap ++ text) := s.closing_gap.append h
  cases op with
  | divide =>
    intro rest hrest
    refine .slash ?_ (hmore rest hrest)
    obtain ⟨c, blanks, hgap⟩ := List.exists_cons_of_ne_nil s.gap_ne_nil
    have hc := s.gap_isSpace c (hgap ▸ List.mem_cons_self ..)
    rw [hgap]
    rintro ⟨⟩
    exact nomatch hc
  | _ => exact (Closing.of_inert (by decide)).append hmore

namespace Surface

theorem closing_range {first last : Surface} (hfirst : Closing (first.text s))
    (hlast : Closing (last.text s)) : Closing ((range first last).text s) :=
  (hfirst.enclose s _).append (s.closing_gap.append ((Closing.of_inert (by decide)).append
    (s.closing_gap.append (hlast.enclose s _))))

mutual

/-- The text of a tree is closed, and so is what has it in front. -/
theorem closing_text : (e : Surface) → Closing (e.text s)
  | .number n => n.closing
  | .string value => .quoted value
  | .boolean value => by
    have hvalue : Closing (toString value).toList := .of_inert (by cases value <;> decide)
    exact hvalue
  | .var x => x.closing
  | .binary op left right =>
    ((closing_text left).enclose s _).append
      (s.closing_gap.append (.operator s op ((closing_text right).enclose s _)))
  | .unary op operand => by
    have hsign : Closing op.symbol.toList := .of_inert (by cases op <;> decide)
    exact hsign.append (s.closing_gap.append ((closing_text operand).enclose s _))
  | .range first last => closing_range s (closing_text first) (closing_text last)
  | .random first last => by
    have hclose : Closing (s.inner ++ ")".toList) := s.closing_inner.append (.of_inert (by decide))
    have hrange := closing_range s (closing_text first) (closing_text last)
    rw [text_random]
    exact (Closing.of_inert (by decide)).append (s.closing_gap.append
      ((Closing.of_inert (by decide)).append (s.closing_inner.append (hrange.append hclose))))
  | .pickOne options => by
    have hlist := closing_listText options .of_nil
    rw [text_pickOne]
    exact (Closing.of_inert (by decide)).append (s.closing_gap.append
      ((Closing.of_inert (by decide)).append (s.closing_inner.append
        (hlist.append (.of_inert (by decide))))))

theorem closing_listText : (options : List Surface) → {before : List Char} → Closing before →
    Closing (listText s before options)
  | [], _, _ => .of_nil
  | e :: rest, _, hbefore => by
    have hcomma : Closing [','] := .singleton (by decide)
    exact hbefore.append ((closing_text e).append
      (s.closing_inner.append (closing_listText rest (hcomma.append s.closing_gap))))

end

end Surface

end Spaced

/-! ## Blanks and comments -/

theorem isComment_append {line text more : List Char} (h : ∀ c ∈ line, c ≠ '\n') :
    isComment (line ++ '\n' :: more) = isComment (line ++ '\n' :: text) := by
  induction line with
  | nil => rfl
  | cons c line ih =>
    have hnext := ih fun d hd => h d (List.mem_cons_of_mem _ hd)
    by_cases hc : c = '\r'
    · subst hc
      cases line <;> rfl
    · have hfeed := h c (List.mem_cons_self ..)
      simp only [List.cons_append]
      rw [isComment, isComment, hnext] <;> assumption

/-- A comment is passed over to the end of its line. -/
theorem skipFrom_line {line text : List Char} (h : ∀ c ∈ line, c ≠ '\n')
    (hcomment : isComment (line ++ '\n' :: text) = true) (p : Place) :
    skipFrom (line ++ '\n' :: text) true p = skipFrom text false (p.through (line ++ ['\n'])) := by
  induction line generalizing p with
  | nil => rfl
  | cons c line ih =>
    have hrest := fun d hd => h d (List.mem_cons_of_mem _ hd)
    by_cases hc : c = '\r'
    · subst hc
      cases line with
      | nil =>
        have hends : ('\r' != '\n' && '\r' != '\r') = false := by decide
        rw [List.cons_append, List.nil_append, skipFrom, hends, skipFrom.eq_def]
        exact if_pos rfl
      | cons d line =>
        have hd : d = '\n' := Option.some.inj (beq_iff_eq.mp hcomment)
        exact absurd hd (hrest d (List.mem_cons_self ..))
    · have hfeed := h c (List.mem_cons_self ..)
      rw [List.cons_append, isComment] at hcomment
      · have hstays : (c != '\n' && c != '\r') = true := by simp [hfeed, hc]
        rw [List.cons_append, skipFrom, hstays, ih hrest hcomment]
        rfl
      · exact hfeed
      · exact hc

theorem comment_append (line text more : List Char) :
    '/' :: '/' :: (line ++ '\n' :: text) ++ more =
      '/' :: '/' :: (line ++ '\n' :: (text ++ more)) := by
  simp

/-- Blanks and comments. -/
inductive Skipped : List Char → Prop
  | nil : Skipped []
  | blank {c : Char} {text : List Char} : isSpace c = true → Skipped text → Skipped (c :: text)
  | comment {line text : List Char} :
    (∀ c ∈ line, c ≠ '\n') → isComment (line ++ ['\n']) = true → Skipped text →
      Skipped ('/' :: '/' :: (line ++ '\n' :: text))

/-- They are passed over, whatever follows. -/
theorem Skipped.skipFrom {gap : List Char} (h : Skipped gap) (rest : List Char) (p : Place) :
    skipFrom (gap ++ rest) false p = skipFrom rest false (p.through gap) := by
  induction h generalizing p with
  | nil => rfl
  | @blank c text hc _ ih =>
    rw [List.cons_append, Script.skipFrom.eq_def]
    exact (if_pos hc).trans (ih (p.after c))
  | @comment line text hline hc _ ih =>
    have hc' : isComment (line ++ '\n' :: (text ++ rest)) = true := isComment_append hline ▸ hc
    have hplace : p.through ('/' :: '/' :: (line ++ '\n' :: text)) =
        (((p.after '/').after '/').through (line ++ ['\n'])).through text := by
      simp [Place.through]
    rw [hplace, ← ih, ← skipFrom_line hline hc', comment_append, Script.skipFrom.eq_def]
    simp [isSpace, hc']

/-- What is behind blanks and comments is closed. -/
theorem Closed.of_skipped {gap text : List Char} (hgap : Skipped gap) (h : Closed (gap ++ text)) :
    Closed text := by
  induction hgap with
  | nil => exact h
  | @blank c more hc _ ih =>
    refine ih ((closed_cons_iff ?_ ?_).mp h) <;> rintro rfl <;> exact nomatch hc
  | @comment line more hline _ _ ih =>
    rw [comment_append, closed_comment_iff hline] at h
    exact ih h

/-- A text that begins with neither a blank nor a comment, whatever follows it, unless that is a
slash. -/
structure Firm (text : List Char) : Prop where
  head : ∃ c more, text = c :: more ∧ isSpace c = false
  settled : ∀ rest, rest.head? ≠ some '/' → Settled (text ++ rest)

theorem Firm.ne_nil {text : List Char} (h : Firm text) : text ≠ [] := by
  obtain ⟨c, more, rfl, -⟩ := h.head
  exact List.cons_ne_nil c more

theorem Firm.alone {text : List Char} (h : Firm text) : Settled text := by
  have hsettled := h.settled [] nofun
  rwa [List.append_nil] at hsettled

/-- Blanks and comments are the beginning of a text whose comments all end. -/
theorem Closed.exists_skipped {text : List Char} (h : Closed text) : ∃ gap word,
    text = gap ++ word ∧ Skipped gap ∧ Closed word ∧ (word = [] ∨ Firm word) := by
  induction h with
  | nil => exact ⟨[], [], rfl, .nil, .nil, .inl rfl⟩
  | @char c text hquote hslash htext ih =>
    cases hc : isSpace c with
    | true =>
      obtain ⟨gap, word, rfl, hgap, hword⟩ := ih
      exact ⟨c :: gap, word, rfl, .blank hc hgap, hword⟩
    | false =>
      refine ⟨[], c :: text, rfl, .nil, .char hquote hslash htext, .inr ⟨⟨c, text, rfl, hc⟩, ?_⟩⟩
      exact fun _ _ => settled_cons hc hslash
  | @slash text hhead htext _ =>
    refine ⟨[], '/' :: text, rfl, .nil, .slash hhead htext, .inr ⟨⟨'/', text, rfl, rfl⟩, ?_⟩⟩
    intro rest hrest
    refine settled_slash ?_
    cases text with
    | nil => exact hrest
    | cons => exact hhead
  | @string inside _ _ hbody htext _ =>
    refine ⟨[], '"' :: inside, rfl, .nil, .string hbody htext, .inr ⟨⟨'"', inside, rfl, rfl⟩, ?_⟩⟩
    exact fun _ _ => settled_mark rfl
  | @comment line text hline htext ih =>
    cases hc : isComment (line ++ ['\n']) with
    | true =>
      obtain ⟨gap, word, rfl, hgap, hword⟩ := ih
      exact ⟨_, word, (comment_append line gap word).symm, .comment hline hc hgap, hword⟩
    | false =>
      refine ⟨[], _, rfl, .nil, .comment hline htext, .inr ⟨⟨'/', _, rfl, rfl⟩, ?_⟩⟩
      intro rest _ p
      have hc' : isComment (line ++ '\n' :: (text ++ rest)) = false := isComment_append hline ▸ hc
      rw [comment_append, Script.skipFrom.eq_def]
      simp [isSpace, hc']

/-! ## Two cursors -/

/-- The second cursor has a blank and `rest` behind what the first one has, which is shorter than
`n`. -/
structure Inside (rest : List Char) (n : Nat) (c d : Cursor) : Prop where
  lt : c.rest.length < n
  closed : Closed c.rest
  eq : d.rest = c.rest ++ ' ' :: rest

/-- The first cursor stands at a word of its text. -/
structure Facing (rest : List Char) (n : Nat) (c d : Cursor) : Prop extends
    Inside rest n c d where
  ne_nil : c.rest ≠ []
  settled : Settled c.rest

/-- Both cursors are past the text of the first one. -/
structure Past (rest : List Char) (n : Nat) (c d : Cursor) : Prop where
  lt : 0 < n
  nil : c.rest = []
  eq : d.rest = rest

/-- Where both cursors may be after a word and the blanks behind it. -/
def Ready (rest : List Char) (n : Nat) (c d : Cursor) : Prop :=
  Facing rest n c d ∨ Past rest n c d

/-- Where both cursors may be. -/
def Beside (rest : List Char) (n : Nat) (c d : Cursor) : Prop :=
  Inside rest n c d ∨ Past rest n c d

/-- There is a word of the text in front of the first cursor. -/
structure Ahead (rest : List Char) (n : Nat) (c d : Cursor) : Prop extends
    Inside rest n c d where
  ne_nil : c.skip.rest ≠ []

section Places

variable {rest : List Char} {m n : Nat} {c d : Cursor}

theorem Inside.mono (h : Inside rest m c d) (hmn : m ≤ n) : Inside rest n c d :=
  ⟨Nat.lt_of_lt_of_le h.lt hmn, h.closed, h.eq⟩

theorem Facing.mono (h : Facing rest m c d) (hmn : m ≤ n) : Facing rest n c d :=
  ⟨h.toInside.mono hmn, h.ne_nil, h.settled⟩

theorem Past.mono (h : Past rest m c d) (hmn : m ≤ n) : Past rest n c d :=
  ⟨Nat.lt_of_lt_of_le h.lt hmn, h.nil, h.eq⟩

theorem Ready.mono (h : Ready rest m c d) (hmn : m ≤ n) : Ready rest n c d :=
  h.imp (·.mono hmn) (·.mono hmn)

theorem Beside.mono (h : Beside rest m c d) (hmn : m ≤ n) : Beside rest n c d :=
  h.imp (·.mono hmn) (·.mono hmn)

theorem Ready.beside (h : Ready rest n c d) : Beside rest n c d := h.imp (·.toInside) id

theorem Beside.lt (h : Beside rest n c d) : c.rest.length < n := by
  rcases h with h | h
  · exact h.lt
  · rw [h.nil]
    exact h.lt

theorem Ready.lt (h : Ready rest n c d) : c.rest.length < n := h.beside.lt

theorem Ready.tighten (h : Ready rest n c d) : Ready rest (c.rest.length + 1) c d :=
  h.imp (fun h => ⟨⟨Nat.lt_succ_self _, h.closed, h.eq⟩, h.ne_nil, h.settled⟩)
    fun h => ⟨Nat.succ_pos _, h.nil, h.eq⟩

theorem skip_of_settled (h : Settled c.rest) : c.skip = c := h c.toPlace

theorem Facing.ahead (h : Facing rest n c d) : Ahead rest n c d :=
  ⟨h.toInside, by rw [skip_of_settled h.settled]; exact h.ne_nil⟩

/-- Blanks and comments are passed over alike, and at the end of the text also the blank behind
it. -/
theorem Closed.skipFrom {text : List Char} (h : Closed text) (hrest : Settled rest)
    (hlt : text.length < n) (p q : Place) :
    Ready rest n (skipFrom text false p) (skipFrom (text ++ ' ' :: rest) false q) := by
  obtain ⟨gap, word, rfl, hgap, hword, hfirm⟩ := h.exists_skipped
  have hlt : word.length < n := by
    rw [List.length_append] at hlt
    omega
  rw [hgap.skipFrom, List.append_assoc, hgap.skipFrom]
  rcases hfirm with rfl | hfirm
  · have hblank := (Skipped.blank (c := ' ') rfl .nil).skipFrom rest (q.through gap)
    refine .inr ⟨hlt, rfl, ?_⟩
    rw [show [] ++ ' ' :: rest = [' '] ++ rest from rfl, hblank, hrest]
    rfl
  · rw [hfirm.alone, hfirm.settled (' ' :: rest) (by simp)]
    exact .inl ⟨⟨hlt, hword, rfl⟩, hfirm.ne_nil, hfirm.alone⟩

theorem Beside.skip (hrest : Settled rest) (h : Beside rest n c d) :
    Ready rest n c.skip d.skip := by
  rcases h with h | h
  · have hskip := h.closed.skipFrom hrest h.lt c.toPlace d.toPlace
    rw [← h.eq] at hskip
    exact hskip
  · have hc : Settled c.rest := h.nil ▸ settled_nil
    have hd : Settled d.rest := h.eq ▸ hrest
    rw [skip_of_settled hc, skip_of_settled hd]
    exact .inr h

theorem Ahead.skip (hrest : Settled rest) (h : Ahead rest n c d) :
    Facing rest n c.skip d.skip :=
  (Beside.skip hrest (.inl h.toInside)).resolve_right fun hpast => h.ne_nil hpast.nil

end Places

end Storybook.Script
