/-
# `Storybook.Proofs.Script.Behind` — rules behind another text

What stands in front of a script moves all of its places.  Behind a text `before`

| | is moved by |
| :-- | :-- |
| a line | the line feeds of `before` |
| a column of the first line | the characters after the last of them |
| any other column | nothing |
| an offset | the bytes of `before` |

A rule reads the same there.  `Moves before f p q` says so of two rules: from every cursor `p`
comes to a value where `q`, from the cursor moved, comes to `f` of it, and to an error where `q`
comes to the error moved; and the cursors that are reached are each other's.  Rules that note no
positions come to the same values (`Plain`).

Errors are compared by their offsets, and contexts look how far an error is from the first word
behind the blanks; all of these are moved alike, so that the comparisons come out the same.
-/
import Storybook.Proofs.Script.Reading
import Storybook.Script.Grammar

namespace Storybook.Script

variable {before : List Char}

/-! ## Places -/

/-- A position as it is behind a text. -/
def Position.behind (before : List Char) (p : Position) : Position where
  line := p.line + before.count '\n'
  column :=
    if p.line = 1 then p.column + (before.reverse.takeWhile (· != '\n')).length else p.column

def Place.behind (before : List Char) (p : Place) : Place where
  toPosition := p.toPosition.behind before
  offset := p.offset + (String.ofList before).utf8ByteSize

def Cursor.behind (before : List Char) (c : Cursor) : Cursor :=
  .withRest (c.toPlace.behind before) c.rest

theorem Cursor.rest_behind (c : Cursor) : (c.behind before).rest = c.rest := rfl

/-- Only the columns of the first line are moved, and no line feed leads there. -/
theorem Place.after_behind {p : Place} (hline : 1 ≤ p.line) (c : Char) :
    (p.behind before).after c = (p.after c).behind before := by
  unfold Place.after
  split
  · have hother : p.line + 1 ≠ 1 := by omega
    simp only [Place.behind, Position.behind, if_neg hother, Place.mk.injEq, Position.mk.injEq,
      and_true]
    omega
  · simp only [Place.behind, Position.behind, Place.mk.injEq, Position.mk.injEq, true_and]
    split <;> omega

theorem Place.one_le_line_after {p : Place} (hline : 1 ≤ p.line) (c : Char) :
    1 ≤ (p.after c).line := by
  unfold Place.after
  split
  · exact Nat.succ_pos _
  · exact hline

namespace Cursor

theorem advance_behind (before : List Char) {c : Cursor} (hline : 1 ≤ c.line) (n : Nat) :
    1 ≤ (c.advance n).line ∧ (c.behind before).advance n = (c.advance n).behind before := by
  induction n generalizing c with
  | zero => exact ⟨hline, rfl⟩
  | succ n ih =>
    obtain ⟨place, rest⟩ := c
    cases rest with
    | nil => exact ⟨hline, rfl⟩
    | cons first rest =>
      have hnext := ih (c := withRest (place.after first) rest)
        (Place.one_le_line_after hline first)
      refine ⟨hnext.1, ?_⟩
      show (withRest ((place.behind before).after first) rest).advance n = _
      rw [Place.after_behind hline]
      exact hnext.2

end Cursor

/-! ## Blanks and comments -/

/-- Two slashes that begin no comment are not passed over. -/
theorem settled_of_not_isComment {text : List Char} (h : isComment text = false) :
    Settled ('/' :: '/' :: text) := by
  intro p
  rw [skipFrom.eq_def]
  exact if_neg (ne_true_of_eq_false h)

/-- How many characters are passed over hangs on the text alone. -/
theorem exists_skipFrom_eq_advance (rest : List Char) (inComment : Bool) :
    ∃ n, ∀ p, skipFrom rest inComment p = (Cursor.withRest p rest).advance n := by
  induction rest generalizing inComment with
  | nil => exact ⟨0, fun _ => by cases inComment <;> rfl⟩
  | cons c rest ih =>
    cases inComment with
    | true =>
      obtain ⟨n, hn⟩ := ih (c != '\n' && c != '\r')
      exact ⟨n + 1, fun p => hn (p.after c)⟩
    | false =>
      cases hblank : isSpace c with
      | true =>
        obtain ⟨n, hn⟩ := ih false
        refine ⟨n + 1, fun p => ?_⟩
        rw [skipFrom.eq_def]
        exact (if_pos hblank).trans (hn (p.after c))
      | false =>
        by_cases hslash : c = '/'
        · subst hslash
          by_cases hcomment : ∃ text, rest = '/' :: text
          · obtain ⟨text, rfl⟩ := hcomment
            cases hcomment : isComment text with
            | true =>
              obtain ⟨n, hn⟩ := ih true
              refine ⟨n + 1, fun p => ?_⟩
              rw [skipFrom.eq_def]
              exact (if_pos hcomment).trans (hn (p.after '/'))
            | false => exact ⟨0, settled_of_not_isComment hcomment⟩
          · refine ⟨0, settled_slash fun hhead => hcomment ?_⟩
            obtain ⟨text, rfl⟩ := List.head?_eq_some_iff.mp hhead
            exact ⟨text, rfl⟩
        · exact ⟨0, settled_cons hblank hslash⟩

theorem Cursor.skip_behind (before : List Char) {c : Cursor} (hline : 1 ≤ c.line) :
    1 ≤ c.skip.line ∧ (c.behind before).skip = c.skip.behind before := by
  obtain ⟨n, hskip⟩ := exists_skipFrom_eq_advance c.rest false
  have hadvance := Cursor.advance_behind before hline n
  have hhere : c.skip = c.advance n := hskip c.toPlace
  have hthere : (c.behind before).skip = (c.behind before).advance n := hskip _
  rw [hhere, hthere]
  exact hadvance

/-! ## Errors -/

def SyntaxError.behind (before : List Char) (e : SyntaxError) : SyntaxError :=
  ⟨e.cursor.behind before, e.cause⟩

namespace SyntaxError

theorem further_behind (e f : SyntaxError) :
    (e.behind before).further (f.behind before) = (e.further f).behind before := by
  unfold further
  by_cases hle : e.cursor.offset ≤ f.cursor.offset
  · rw [if_pos hle]
    exact if_pos (Nat.add_le_add_right hle _)
  · rw [if_neg hle]
    exact if_neg fun h => hle (Nat.le_of_add_le_add_right h)

theorem inContext_behind (what : String) (c : Cursor) (e : SyntaxError) :
    (e.behind before).inContext what (c.behind before).offset =
      (e.inContext what c.offset).behind before := by
  obtain ⟨cursor, cause⟩ := e
  cases cause with
  | unexpected => rfl
  | complaint message => rfl
  | expected other =>
    unfold inContext behind
    dsimp only
    by_cases hle : cursor.offset ≤ c.offset
    · rw [if_pos hle]
      exact if_pos (Nat.add_le_add_right hle _)
    · rw [if_neg hle]
      exact if_neg fun h => hle (Nat.le_of_add_le_add_right h)

end SyntaxError

/-! ## The judgement -/

/-- Whether an outcome is another one as it is behind a text, with its value changed. -/
inductive Outcome.Moved (before : List Char) (f : α → β) : Outcome α → Outcome β → Prop
  | ok (value : α) {c : Cursor} : 1 ≤ c.line →
    Moved before f (.ok value c) (.ok (f value) (c.behind before))
  | refuse (e : SyntaxError) : Moved before f (.refuse e) (.refuse (e.behind before))
  | abort (e : SyntaxError) : Moved before f (.abort e) (.abort (e.behind before))

/-- Some characters are read alike. -/
theorem Outcome.Moved.advance {α : Type} {c : Cursor} (hline : 1 ≤ c.line) (value : α) (n : Nat) :
    Moved before id (.ok value (c.advance n)) (.ok value ((c.behind before).advance n)) := by
  obtain ⟨hreached, hmoved⟩ := Cursor.advance_behind before hline n
  rw [hmoved]
  exact .ok value hreached

namespace Rule

/-- Whether the second rule comes behind a text to what the first one comes to, with its value
changed. -/
def Moves (before : List Char) (f : α → β) (p : Rule α) (q : Rule β) : Prop :=
  ∀ c, 1 ≤ c.line → (p c).Moved before f (q (c.behind before))

/-- Whether a rule comes to the same behind a text. -/
abbrev Plain (before : List Char) (p : Rule α) : Prop := Moves before id p p

section Combinators

variable {α β γ δ : Type} {f g : α → β} {p p' : Rule α} {q q' : Rule β}

theorem Moves.congr (h : Moves before f p q) (hfg : ∀ v, f v = g v) : Moves before g p q := by
  rw [← show f = g from funext hfg]
  exact h

theorem Moves.pure (value : α) :
    Moves before f (Pure.pure value : Rule α) (Pure.pure (f value) : Rule β) :=
  fun _ hline => .ok value hline

theorem Moves.pure_of_eq {value : α} {changed : β} (h : f value = changed) :
    Moves before f (Pure.pure value : Rule α) (Pure.pure changed : Rule β) :=
  h ▸ .pure value

theorem Moves.refuse (cause : Cause) :
    Moves before f (Rule.refuse cause : Rule α) (Rule.refuse cause : Rule β) :=
  fun _ _ => .refuse _

theorem Moves.abort (cause : Cause) :
    Moves before f (Rule.abort cause : Rule α) (Rule.abort cause : Rule β) :=
  fun _ _ => .abort _

theorem Moves.bind {r : α → Rule γ} {r' : β → Rule δ} {h : γ → δ} (hp : Moves before f p q)
    (hr : ∀ v, Moves before h (r v) (r' (f v))) : Moves before h (p >>= r) (q >>= r') := by
  intro c hline
  have hout := hp c hline
  rw [bind_apply, bind_apply]
  generalize p c = out, q (c.behind before) = out' at hout ⊢
  cases hout with
  | ok value hline' => exact hr value _ hline'
  | refuse e => exact .refuse e
  | abort e => exact .abort e

theorem Plain.bind {r : α → Rule γ} (hp : Plain before p) (hr : ∀ v, Plain before (r v)) :
    Plain before (p >>= r) :=
  Moves.bind hp hr

theorem Moves.orElse (hp : Moves before f p q) (hp' : Moves before f p' q') :
    Moves before f (p <|> p') (q <|> q') := by
  intro c hline
  have hout := hp c hline
  rw [orElse_apply, orElse_apply]
  generalize p c = out, q (c.behind before) = out' at hout ⊢
  cases hout with
  | ok value hline' => exact .ok value hline'
  | abort e => exact .abort e
  | refuse e =>
    have hnext := hp' c hline
    dsimp only
    generalize p' c = next, q' (c.behind before) = next' at hnext ⊢
    cases hnext with
    | ok value hline' => exact .ok value hline'
    | abort e' => exact .abort e'
    | refuse e' =>
      dsimp only
      rw [SyntaxError.further_behind]
      exact .refuse _

theorem Moves.cut (hp : Moves before f p q) : Moves before f (Rule.cut p) (Rule.cut q) := by
  intro c hline
  have hout := hp c hline
  unfold Rule.cut
  generalize p c = out, q (c.behind before) = out' at hout ⊢
  cases hout with
  | ok value hline' => exact .ok value hline'
  | refuse e => exact .abort e
  | abort e => exact .abort e

theorem Moves.inContext {what : String} (hp : Moves before f p q) :
    Moves before f (Rule.inContext what p) (Rule.inContext what q) := by
  intro c hline
  have hout := hp c hline
  unfold Rule.inContext
  rw [(Cursor.skip_behind before hline).2]
  generalize p c = out, q (c.behind before) = out' at hout ⊢
  cases hout with
  | ok value hline' => exact .ok value hline'
  | refuse e =>
    show Outcome.Moved before f _ (.refuse _)
    rw [SyntaxError.inContext_behind]
    exact .refuse _
  | abort e =>
    show Outcome.Moved before f _ (.abort _)
    rw [SyntaxError.inContext_behind]
    exact .abort _

theorem Moves.optional (hp : Moves before f p q) :
    Moves before (Option.map f) (Rule.optional p) (Rule.optional q) := by
  intro c hline
  have hout := hp c hline
  unfold Rule.optional
  generalize p c = out, q (c.behind before) = out' at hout ⊢
  cases hout with
  | ok value hline' => exact .ok (some value) hline'
  | refuse e => exact .ok none hline
  | abort e => exact .abort e

/-- The induction is on the length of the text: both rules go on with what is left of it. -/
theorem Moves.many (hp : Moves before f p q) :
    Moves before (List.map f) (Rule.many p) (Rule.many q) := by
  intro c
  induction hlength : c.rest.length using Nat.strongRecOn generalizing c with
  | ind n ih =>
    intro hline
    have hout := hp c hline
    rw [Rule.many.eq_def p, Rule.many.eq_def q]
    generalize p c = out, q (c.behind before) = out' at hout ⊢
    cases hout with
    | refuse e => exact .ok [] hline
    | abort e => exact .abort e
    | @ok value next hnext =>
      dsimp only
      rw [Cursor.rest_behind, Cursor.rest_behind]
      by_cases hlt : next.rest.length < c.rest.length
      · have hothers := ih _ (hlength ▸ hlt) next rfl hnext
        rw [if_pos hlt, if_pos hlt]
        generalize Rule.many p next = others, Rule.many q (next.behind before) = others'
          at hothers ⊢
        cases hothers with
        | ok values hlast => exact .ok (value :: values) hlast
        | refuse e => exact .refuse e
        | abort e => exact .abort e
      · rw [if_neg hlt, if_neg hlt]
        exact .refuse _

theorem Moves.nested {what : String} {r : Nat → Rule α} {r' : Nat → Rule β} {room : Nat}
    (h : ∀ less, room = less + 1 → Moves before f (r less) (r' less)) :
    Moves before f (Rule.nested what r room) (Rule.nested what r' room) := by
  cases room with
  | zero => exact .abort _
  | succ room => exact h room rfl

theorem Plain.optional (hp : Plain before p) : Plain before (Rule.optional p) :=
  (Moves.optional hp).congr fun _ => Option.map_id_apply

theorem Plain.many (hp : Plain before p) : Plain before (Rule.many p) :=
  (Moves.many hp).congr List.map_id

theorem Moves.separated {separator : Rule Unit} (hs : Plain before separator)
    (hp : Plain before p) : Plain before (Rule.separated separator p) := by
  refine Plain.bind hp fun first => ?_
  exact Plain.bind (Plain.many (Plain.bind hs fun _ => hp)) fun _ => .pure _

end Combinators

/-! ### Rules that look at what they have read -/

section Outcomes

variable {α β : Type} {p : Rule α}

theorem Moves.named {what : String} (hp : Plain before p) : Plain before (Rule.named what p) := by
  intro c hline
  have hout := hp c hline
  unfold Rule.named
  generalize p c = out, p (c.behind before) = out' at hout ⊢
  cases hout with
  | ok value hline' => exact .ok value hline'
  | refuse e => exact .refuse _
  | abort e => exact .abort e

theorem Moves.notAhead (hp : Plain before p) : Plain before (Rule.notAhead p) := by
  intro c hline
  have hout := hp c hline
  unfold Rule.notAhead
  generalize p c = out, p (c.behind before) = out' at hout ⊢
  cases hout with
  | ok value hline' => exact .refuse _
  | refuse e => exact .ok () hline
  | abort e => exact .abort e

theorem Moves.checked {what : String} {test : α → Bool} (hp : Plain before p) :
    Plain before (Rule.checked what test p) := by
  intro c hline
  have hout := hp c hline
  unfold Rule.checked
  generalize p c = out, p (c.behind before) = out' at hout ⊢
  cases hout with
  | refuse e => exact .refuse e
  | abort e => exact .abort e
  | ok value hline' =>
    dsimp only [id]
    split
    · exact .ok value hline'
    · exact .refuse _

theorem Moves.unfollowed {what : String} {test : Char → Bool} (hp : Plain before p) :
    Plain before (Rule.unfollowed what test p) := by
  intro c hline
  have hout := hp c hline
  unfold Rule.unfollowed
  generalize p c = out, p (c.behind before) = out' at hout ⊢
  cases hout with
  | refuse e => exact .refuse e
  | abort e => exact .abort e
  | @ok value next hline' =>
    dsimp only [id]
    rw [Cursor.rest_behind]
    split
    · exact .refuse _
    · exact .ok value hline'

theorem Moves.computed {compute : α → Except String β} (hp : Plain before p) :
    Plain before (Rule.computed p compute) := by
  intro c hline
  have hout := hp c hline
  unfold Rule.computed
  generalize p c = out, p (c.behind before) = out' at hout ⊢
  cases hout with
  | refuse e => exact .refuse e
  | abort e => exact .abort e
  | ok value hline' =>
    dsimp only [id]
    cases compute value with
    | ok result => exact .ok result hline'
    | error message => exact .refuse _

end Outcomes

/-! ### Characters -/

theorem Moves.text (expected : String) : Plain before (Rule.text expected) := by
  intro c hline
  unfold Rule.text
  rw [Cursor.rest_behind]
  split
  · exact .advance hline () _
  · exact .refuse _

theorem Moves.charsWhile (test : Char → Bool) : Plain before (Rule.charsWhile test) :=
  fun _ hline => .advance hline _ _

theorem Moves.someChars (test : Char → Bool) : Plain before (Rule.someChars test) := by
  intro c hline
  unfold Rule.someChars
  rw [Cursor.rest_behind]
  cases c.rest.takeWhile test with
  | nil => exact .refuse _
  | cons first read => exact .advance hline (first :: read) _

theorem Moves.endOfText : Plain before Rule.endOfText := by
  intro c hline
  unfold Rule.endOfText
  rw [Cursor.rest_behind]
  split
  · exact .ok () hline
  · exact .refuse _

theorem Moves.skip : Plain before Rule.skip := by
  intro c hline
  obtain ⟨hreached, hmoved⟩ := Cursor.skip_behind before hline
  show Outcome.Moved before id (.ok () c.skip) (.ok () (c.behind before).skip)
  rw [hmoved]
  exact .ok () hreached

theorem Moves.spaced {α β : Type} {f : α → β} {p : Rule α} {q : Rule β} (hp : Moves before f p q) :
    Moves before f (Rule.spaced p) (Rule.spaced q) := by
  refine Moves.bind Moves.skip fun _ => ?_
  refine Moves.bind hp fun value => ?_
  exact Moves.bind Moves.skip fun _ => .pure value

/-! ## Words -/

theorem Moves.token (expected : String) : Plain before (Rule.token expected) :=
  (Moves.text expected).named

theorem Moves.keyword (w : String) : Plain before (Rule.keyword w) := (Moves.token w).unfollowed

theorem Moves.symbol (mark : String) : Plain before (Rule.symbol mark) := (Moves.token mark).spaced

theorem Moves.word (w : String) : Plain before (Rule.word w) := (Moves.keyword w).spaced

theorem Moves.identifier : Plain before Rule.identifier := by
  refine Moves.inContext (Plain.bind (.someChars _) fun first => ?_)
  exact Plain.bind (.charsWhile _) fun others => .pure _

theorem Moves.variableName : Plain before Rule.variableName := Moves.identifier.checked

theorem Moves.digits : Plain before Rule.digits := .someChars _

theorem Moves.minus : Plain before Rule.minus :=
  Plain.bind (Moves.text _).optional fun _ => .pure _

theorem Moves.integer : Plain before Rule.integer := by
  refine Moves.inContext (Moves.computed (Plain.bind .minus fun negative => ?_))
  exact Plain.bind .digits fun digits => .pure _

theorem Moves.wholeNumber : Plain before Rule.wholeNumber := Moves.digits.computed

theorem Moves.count : Plain before Rule.count := Moves.integer.computed

theorem Moves.number : Plain before Rule.number := by
  refine Moves.inContext (Plain.bind .digits fun whole => ?_)
  refine Plain.bind (Plain.optional (Plain.bind (.text _) fun _ => .digits)) fun fraction => ?_
  exact .pure _

theorem Moves.signedNumber : Plain before Rule.signedNumber := by
  refine Moves.inContext (Plain.bind .minus fun negative => ?_)
  exact Plain.bind .number fun magnitude => .pure _

theorem Moves.boolean : Plain before Rule.boolean :=
  Moves.inContext (.orElse (Plain.bind (.keyword _) fun _ => .pure _)
    (Plain.bind (.keyword _) fun _ => .pure _))

theorem Moves.stringLiteral : Plain before Rule.stringLiteral := by
  intro c hline
  unfold Rule.stringLiteral
  rw [Cursor.rest_behind]
  split
  · split
    · exact .advance hline _ _
    · exact .abort _
  · exact .refuse _

theorem Moves.durationUnit : Plain before Rule.durationUnit :=
  Moves.orElse (Plain.bind (.text _) fun _ => .pure _) (Plain.bind (.text _) fun _ => .pure _)

theorem Moves.duration : Plain before Rule.duration := by
  refine Moves.unfollowed (Moves.inContext (Plain.bind .wholeNumber fun amount => ?_))
  exact Plain.bind .durationUnit fun unit => .pure _

theorem Moves.point : Plain before Rule.point := by
  refine Plain.bind (.symbol _) fun _ => ?_
  refine Plain.bind Moves.signedNumber.spaced fun x => ?_
  refine Plain.bind (.symbol _) fun _ => ?_
  refine Plain.bind Moves.signedNumber.spaced fun y => ?_
  exact Plain.bind (.symbol _) fun _ => .pure _

theorem Moves.target : Plain before Rule.target :=
  Moves.inContext (Plain.bind (.text _) fun _ => .identifier)

/-! ## Expressions -/

theorem Moves.leftChain {operator : Rule BinaryOperator} {operand : Rule Expression}
    (hop : Plain before operator) (h : Plain before operand) :
    Plain before (Rule.leftChain operator operand) := by
  refine Plain.bind h fun first => ?_
  refine Plain.bind (Plain.many (Plain.bind hop fun op => ?_)) fun rest => .pure _
  exact Plain.bind h.cut fun right => .pure _

theorem Moves.sign (op : BinaryOperator) : Plain before (Rule.sign op) :=
  Plain.bind (.text _) fun _ => .pure _

theorem Moves.productOperator : Plain before Rule.productOperator := by
  refine Moves.spaced (.orElse (Moves.sign _) (.orElse ?_ (Moves.sign _)))
  refine Plain.bind (.sign _) fun op => ?_
  exact Plain.bind (Moves.text _).notAhead fun _ => .pure _

theorem Moves.sumOperator : Plain before Rule.sumOperator :=
  Moves.spaced (.orElse (Moves.sign _) (Moves.sign _))

theorem Moves.comparisonOperator : Plain before Rule.comparisonOperator :=
  Moves.spaced <| .orElse (Moves.sign _) <| .orElse (Moves.sign _) <| .orElse (Moves.sign _) <|
    .orElse (Moves.sign _) <| .orElse (Moves.sign _) (Moves.sign _)

theorem Moves.andOperator : Plain before Rule.andOperator :=
  Plain.bind (.symbol _) fun _ => .pure _

theorem Moves.orOperator : Plain before Rule.orOperator :=
  Plain.bind (.symbol _) fun _ => .pure _

theorem Moves.prefixOperator : Plain before Rule.prefixOperator := by
  refine Moves.spaced (.orElse (Plain.bind (.text _) fun _ => .pure _) ?_)
  refine Plain.bind (.text _) fun _ => ?_
  exact Plain.bind (Moves.text _).notAhead fun _ => .pure _

section Operands

variable {operand deeper : Rule Expression} (h : Plain before operand)

include h

theorem Moves.sumOver : Plain before (Rule.sumOver operand) :=
  .leftChain .sumOperator (.leftChain .productOperator h)

theorem Moves.rangeOver : Plain before (Rule.rangeOver operand) := by
  refine Plain.bind (.sumOver h) fun first => ?_
  refine Plain.bind (Plain.optional (Plain.bind (.symbol _) fun _ => ?_)) fun last => .pure _
  exact (Moves.sumOver h).cut

theorem Moves.comparisonOver : Plain before (Rule.comparisonOver operand) := by
  refine Plain.bind (.rangeOver h) fun left => ?_
  refine Plain.bind (Plain.optional (Plain.bind .comparisonOperator fun op => ?_))
    fun right => .pure _
  exact Plain.bind (Moves.rangeOver h).cut fun right => .pure _

theorem Moves.expressionOver : Plain before (Rule.expressionOver operand) :=
  .leftChain .orOperator (.leftChain .andOperator (.comparisonOver h))

theorem Moves.wholeRange : Plain before (Rule.wholeRange operand) := by
  refine Plain.bind (.sumOver h) fun first => ?_
  refine Plain.bind (Moves.symbol _).inContext fun _ => ?_
  exact Plain.bind (Moves.sumOver h).cut fun last => .pure _

theorem Moves.randomMember : Plain before (Rule.randomMember operand) := by
  refine Plain.bind (.keyword _) fun _ => ?_
  refine Plain.bind (Moves.cut (Moves.spaced (.orElse ?_ (.wholeRange h)))) fun members => .pure _
  refine Plain.bind (.symbol _) fun _ => ?_
  refine Plain.bind (.wholeRange h) fun range => ?_
  exact Plain.bind (.symbol _) fun _ => .pure _

theorem Moves.pickOne : Plain before (Rule.pickOne operand) := by
  refine Plain.bind (.keyword _) fun _ => Moves.cut ?_
  refine Plain.bind (.symbol _) fun _ => ?_
  refine Plain.bind (Moves.separated (.symbol _) (.expressionOver h)).optional fun options => ?_
  exact Plain.bind (.symbol _) fun _ => .pure _

theorem Moves.primary (hdeeper : Plain before deeper) :
    Plain before (Rule.primary operand deeper) := by
  refine Moves.inContext (Moves.spaced ?_)
  refine .orElse (Plain.bind .number fun value => .pure _) ?_
  refine .orElse (Plain.bind .stringLiteral fun value => .pure _) ?_
  refine .orElse (Plain.bind .boolean fun value => .pure _) ?_
  refine .orElse (.randomMember h) (.orElse (.pickOne h) (.orElse ?_ ?_))
  · refine Plain.bind (.text _) fun _ => ?_
    refine Plain.bind hdeeper.cut fun value => ?_
    exact Plain.bind (Moves.symbol _).cut fun _ => .pure _
  · exact Plain.bind .variableName fun name => .pure _

end Operands

/-- The induction is on the fuel, which is taken from the length of the same text. -/
theorem Moves.operandWithin (fuel room : Nat) : Plain before (Rule.operandWithin fuel room) := by
  induction fuel generalizing room with
  | zero => exact .refuse _
  | succ fuel ih =>
    refine Plain.bind Moves.prefixOperator.optional fun op => ?_
    cases op with
    | some op => exact Plain.bind (Moves.cut (.nested fun less _ => ih less)) fun value => .pure _
    | none => exact .primary (ih room) (.nested fun less _ => .expressionOver (ih less))

theorem Moves.expression (room : Nat) : Plain before (Rule.expression room) :=
  fun c hline => Moves.expressionOver (.operandWithin (c.rest.length + 1) room) c hline

end Rule

end Storybook.Script
