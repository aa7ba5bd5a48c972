/-
# `Storybook.Proofs.Script.Yield` — what a rule can come to inside a text

`Yields text p Q` says of every cursor of a text that the rule `p`, if it succeeds there, has a
value with `Q` and goes on in the text; and that its error, if it has one, stands there or further
on and has a cause of the grammar.  It is a judgement about all successes at once, where
`Storybook.Proofs.Script.Reading` is about one text and one value.

There is one rule for every combinator.  A condition on the value is carried through a sequence
by `Yields.bind`; a rule whose value does not matter has the condition `fun _ => True`.
-/
import Storybook.Proofs.Script.Word
import Storybook.Script.Expression

namespace Storybook.Script

/-! ## The cursors of a text -/

/-- Whether a cursor is where another one gets by reading on. -/
def Cursor.Follows (start c : Cursor) : Prop := ∃ n, c = start.advance n

/-- Whether a cursor stands in a text: it is the beginning of the text or further on. -/
def Cursor.IsOf (text : String) (c : Cursor) : Prop := ∃ n, c = (ofText text).advance n

theorem Cursor.advance_of_nil {c : Cursor} (h : c.rest = []) (n : Nat) : c.advance n = c := by
  cases n with
  | zero => rfl
  | succ n => unfold Cursor.advance; rw [h]

theorem Cursor.advance_succ {c : Cursor} {first : Char} {rest : List Char}
    (h : c.rest = first :: rest) (n : Nat) :
    c.advance (n + 1) = (withRest (c.toPlace.after first) rest).advance n := by
  rw [Cursor.advance, h]

theorem Cursor.advance_advance (m n : Nat) (c : Cursor) :
    (c.advance m).advance n = c.advance (m + n) := by
  induction m generalizing c with
  | zero => rw [Nat.zero_add]; rfl
  | succ m ih =>
    cases h : c.rest with
    | nil => rw [advance_of_nil h, advance_of_nil h, advance_of_nil h]
    | cons first rest => rw [Nat.succ_add, advance_succ h, advance_succ h, ih]

theorem Cursor.rest_advance (n : Nat) (c : Cursor) : (c.advance n).rest = c.rest.drop n := by
  induction n generalizing c with
  | zero => rfl
  | succ n ih =>
    cases h : c.rest with
    | nil => rw [advance_of_nil h, h]; rfl
    | cons first rest => rw [advance_succ h, ih]; rfl

/-- Skipping is advancing by some characters. -/
theorem skipFrom_eq_advance (rest : List Char) (inComment : Bool) (p : Place) :
    ∃ n, skipFrom rest inComment p = (Cursor.withRest p rest).advance n := by
  fun_induction skipFrom rest inComment p with
  | case1 => exact ⟨0, rfl⟩
  | case2 c rest p ih =>
    obtain ⟨n, h⟩ := ih
    exact ⟨n + 1, h⟩
  | case3 c rest p _ ih =>
    obtain ⟨n, h⟩ := ih
    exact ⟨n + 1, h⟩
  | case4 p text _ _ ih =>
    obtain ⟨n, h⟩ := ih
    exact ⟨n + 2, h⟩
  | _ => exact ⟨0, rfl⟩

namespace Cursor.Follows

variable {a b c : Cursor}

theorem refl (c : Cursor) : c.Follows c := ⟨0, rfl⟩

theorem advance (c : Cursor) (n : Nat) : c.Follows (c.advance n) := ⟨n, rfl⟩

theorem trans (h : a.Follows b) (h' : b.Follows c) : a.Follows c := by
  obtain ⟨m, rfl⟩ := h
  obtain ⟨n, rfl⟩ := h'
  exact ⟨m + n, Cursor.advance_advance m n a⟩

theorem skip (c : Cursor) : c.Follows c.skip := skipFrom_eq_advance c.rest false c.toPlace

end Cursor.Follows

namespace Cursor.IsOf

variable {text : String} {c : Cursor}

theorem ofText (text : String) : (Cursor.ofText text).IsOf text := Follows.refl _

theorem follows {start : Cursor} (h : start.IsOf text) (hc : start.Follows c) : c.IsOf text :=
  Follows.trans h hc

/-- The rest at a cursor is the end of the text. -/
theorem suffix (h : c.IsOf text) : c.rest <:+ text.toList := by
  obtain ⟨n, rfl⟩ := h
  rw [Cursor.rest_advance]
  exact List.drop_suffix n _

end Cursor.IsOf

/-! ## The causes of errors -/

def complaints : List String :=
  [tooLarge, tooSmall, "unterminated string literal", "expression nested too deeply",
    "block nested too deeply"]

/-- Whether a cause is one of the grammar: there are only a few complaints. -/
def Cause.IsOfGrammar : Cause → Prop
  | unexpected | expected _ => True
  | complaint message => message ∈ complaints

/-- Whether an error of the grammar stands at a cursor or further on. -/
structure SyntaxError.IsAfter (start : Cursor) (e : SyntaxError) : Prop where
  follows : start.Follows e.cursor
  cause : e.cause.IsOfGrammar

namespace SyntaxError.IsAfter

variable {start c : Cursor} {e f : SyntaxError}

/-- An error at the very cursor. -/
theorem here {cause : Cause} (h : cause.IsOfGrammar) : IsAfter c ⟨c, cause⟩ := ⟨.refl c, h⟩

theorem after (hc : start.Follows c) (h : e.IsAfter c) : e.IsAfter start :=
  ⟨hc.trans h.follows, h.cause⟩

/-- The further error is one of the two. -/
theorem further (he : e.IsAfter c) (hf : f.IsAfter c) : (e.further f).IsAfter c := by
  unfold SyntaxError.further
  split
  · exact hf
  · exact he

theorem inContext (what : String) (offset : Nat) (h : e.IsAfter c) :
    (e.inContext what offset).IsAfter c := by
  unfold SyntaxError.inContext
  split
  · exact ⟨h.follows, trivial⟩
  · split
    · exact ⟨h.follows, trivial⟩
    · exact h
  · exact h

end SyntaxError.IsAfter

/-! ## The judgement -/

/-- Whether an outcome goes on from a cursor and its value, if it has one, meets a condition. -/
def Outcome.From (start : Cursor) (Q : α → Prop) : Outcome α → Prop
  | ok value rest => start.Follows rest ∧ Q value
  | refuse error | abort error => error.IsAfter start

theorem Outcome.From.after {start c : Cursor} {Q : α → Prop} {outcome : Outcome α}
    (hc : start.Follows c) (h : outcome.From c Q) : outcome.From start Q := by
  cases outcome with
  | ok value rest => exact ⟨hc.trans h.1, h.2⟩
  | refuse error => exact SyntaxError.IsAfter.after hc h
  | abort error => exact SyntaxError.IsAfter.after hc h

namespace Rule

/-- Whether a rule goes on in a text and its values there meet a condition. -/
def Yields (source : String) (p : Rule α) (Q : α → Prop) : Prop :=
  ∀ c : Cursor, c.IsOf source → (p c).From c Q

variable {source : String} {p q : Rule α} {f : α → Rule β} {Q R : α → Prop} {S : β → Prop}

/-! ### At a cursor -/

section Cursor

variable {start c : Cursor}

/-- Whether a rule refuses a cursor. -/
def Refused (p : Rule α) (c : Cursor) : Prop := ∃ error, p c = .refuse error

/-- Whether a rule refuses no cursor. -/
def Commits (p : Rule α) : Prop := ∀ c, ¬ Refused p c

theorem Commits.pure (value : α) : Commits (Pure.pure value : Rule α) := fun _ ⟨_, h⟩ => nomatch h

theorem Commits.cut (p : Rule α) : Commits (cut p) := by
  rintro c ⟨error, h⟩
  unfold Rule.cut at h
  cases hout : p c <;> rw [hout] at h <;> exact nomatch h

theorem Commits.bind (hp : Commits p) (hf : ∀ v, Commits (f v)) : Commits (p >>= f) := by
  rintro c ⟨error, h⟩
  rw [bind_apply] at h
  cases hout : p c with
  | ok value rest => rw [hout] at h; exact hf value rest ⟨error, h⟩
  | refuse e => exact hp c ⟨e, hout⟩
  | abort e => rw [hout] at h; exact nomatch h

theorem Refused.bind (h : Refused p c) : Refused (p >>= f) c := by
  obtain ⟨error, h⟩ := h
  exact ⟨error, by rw [bind_apply, h]⟩

/-- What commits after its first part refuses only where that does. -/
theorem Refused.of_bind (h : Refused (p >>= f) c) (hf : ∀ v, Commits (f v)) : Refused p c := by
  obtain ⟨error, h⟩ := h
  rw [bind_apply] at h
  cases hout : p c with
  | ok value rest => rw [hout] at h; exact absurd ⟨error, h⟩ (hf value rest)
  | refuse e => exact ⟨e, hout⟩
  | abort e => rw [hout] at h; exact nomatch h

theorem Refused.of_orElse (h : Refused (p <|> q) c) : Refused p c ∧ Refused q c := by
  obtain ⟨error, h⟩ := h
  rw [orElse_apply] at h
  cases hout : p c with
  | ok value rest => rw [hout] at h; exact nomatch h
  | abort e => rw [hout] at h; exact nomatch h
  | refuse e =>
    rw [hout] at h
    refine ⟨⟨e, hout⟩, ?_⟩
    cases hout' : q c with
    | ok value rest => simp only [hout'] at h; exact nomatch h
    | abort e => simp only [hout'] at h; exact nomatch h
    | refuse e => exact ⟨e, hout'⟩

end Cursor

end Rule

namespace Outcome.From

variable {start c : Cursor} {α β : Type} {p q : Rule α} {f : α → Rule β} {Q : α → Prop}
  {S : β → Prop}

theorem bind (hp : (p c).From c Q)
    (hf : ∀ v rest, c.Follows rest → Q v → (f v rest).From rest S) :
    ((p >>= f) c).From c S := by
  rw [Rule.bind_apply]
  cases hout : p c with
  | ok value rest => rw [hout] at hp; exact (hf value rest hp.1 hp.2).after hp.1
  | refuse error => rw [hout] at hp; exact hp
  | abort error => rw [hout] at hp; exact hp

/-- The second rule matters only where the first one refuses. -/
theorem orElse_of_refused (hp : (p c).From c Q) (hq : Rule.Refused p c → (q c).From c Q) :
    ((p <|> q) c).From c Q := by
  rw [Rule.orElse_apply]
  cases hout : p c with
  | ok value rest => rw [hout] at hp; exact hp
  | abort error => rw [hout] at hp; exact hp
  | refuse e =>
    rw [hout] at hp
    have hq := hq ⟨e, hout⟩
    dsimp only
    cases hout' : q c with
    | ok value rest => rw [hout'] at hq; exact hq
    | abort error => rw [hout'] at hq; exact hq
    | refuse f => rw [hout'] at hq; exact SyntaxError.IsAfter.further hp hq

theorem orElse (hp : (p c).From c Q) (hq : (q c).From c Q) : ((p <|> q) c).From c Q :=
  hp.orElse_of_refused fun _ => hq

end Outcome.From

namespace Rule

variable {source : String} {p q : Rule α} {f : α → Rule β} {Q R : α → Prop} {S : β → Prop}

theorem Refused.from_bind {c : Cursor} (h : Refused p c) (hp : Yields source p Q)
    (hc : c.IsOf source) : ((p >>= f) c).From c S := by
  obtain ⟨error, h⟩ := h
  have hp := hp c hc
  rw [h] at hp
  rw [bind_apply, h]
  exact hp

theorem Yields.mono (h : Yields source p Q) (hQ : ∀ v, Q v → R v) : Yields source p R := by
  intro c hc
  have hp := h c hc
  cases hout : p c with
  | ok value rest => rw [hout] at hp; exact ⟨hp.1, hQ value hp.2⟩
  | refuse error => rw [hout] at hp; exact hp
  | abort error => rw [hout] at hp; exact hp

/-- A rule whose value does not matter. -/
theorem Yields.any (h : Yields source p Q) : Yields source p fun _ => True :=
  h.mono fun _ _ => trivial

/-! ### Sequences and alternatives -/

theorem Yields.pure {value : α} (h : Q value) : Yields source (Pure.pure value : Rule α) Q :=
  fun c _ => ⟨.refl c, h⟩

theorem Yields.bind (hp : Yields source p Q) (hf : ∀ v, Q v → Yields source (f v) S) :
    Yields source (p >>= f) S :=
  fun c hc => Outcome.From.bind (hp c hc) fun v rest h hv => hf v hv rest (hc.follows h)

theorem Yields.refuse {cause : Cause} (h : cause.IsOfGrammar) :
    Yields source (refuse cause : Rule α) Q :=
  fun _ _ => .here h

theorem Yields.abort {cause : Cause} (h : cause.IsOfGrammar) :
    Yields source (abort cause : Rule α) Q :=
  fun _ _ => .here h

theorem Yields.orElse (hp : Yields source p Q) (hq : Yields source q Q) :
    Yields source (p <|> q) Q :=
  fun c hc => Outcome.From.orElse (hp c hc) (hq c hc)

theorem Yields.optional (hp : Yields source p Q) :
    Yields source (optional p) fun v => ∀ x ∈ v, Q x := by
  intro c hc
  have h := hp c hc
  unfold Rule.optional
  cases hout : p c with
  | ok value rest =>
    rw [hout] at h
    refine ⟨h.1, fun x hx => ?_⟩
    cases hx
    exact h.2
  | refuse error => exact ⟨.refl c, fun _ hx => nomatch hx⟩
  | abort error => rw [hout] at h; exact h

theorem Yields.many (hp : Yields source p Q) : Yields source (many p) fun vs => ∀ v ∈ vs, Q v := by
  intro c hc
  fun_induction Rule.many p c with
  | case1 c value next hout hlt values last hmany ih =>
    have h := hp c hc
    rw [hout] at h
    have hrest := ih (hc.follows h.1)
    rw [hmany] at hrest
    refine ⟨h.1.trans hrest.1, fun v hv => ?_⟩
    rcases List.mem_cons.mp hv with rfl | hv
    · exact h.2
    · exact hrest.2 v hv
  | case2 c value next hout hlt hmany ih =>
    have h := hp c hc
    rw [hout] at h
    exact (ih (hc.follows h.1)).after h.1
  | case3 c value next hout hlt => exact .here trivial
  | case4 c error hout => exact ⟨.refl c, fun _ hv => nomatch hv⟩
  | case5 c error hout =>
    have h := hp c hc
    rw [hout] at h
    exact h

theorem Yields.separated {separator : Rule Unit} {T : Unit → Prop} (hs : Yields source separator T)
    (hp : Yields source p Q) :
    Yields source (separated separator p) fun vs => vs ≠ [] ∧ ∀ v ∈ vs, Q v := by
  refine hp.bind fun first hfirst => ?_
  refine (Yields.many (hs.bind fun _ _ => hp)).bind fun others hothers => .pure ?_
  exact ⟨List.cons_ne_nil _ _, List.forall_mem_cons.mpr ⟨hfirst, hothers⟩⟩

/-! ### Rules that change outcomes -/

theorem Yields.cut (hp : Yields source p Q) : Yields source (cut p) Q := by
  intro c hc
  have h := hp c hc
  unfold Rule.cut
  cases hout : p c <;> rw [hout] at h <;> exact h

theorem Yields.inContext {what : String} (hp : Yields source p Q) :
    Yields source (inContext what p) Q := by
  intro c hc
  have h := hp c hc
  unfold Rule.inContext
  cases hout : p c with
  | ok value rest => rw [hout] at h; exact h
  | refuse error => rw [hout] at h; exact SyntaxError.IsAfter.inContext what _ h
  | abort error => rw [hout] at h; exact SyntaxError.IsAfter.inContext what _ h

theorem Yields.named {what : String} (hp : Yields source p Q) : Yields source (named what p) Q := by
  intro c hc
  have h := hp c hc
  unfold Rule.named
  cases hout : p c with
  | ok value rest => rw [hout] at h; exact h
  | refuse error => exact .here trivial
  | abort error => rw [hout] at h; exact h

theorem Yields.notAhead (hp : Yields source p Q) : Yields source (notAhead p) fun _ => True := by
  intro c hc
  have h := hp c hc
  unfold Rule.notAhead
  cases hout : p c with
  | ok value rest => exact .here trivial
  | refuse error => exact ⟨.refl c, trivial⟩
  | abort error => rw [hout] at h; exact h

theorem Yields.checked {what : String} {test : α → Bool} (hp : Yields source p Q) :
    Yields source (checked what test p) fun v => Q v ∧ test v = true := by
  intro c hc
  have h := hp c hc
  unfold Rule.checked
  cases hout : p c with
  | ok value rest =>
    rw [hout] at h
    dsimp only
    split
    · next ht => exact ⟨h.1, h.2, ht⟩
    · exact .here trivial
  | refuse error => rw [hout] at h; exact h
  | abort error => rw [hout] at h; exact h

theorem Yields.unfollowed {what : String} {test : Char → Bool} (hp : Yields source p Q) :
    Yields source (unfollowed what test p) Q := by
  intro c hc
  have h := hp c hc
  unfold Rule.unfollowed
  cases hout : p c with
  | ok value rest =>
    rw [hout] at h
    dsimp only
    split
    · exact .here trivial
    · exact h
  | refuse error => rw [hout] at h; exact h
  | abort error => rw [hout] at h; exact h

theorem Yields.computed {compute : α → Except String β} (hp : Yields source p Q)
    (hcomplaint : ∀ u message, compute u = .error message → message ∈ complaints) :
    Yields source (computed p compute) fun v => ∃ u, Q u ∧ compute u = .ok v := by
  intro c hc
  have h := hp c hc
  unfold Rule.computed
  cases hout : p c with
  | ok value rest =>
    rw [hout] at h
    dsimp only
    cases hcompute : compute value with
    | ok result => exact ⟨h.1, value, h.2, hcompute⟩
    | error message => exact .here (hcomplaint value message hcompute)
  | refuse error => rw [hout] at h; exact h
  | abort error => rw [hout] at h; exact h

theorem Yields.nested {what : String} {rule : Nat → Rule α} {room : Nat}
    (hwhat : what = "expression" ∨ what = "block")
    (h : ∀ r, room = r + 1 → Yields source (rule r) Q) :
    Yields source (nested what rule room) Q := by
  cases room with
  | zero =>
    have hcomplaint : what ++ " nested too deeply" ∈ complaints := by
      rcases hwhat with rfl | rfl
      · exact List.mem_of_getElem? (i := 3) rfl
      · exact List.mem_of_getElem? (i := 4) rfl
    exact .abort hcomplaint
  | succ room => exact h room rfl

/-! ### Places and characters -/

theorem Yields.skip : Yields source skip fun _ => True := fun c _ => ⟨.skip c, trivial⟩

theorem Yields.spaced (hp : Yields source p Q) : Yields source (spaced p) Q := by
  refine Yields.skip.bind fun _ _ => ?_
  refine hp.bind fun _ hv => ?_
  exact Yields.skip.bind fun _ _ => .pure hv

theorem Yields.position :
    Yields source position fun v => ∃ c : Cursor, c.IsOf source ∧ v = c.toPosition :=
  fun c hc => ⟨.refl c, c, hc, rfl⟩

theorem Yields.text (expected : String) : Yields source (Rule.text expected) fun _ => True := by
  intro c _
  unfold Rule.text
  split
  · exact ⟨.advance c _, trivial⟩
  · exact .here trivial

theorem Yields.charsWhile (test : Char → Bool) :
    Yields source (charsWhile test) fun v => ∀ c ∈ v, test c = true :=
  fun c _ => ⟨.advance c _, List.all_eq_true.mp List.all_takeWhile⟩

theorem Yields.someChars (test : Char → Bool) :
    Yields source (someChars test) fun v => v ≠ [] ∧ ∀ c ∈ v, test c = true := by
  intro c _
  unfold Rule.someChars
  have hall := List.all_eq_true.mp (List.all_takeWhile (p := test) (l := c.rest))
  split
  · exact .here trivial
  · next read hne => exact ⟨.advance c _, fun h => hne h, hall⟩

theorem Yields.endOfText : Yields source endOfText fun _ => True := by
  intro c _
  unfold Rule.endOfText
  split
  · exact ⟨.refl c, trivial⟩
  · exact .here trivial

/-! ### Words -/

theorem Yields.token (expected : String) : Yields source (token expected) fun _ => True :=
  (Yields.text expected).named

theorem Yields.keyword (w : String) : Yields source (keyword w) fun _ => True :=
  (Yields.token w).unfollowed

theorem Yields.symbol (mark : String) : Yields source (symbol mark) fun _ => True :=
  (Yields.token mark).spaced

theorem Yields.identifier :
    Yields source identifier fun name => Text.isName name.toList = true := by
  refine Yields.inContext ((Yields.someChars _).bind fun first hfirst =>
    (Yields.charsWhile _).bind fun others hothers => .pure ?_)
  obtain ⟨hne, hstart⟩ := hfirst
  obtain ⟨c, more, rfl⟩ := List.exists_cons_of_ne_nil hne
  rw [String.toList_ofList]
  refine Bool.and_eq_true_iff.mpr ⟨hstart c (List.mem_cons_self ..), List.all_eq_true.mpr ?_⟩
  intro d hd
  rcases List.mem_append.mp hd with hd | hd
  · exact Text.isNameChar_of_isNameStart (hstart d (List.mem_cons_of_mem _ hd))
  · exact hothers d hd

theorem Yields.variableName :
    Yields source variableName fun name => isVariableName name = true :=
  Yields.identifier.checked.mono fun _ h => Bool.and_eq_true_iff.mpr h

theorem Yields.digits : Yields source digits fun _ => True := (Yields.someChars _).any

theorem Yields.anyNumber : Yields source number fun _ => True := by
  refine Yields.inContext (Yields.digits.bind fun _ _ => ?_)
  have hfraction : Yields source (do Rule.text "."; Rule.digits) fun _ => True :=
    (Yields.text _).bind fun _ _ => Yields.digits
  exact hfraction.optional.bind fun _ _ => .pure trivial

theorem Yields.minus : Yields source minus fun _ => True :=
  (Yields.optional (.text "-")).bind fun _ _ => .pure trivial

theorem tooLarge_mem_complaints : tooLarge ∈ complaints := List.mem_cons_self

theorem tooSmall_mem_complaints : tooSmall ∈ complaints := List.mem_of_getElem? (i := 1) rfl

theorem Yields.integer : Yields source integer fun _ => True := by
  refine Yields.any (Yields.inContext (Yields.computed (Q := fun _ => True) ?_ ?_))
  · refine Yields.minus.bind fun _ _ => ?_
    exact Yields.digits.bind fun _ _ => .pure trivial
  · rintro ⟨negative, digits⟩ message h
    dsimp only [int64OfDigits] at h
    split at h
    · split at h
      · exact nomatch h
      · exact Except.error.inj h ▸ tooSmall_mem_complaints
    · split at h
      · exact nomatch h
      · exact Except.error.inj h ▸ tooLarge_mem_complaints

theorem Yields.wholeNumber : Yields source wholeNumber fun _ => True := by
  refine (Yields.digits.computed ?_).any
  intro digits message h
  dsimp only [uint64OfDigits] at h
  split at h
  · exact nomatch h
  · exact Except.error.inj h ▸ tooLarge_mem_complaints

theorem Yields.count : Yields source count fun _ => True := by
  refine (Yields.integer.computed ?_).any
  intro n message h
  unfold uint32OfInt64 at h
  split at h
  · exact Except.error.inj h ▸ tooSmall_mem_complaints
  · split at h
    · exact nomatch h
    · exact Except.error.inj h ▸ tooLarge_mem_complaints

theorem Yields.boolean : Yields source boolean fun _ => True := by
  refine Yields.inContext (.orElse ?_ ?_)
  · exact (Yields.keyword _).bind fun _ _ => .pure trivial
  · exact (Yields.keyword _).bind fun _ _ => .pure trivial

theorem Yields.stringLiteral : Yields source stringLiteral fun _ => True := by
  intro c _
  unfold Rule.stringLiteral
  split
  · split
    · exact ⟨.advance c _, trivial⟩
    · exact .here (List.mem_of_getElem? (i := 2) rfl)
  · exact .here trivial

theorem Yields.durationUnit : Yields source durationUnit fun _ => True := by
  refine .orElse ?_ ?_
  · exact (Yields.text _).bind fun _ _ => .pure trivial
  · exact (Yields.text _).bind fun _ _ => .pure trivial

theorem Yields.duration : Yields source duration fun _ => True := by
  refine Yields.unfollowed (Yields.inContext ?_)
  refine Yields.wholeNumber.bind fun _ _ => ?_
  exact Yields.durationUnit.bind fun _ _ => .pure trivial

theorem Yields.target : Yields source target fun _ => True :=
  Yields.inContext ((Yields.text _).bind fun _ _ => Yields.identifier.any)

/-- A number with a sign is one without, or its opposite. -/
theorem Yields.signedNumber {num : Float → Prop} (hneg : ∀ x, num x → num (-x))
    (h : Yields source number num) : Yields source signedNumber num :=
  Yields.inContext (Yields.minus.bind fun negative _ => h.bind fun x hx => .pure (by
    cases negative with
    | true => exact hneg x hx
    | false => exact hx))

theorem Yields.point {num : Float → Prop} (h : Yields source Rule.signedNumber num) :
    Yields source point fun p => num p.x ∧ num p.y := by
  refine (Yields.symbol _).bind fun _ _ => ?_
  refine h.spaced.bind fun _ hx => ?_
  refine (Yields.symbol _).bind fun _ _ => ?_
  refine h.spaced.bind fun _ hy => ?_
  exact (Yields.symbol _).bind fun _ _ => .pure ⟨hx, hy⟩

end Rule

end Storybook.Script
