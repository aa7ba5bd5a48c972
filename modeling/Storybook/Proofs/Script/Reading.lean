/-
# `Storybook.Proofs.Script.Reading` — what a rule reads off the front of a text

Two judgements about a rule and the text in front of it, whatever its place:

| | |
| :-- | :-- |
| `Reads p input v rest` | the rule `p` succeeds with the value `v` and leaves `rest` |
| `Refuses p input` | the rule `p` refuses, so that another rule may try |

They compose along the combinators: a sequence reads what its parts read one after the other,
and an alternative reads what its first rule reads, or what the second one reads where the
first one refuses.  Neither says anything of positions and of errors, so that `inContext`,
`named` and `cut` are invisible to them.
-/
import Storybook.Script.Rule

namespace Storybook.Script

/-! ## Places and blanks -/

/-- The place after a text. -/
def Place.through (p : Place) (text : List Char) : Place := text.foldl Place.after p

theorem Cursor.advance_append (text rest : List Char) (p : Place) :
    (Cursor.withRest p (text ++ rest)).advance text.length =
      Cursor.withRest (p.through text) rest := by
  induction text generalizing p with
  | nil => rfl
  | cons c text ih => exact ih (p.after c)

/-- Whether no blank and no comment stands at the front of a text. -/
def Settled (text : List Char) : Prop := ∀ p, skipFrom text false p = Cursor.withRest p text

theorem settled_nil : Settled [] := fun _ => rfl

theorem settled_cons {c : Char} {rest : List Char} (hc : isSpace c = false) (hs : c ≠ '/') :
    Settled (c :: rest) := by
  intro p
  unfold skipFrom
  simp [hc, hs]

theorem settled_mark {c : Char} {rest : List Char} (h : (isSpace c || c == '/') = false) :
    Settled (c :: rest) := by
  obtain ⟨hc, hs⟩ := Bool.or_eq_false_iff.mp h
  exact settled_cons hc (beq_eq_false_iff_ne.mp hs)

/-- A slash is a comment only before another one. -/
theorem settled_slash {rest : List Char} (h : rest.head? ≠ some '/') : Settled ('/' :: rest) := by
  intro p
  unfold skipFrom
  cases rest with
  | nil => rfl
  | cons c rest =>
    have hc : c ≠ '/' := fun e => h (by rw [e]; rfl)
    simp [isSpace, hc]

theorem skipFrom_blanks {blanks : List Char} (hb : ∀ c ∈ blanks, isSpace c = true)
    (rest : List Char) (p : Place) :
    skipFrom (blanks ++ rest) false p = skipFrom rest false (p.through blanks) := by
  induction blanks generalizing p with
  | nil => rfl
  | cons c blanks ih =>
    have hc := hb c (List.mem_cons_self ..)
    rw [List.cons_append, skipFrom.eq_def]
    simp only [hc, if_true]
    exact ih (fun c hc => hb c (List.mem_cons_of_mem _ hc)) _

namespace Rule

/-! ## The two judgements -/

/-- The rule succeeds on every cursor before `input` and leaves the text `rest`. -/
def Reads (p : Rule α) (input : List Char) (value : α) (rest : List Char) : Prop :=
  ∀ place, ∃ place', p (.withRest place input) = .ok value (.withRest place' rest)

/-- The rule refuses every cursor before `input`. -/
def Refuses (p : Rule α) (input : List Char) : Prop :=
  ∀ place, ∃ error, p (.withRest place input) = .refuse error

variable {p q : Rule α} {f : α → Rule β} {value : α} {result : β}
  {input middle rest : List Char}

theorem bind_apply (p : Rule α) (f : α → Rule β) (c : Cursor) :
    (p >>= f) c = match p c with
      | .ok value rest => f value rest
      | .refuse error => .refuse error
      | .abort error => .abort error := rfl

theorem orElse_apply (p q : Rule α) (c : Cursor) :
    (p <|> q) c = match p c with
      | .refuse e =>
        match q c with
        | .refuse f => .refuse (e.further f)
        | outcome => outcome
      | outcome => outcome := rfl

/-! ## Sequences -/

theorem Reads.pure (value : α) (input : List Char) :
    Reads (pure value : Rule α) input value input :=
  fun place => ⟨place, rfl⟩

theorem Reads.bind (hp : Reads p input value middle) (hf : Reads (f value) middle result rest) :
    Reads (p >>= f) input result rest := by
  intro place
  obtain ⟨place₁, h₁⟩ := hp place
  obtain ⟨place₂, h₂⟩ := hf place₁
  refine ⟨place₂, ?_⟩
  rw [bind_apply, h₁]
  exact h₂

theorem Refuses.bind (hp : Refuses p input) : Refuses (p >>= f) input := by
  intro place
  obtain ⟨error, h⟩ := hp place
  refine ⟨error, ?_⟩
  rw [bind_apply, h]

/-- A sequence is also refused where its first part reads and the second one refuses. -/
theorem Reads.bind_refuses (hp : Reads p input value middle) (hf : Refuses (f value) middle) :
    Refuses (p >>= f) input := by
  intro place
  obtain ⟨place₁, h₁⟩ := hp place
  obtain ⟨error, h₂⟩ := hf place₁
  refine ⟨error, ?_⟩
  rw [bind_apply, h₁]
  exact h₂

/-! ## Alternatives -/

theorem Reads.orElse_left (hp : Reads p input value rest) : Reads (p <|> q) input value rest := by
  intro place
  obtain ⟨place', h⟩ := hp place
  exact ⟨place', by rw [orElse_apply, h]⟩

theorem Reads.orElse_right (hp : Refuses p input) (hq : Reads q input value rest) :
    Reads (p <|> q) input value rest := by
  intro place
  obtain ⟨error, h⟩ := hp place
  obtain ⟨place', h'⟩ := hq place
  exact ⟨place', by rw [orElse_apply, h]; dsimp only; rw [h']⟩

theorem Refuses.orElse (hp : Refuses p input) (hq : Refuses q input) :
    Refuses (p <|> q) input := by
  intro place
  obtain ⟨error, h⟩ := hp place
  obtain ⟨error', h'⟩ := hq place
  exact ⟨error.further error',
    by rw [orElse_apply, h]; dsimp only; rw [h']⟩

theorem Reads.optional_some (hp : Reads p input value rest) :
    Reads (optional p) input (some value) rest := by
  intro place
  obtain ⟨place', h⟩ := hp place
  exact ⟨place', by rw [optional, h]⟩

theorem Reads.optional_none (hp : Refuses p input) : Reads (optional p) input none input := by
  intro place
  obtain ⟨error, h⟩ := hp place
  exact ⟨place, by rw [optional, h]⟩

/-! ## Repetition -/

theorem Reads.many_nil (hp : Refuses p input) : Reads (many p) input [] input := by
  intro place
  obtain ⟨error, h⟩ := hp place
  exact ⟨place, by rw [many, h]⟩

theorem Reads.many_cons {values : List α} (hp : Reads p input value middle)
    (hlt : middle.length < input.length) (hmany : Reads (many p) middle values rest) :
    Reads (many p) input (value :: values) rest := by
  intro place
  obtain ⟨place₁, h₁⟩ := hp place
  obtain ⟨place₂, h₂⟩ := hmany place₁
  refine ⟨place₂, ?_⟩
  have hlt : (Cursor.withRest place₁ middle).rest.length <
    (Cursor.withRest place input).rest.length := hlt
  rw [many, h₁]
  simp only [if_pos hlt, h₂]

theorem Reads.separated {separator : Rule Unit} {values : List α}
    (hp : Reads p input value middle)
    (hmany : Reads (many (do separator; p)) middle values rest) :
    Reads (separated separator p) input (value :: values) rest :=
  hp.bind (hmany.bind (.pure _ _))

/-! ## Rules that change errors only -/

theorem Reads.cut (hp : Reads p input value rest) : Reads (cut p) input value rest := by
  intro place
  obtain ⟨place', h⟩ := hp place
  exact ⟨place', by rw [Rule.cut, h]⟩

theorem Reads.inContext {what : String} (hp : Reads p input value rest) :
    Reads (inContext what p) input value rest := by
  intro place
  obtain ⟨place', h⟩ := hp place
  exact ⟨place', by rw [Rule.inContext, h]; rfl⟩

theorem Refuses.inContext {what : String} (hp : Refuses p input) :
    Refuses (inContext what p) input := by
  intro place
  obtain ⟨error, h⟩ := hp place
  exact ⟨_, by rw [Rule.inContext, h]; rfl⟩

theorem Reads.named {what : String} (hp : Reads p input value rest) :
    Reads (named what p) input value rest := by
  intro place
  obtain ⟨place', h⟩ := hp place
  exact ⟨place', by rw [Rule.named, h]⟩

theorem Refuses.named {what : String} (hp : Refuses p input) : Refuses (named what p) input := by
  intro place
  obtain ⟨error, h⟩ := hp place
  exact ⟨_, by rw [Rule.named, h]⟩

/-! ## Conditions on what is read and on what follows -/

theorem Reads.notAhead (hp : Refuses p input) : Reads (notAhead p) input () input := by
  intro place
  obtain ⟨error, h⟩ := hp place
  exact ⟨place, by rw [Rule.notAhead, h]⟩

theorem Reads.checked {what : String} {test : α → Bool} (hp : Reads p input value rest)
    (ht : test value = true) : Reads (checked what test p) input value rest := by
  intro place
  obtain ⟨place', h⟩ := hp place
  exact ⟨place', by rw [Rule.checked, h]; exact if_pos ht⟩

theorem Refuses.checked {what : String} {test : α → Bool} (hp : Refuses p input) :
    Refuses (checked what test p) input := by
  intro place
  obtain ⟨error, h⟩ := hp place
  exact ⟨error, by rw [Rule.checked, h]⟩

theorem Reads.unfollowed {what : String} {test : Char → Bool} (hp : Reads p input value rest)
    (ht : rest.head?.any test = false) : Reads (unfollowed what test p) input value rest := by
  intro place
  obtain ⟨place', h⟩ := hp place
  exact ⟨place', by rw [Rule.unfollowed, h]; exact if_neg (by simp [Cursor.withRest, ht])⟩

theorem Refuses.unfollowed {what : String} {test : Char → Bool} (hp : Refuses p input) :
    Refuses (unfollowed what test p) input := by
  intro place
  obtain ⟨error, h⟩ := hp place
  exact ⟨error, by rw [Rule.unfollowed, h]⟩

theorem Reads.unfollowed_refuses {what : String} {test : Char → Bool}
    (hp : Reads p input value rest) (ht : rest.head?.any test = true) :
    Refuses (Rule.unfollowed what test p) input := by
  intro place
  obtain ⟨place', h⟩ := hp place
  exact ⟨_, by rw [Rule.unfollowed, h]; exact if_pos ht⟩

/-! ## Blanks -/

theorem isSpace_nil : ∀ c ∈ ([] : List Char), isSpace c = true := fun _ h => nomatch h

theorem Reads.skip {blanks : List Char} (hb : ∀ c ∈ blanks, isSpace c = true)
    (hr : Settled rest) : Reads skip (blanks ++ rest) () rest := by
  intro place
  refine ⟨place.through blanks, ?_⟩
  show Outcome.ok () (skipFrom (blanks ++ rest) false place) = _
  rw [skipFrom_blanks hb, hr]

/-- A rule with blanks around it reads over the blanks before and after. -/
theorem Reads.spaced_after {before blanks : List Char}
    (hbefore : ∀ c ∈ before, isSpace c = true) (hi : Settled input)
    (hp : Reads p input value (blanks ++ rest)) (hb : ∀ c ∈ blanks, isSpace c = true)
    (hr : Settled rest) : Reads (spaced p) (before ++ input) value rest :=
  Reads.bind (.skip hbefore hi) (hp.bind (.bind (.skip hb hr) (.pure _ _)))

theorem Reads.spaced {blanks : List Char} (hi : Settled input)
    (hp : Reads p input value (blanks ++ rest)) (hb : ∀ c ∈ blanks, isSpace c = true)
    (hr : Settled rest) : Reads (spaced p) input value rest :=
  Reads.spaced_after isSpace_nil hi hp hb hr

theorem Refuses.spaced (hi : Settled input) (hp : Refuses p input) : Refuses (spaced p) input :=
  Reads.bind_refuses (.skip isSpace_nil hi) hp.bind

theorem skip_blanks {before : List Char} (hbefore : ∀ c ∈ before, isSpace c = true)
    (input : List Char) (place : Place) :
    (Cursor.withRest place (before ++ input)).skip =
      (Cursor.withRest (place.through before) input).skip :=
  skipFrom_blanks hbefore input place

/-- Whether a rule passes over the blanks and comments in front of it, wherever it succeeds or
not. -/
def SkipsBlanks (p : Rule α) : Prop := ∀ c d : Cursor, c.skip = d.skip → p c = p d

theorem SkipsBlanks.reads (h : SkipsBlanks p) {before : List Char}
    (hbefore : ∀ c ∈ before, isSpace c = true) (hp : Reads p input value rest) :
    Reads p (before ++ input) value rest := by
  intro place
  rw [h _ _ (skip_blanks hbefore input place)]
  exact hp (place.through before)

theorem SkipsBlanks.bind (h : SkipsBlanks p) : SkipsBlanks (p >>= f) := by
  intro c d hcd
  rw [bind_apply, h c d hcd, bind_apply]

theorem SkipsBlanks.skip : SkipsBlanks skip := fun _ _ hcd => congrArg (Outcome.ok ()) hcd

theorem SkipsBlanks.spaced (p : Rule α) : SkipsBlanks (spaced p) := SkipsBlanks.skip.bind

theorem SkipsBlanks.inContext {what : String} (h : SkipsBlanks p) :
    SkipsBlanks (inContext what p) := by
  intro c d hcd
  rw [Rule.inContext, Rule.inContext, h c d hcd, hcd]

/-- Where an optional rule is missing, what follows it begins at the blanks again. -/
theorem SkipsBlanks.optional_bind {f : Option α → Rule β} (hp : SkipsBlanks p)
    (hf : SkipsBlanks (f none)) : SkipsBlanks (optional p >>= f) := by
  intro c d hcd
  rw [bind_apply, bind_apply, Rule.optional, Rule.optional, hp c d hcd]
  cases p d with
  | ok value rest => rfl
  | refuse error => exact hf c d hcd
  | abort error => rfl

/-! ## Characters -/

theorem Reads.text (expected : String) (rest : List Char) :
    Reads (text expected) (expected.toList ++ rest) () rest := by
  intro place
  refine ⟨place.through expected.toList, ?_⟩
  have hp : expected.toList.isPrefixOf (expected.toList ++ rest) = true :=
    List.isPrefixOf_iff_prefix.mpr (List.prefix_append ..)
  refine (if_pos hp).trans ?_
  rw [← String.length_toList, Cursor.advance_append]

theorem Refuses.text {expected : String} (h : ¬ expected.toList <+: input) :
    Refuses (text expected) input := by
  intro place
  exact ⟨_, if_neg fun hp => h (List.isPrefixOf_iff_prefix.mp hp)⟩

/-- A text is refused where another character stands than the one it begins with. -/
theorem Refuses.text_of_head {expected : String} {c : Char}
    (h : expected.toList.head?.any (· != c) = true) : Refuses (Rule.text expected) (c :: rest) := by
  refine Refuses.text fun hp => ?_
  obtain ⟨more, happend⟩ := hp
  cases hexpected : expected.toList with
  | nil => rw [hexpected] at h; exact nomatch h
  | cons d others =>
    rw [hexpected] at h happend
    have hd : d = c := (List.cons.inj happend).1
    exact absurd hd (bne_iff_ne.mp h)

theorem takeWhile_append_of_head {test : Char → Bool} {read rest : List Char}
    (hread : ∀ c ∈ read, test c = true) (hrest : rest.head?.any test = false) :
    (read ++ rest).takeWhile test = read := by
  rw [List.takeWhile_append_of_pos hread]
  cases rest with
  | nil => simp
  | cons c rest =>
    have hc : test c = false := hrest
    simp [hc]

theorem head?_dropWhile_append {test : Char → Bool} {rest : List Char} (text : List Char)
    (hrest : rest.head?.any test = false) :
    (text.dropWhile test ++ rest).head?.any test = false := by
  have h := List.head?_dropWhile_not test text
  cases hd : text.dropWhile test with
  | nil => exact hrest
  | cons c more =>
    rw [hd] at h
    simpa using h

theorem Reads.charsWhile {test : Char → Bool} {read rest : List Char}
    (hread : ∀ c ∈ read, test c = true) (hrest : rest.head?.any test = false) :
    Reads (charsWhile test) (read ++ rest) read rest := by
  intro place
  refine ⟨place.through read, ?_⟩
  show Outcome.ok ((read ++ rest).takeWhile test)
    ((Cursor.withRest place (read ++ rest)).advance ((read ++ rest).takeWhile test).length) = _
  rw [takeWhile_append_of_head hread hrest, Cursor.advance_append]

theorem Reads.someChars {test : Char → Bool} {c : Char} {read rest : List Char}
    (hread : ∀ d ∈ c :: read, test d = true) (hrest : rest.head?.any test = false) :
    Reads (someChars test) (c :: read ++ rest) (c :: read) rest := by
  intro place
  refine ⟨place.through (c :: read), ?_⟩
  have htaken : (Cursor.withRest place (c :: read ++ rest)).rest.takeWhile test = c :: read :=
    takeWhile_append_of_head hread hrest
  unfold Rule.someChars
  rw [htaken]
  exact congrArg _ (Cursor.advance_append (c :: read) rest place)

theorem Refuses.someChars {test : Char → Bool} (h : input.head?.any test = false) :
    Refuses (someChars test) input := by
  intro place
  refine ⟨⟨.withRest place input, .unexpected⟩, ?_⟩
  cases input with
  | nil => rfl
  | cons c rest =>
    have hc : test c = false := h
    unfold Rule.someChars
    simp [Cursor.withRest, hc]

end Rule

end Storybook.Script
