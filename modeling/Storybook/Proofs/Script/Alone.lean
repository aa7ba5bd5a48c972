/-
# `Storybook.Proofs.Script.Alone` — an expression that is read alone is read in front of more

An expression that the rules read to the end of its text, with no comment left open there, they read
in front of a blank and a `rest` as well, if `rest` begins with neither an operator nor a closing
parenthesis (`ReadsAlone.before`).

At the end of the text the first run refuses everything, where the second one meets `rest`.  That
makes no difference wherever the rules look for an operator or a closing parenthesis (`Mark`), since
`rest` begins with none.  Otherwise a refusal at the end is the end of the reading:

| after | the first run |
| :-- | :-- |
| an operator, a parenthesis, `random` | aborts |
| `random (` | tries a range without these parentheses, and aborts there (`Bare`) |
| `pick_one [` and a comma in it | ends the list, and misses the closing bracket |
-/
import Storybook.Proofs.Script.Coupled
import Storybook.Proofs.Script.Operand

namespace Storybook.Script

namespace Rule

/-! ## Marks and operators -/

variable {rest : List Char}

/-- A rule of what goes on an expression or ends it: `rest` does not begin with that. -/
structure Mark (rest : List Char) (p : Rule α) : Prop where
  couples : ∀ n, Couples (Beside rest (n + 1)) (Ready rest n) p p
  balks : ∀ n, Balks (Beside rest n) p p

theorem Lexical.couples_spaced {p : Rule α} (h : Lexical 1 p) (hr : Settled rest) (n : Nat) :
    Couples (Beside rest (n + 1)) (Ready rest n) (spaced p) (spaced p) := by
  refine Couples.spaced hr ?_ fun _ => h.fails
  exact (h.couples rest n).mono (fun _ _ hcd => hcd.toInside) fun _ _ => .inl

theorem Lexical.mark {p : Rule α} (h : Lexical 1 p) (hr : Settled rest) (hp : Refuses p rest) :
    Mark rest (spaced p) where
  couples := h.couples_spaced hr
  balks n := .spaced_of_refuses hr ((h.balks rest n).mono fun _ _ hcd => hcd.toInside) hp

theorem Mark.couples_ready {p : Rule α} (h : Mark rest p) (n : Nat) :
    Couples (Ready rest n) (Ready rest n) p p :=
  (h.couples n).mono (fun _ _ hcd => (hcd.mono (Nat.le_succ n)).beside) fun _ _ => id

theorem Mark.balks_ready {p : Rule α} (h : Mark rest p) (n : Nat) : Balks (Ready rest n) p p :=
  (h.balks n).mono fun _ _ => Ready.beside

theorem Mark.bind_pure {p : Rule α} (h : Mark rest p) (f : α → β) :
    Mark rest (do Pure.pure (f (← p))) where
  couples n := (h.couples n).bind fun v => .pure (f v)
  balks n := (h.balks n).bind_commits fun v => .pure (f v)

end Rule

/-- What may stand behind an expression: neither blanks nor comments, no operator, and no closing
parenthesis. -/
structure Halts (rest : List Char) : Prop where
  settled : Settled rest
  ends : Level.disjunction.Ends rest
  head?_ne : rest.head? ≠ some ')'

theorem Halts.cons {c : Char} (hspace : isSpace c = false) (hsign : Level.ofSign c = none)
    (hparenthesis : c ≠ ')') (more : List Char) : Halts (c :: more) where
  settled := settled_cons hspace <| by
    rintro rfl
    exact nomatch hsign
  ends := .of_none hsign
  head?_ne := fun hc => hparenthesis (Option.some.inj hc)

theorem Halts.of_isNameChar {c : Char} (hc : Text.isNameChar c = true) (more : List Char) :
    Halts (c :: more) := by
  have no (d : Char) (hd : Text.isNameChar d = false) : c ≠ d := by
    rintro rfl
    rw [hc] at hd
    exact nomatch hd
  refine .cons ?_ ?_ (no ')' rfl) more
  · simp [isSpace, no ' ' rfl, no '\t' rfl, no '\r' rfl, no '\n' rfl]
  · simp [Level.ofSign, no '|' rfl, no '&' rfl, no '=' rfl, no '!' rfl, no '<' rfl, no '>' rfl,
      no '.' rfl, no '+' rfl, no '-' rfl, no '*' rfl, no '/' rfl, no '%' rfl]

namespace Rule

variable {rest : List Char} (hr : Halts rest)

include hr

/-- The rule of a mark that `rest` does not begin with. -/
theorem Mark.symbol {m : String} (hm : isSolid m = true) (hrest : ¬ m.toList <+: rest) :
    Mark rest (symbol m) :=
  (Lexical.token hm).mark hr.settled (.token hrest)

theorem Mark.operatorAt {l : Level} (hl : l ≠ .range ∧ l ≠ .operand) :
    Mark rest (operatorAt l) := by
  have no (op : BinaryOperator) {c : Char} {more : List Char}
      (hop : op.symbol.toList = c :: more) (hc : Level.ofSign c = some l) :
      ¬ op.symbol.toList <+: rest := hr.ends.not_prefixed hop hc (Nat.zero_le _)
  have hrefuses := Refuses.operatorAt (m := l) hr.settled hr.ends (Nat.zero_le _)
  cases l with
  | disjunction =>
    exact (Mark.symbol hr (by decide) (no .or rfl rfl)).bind_pure fun _ => BinaryOperator.or
  | conjunction =>
    exact (Mark.symbol hr (by decide) (no .and rfl rfl)).bind_pure fun _ => BinaryOperator.and
  | comparison =>
    refine Lexical.mark ?_ hr.settled (.of_spaced hr.settled hrefuses)
    refine .orElse (.sign ?_) (.orElse (.sign ?_) (.orElse (.sign ?_) (.orElse (.sign ?_)
      (.orElse (.sign ?_) (.sign ?_))))) <;> decide
  | sum =>
    refine Lexical.mark ?_ hr.settled (.of_spaced hr.settled hrefuses)
    exact .orElse (.sign (by decide)) (.sign (by decide))
  | product =>
    refine Lexical.mark ?_ hr.settled (.of_spaced hr.settled hrefuses)
    exact .orElse (.sign (by decide)) (.orElse .division (.sign (by decide)))
  | range => exact absurd rfl hl.1
  | operand => exact absurd rfl hl.2

theorem Mark.prefixOperator : Mark rest prefixOperator := by
  have no {m : String} {c : Char} {l : Level} (hm : m.toList = [c])
      (hc : Level.ofSign c = some l) : ¬ m.toList <+: rest :=
    hr.ends.not_prefixed hm hc (Nat.zero_le _)
  have hnot : Lexical 1 (do
      text "!"
      notAhead (text "=")
      Pure.pure UnaryOperator.not) :=
    (Lexical.text (by decide)).bind fun _ =>
      (Lexical.text (by decide)).weaken.notAhead.bind fun _ => .pure _
  have hminus : Lexical 1 (do text "-"; Pure.pure UnaryOperator.negate) :=
    (Lexical.text (by decide)).bind fun _ => .pure _
  refine Lexical.mark (hminus.orElse hnot) hr.settled ?_
  exact .orElse (Refuses.bind (.text (no rfl rfl))) (Refuses.bind (.text (no rfl rfl)))

theorem Mark.dots : Mark rest (Rule.symbol "..") :=
  .symbol hr (by decide) (hr.ends.not_prefixed rfl rfl (Nat.zero_le _))

theorem Mark.parenthesis : Mark rest (Rule.symbol ")") := by
  refine .symbol hr (by decide) fun ⟨more, h⟩ => hr.head?_ne ?_
  rw [← h]
  rfl

omit hr

/-! ## Repetition -/

section Repetition

variable {p q : Rule α} {N : Nat}
  (hp : ∀ n < N, Couples (Ready rest (n + 1)) (Ready rest n) p q)

include hp

/-- A repetition of rules that read something never refuses. -/
theorem not_refused_many {n : Nat} (hn : n ≤ N) {c d : Cursor} (hcd : Ready rest n c d) :
    ¬ Refused (many p) c := by
  induction n generalizing c d with
  | zero => exact absurd hcd.lt (Nat.not_lt_zero _)
  | succ n ih =>
    intro h
    obtain ⟨v, e, hpc, hrest⟩ := refused_of_many h
    have hle := Nat.le_of_lt_succ hcd.lt
    obtain ⟨e', -, hnext⟩ := hp c.rest.length (by omega) c d hcd.tighten v e hpc
    exact ih (by omega) (hnext.mono hle) (hrest hnext.lt)

/-- A repetition goes on alike up to a cursor with `P`, if it may stop there only where the second
rule stops as well. -/
theorem couples_many {P : Cursor → Prop}
    (hstop : ∀ n c d, Ready rest n c d → P c → Refused p c → Refused q d) {n : Nat} (hn : n ≤ N)
    {c d : Cursor} (hcd : Ready rest n c d) {vs : List α} {c' : Cursor}
    (h : many p c = .ok vs c') (hc' : P c') :
    ∃ d', many q d = .ok vs d' ∧ Ready rest n c' d' := by
  induction n generalizing c d vs with
  | zero => exact absurd hcd.lt (Nat.not_lt_zero _)
  | succ n ih =>
    rcases many_ok_iff.mp h with ⟨rfl, rfl, hrefused⟩ | ⟨v, others, e, rfl, hpc, hlt, hmany⟩
    · exact ⟨d, many_ok_iff.mpr (.inl ⟨rfl, rfl, hstop _ _ _ hcd hc' hrefused⟩), hcd⟩
    · obtain ⟨e', hqd, hnext⟩ := hp n (by omega) c d hcd v e hpc
      obtain ⟨d', hothers, hlast⟩ := ih (by omega) hnext hmany
      refine ⟨d', many_ok_iff.mpr (.inr ⟨v, others, e', rfl, hqd, ?_, hothers⟩),
        hlast.mono (Nat.le_succ n)⟩
      -- the first run has read something, so the second one has
      have hfacing : Facing rest (n + 1) c d := by
        refine hcd.resolve_right fun hpast => ?_
        rw [hpast.nil] at hlt
        exact Nat.not_lt_zero _ hlt
      rw [hfacing.eq, List.length_append, List.length_cons]
      rcases hnext with hnext | hnext
      · rw [hnext.eq, List.length_append, List.length_cons]
        omega
      · rw [hnext.eq]
        omega

end Repetition

/-! ## Levels -/

/-- Whether there is nothing to read at a cursor, or only an opening parenthesis. -/
def Bare (c : Cursor) : Prop :=
  c.skip.rest = [] ∨ ∃ e, text "(" c.skip = .ok () e ∧ e.skip.rest = []

/-- The second rule of expressions reads in front of `rest` what the first one reads alone, in
texts no longer than `N`. -/
structure Keeps (rest : List Char) (N : Nat) (p q : Rule Expression) : Prop where
  couples : ∀ n ≤ N, Couples (Beside rest n) (Ready rest n) p q
  balks : ∀ n ≤ N, Balks (Ahead rest n) p q
  fails : ∀ c, Bare c → Fails p c

namespace Keeps

variable {N : Nat} {p q : Rule Expression} {f g : Expression → Rule Expression}

/-- What comes after the first part either reads something or reads nothing. -/
theorem bind (h : Keeps rest N p q)
    (hf : ∀ v, ∀ n ≤ N, Couples (Ready rest n) (Ready rest n) (f v) (g v))
    (hb : ∀ v, ∀ n ≤ N, Balks (Ready rest n) (f v) (g v)) :
    Keeps rest N (p >>= f) (q >>= g) where
  couples n hn := (h.couples n hn).bind fun v => hf v n hn
  balks n hn := by
    refine Balks.bind (T := Ready rest n) ?_ (h.balks n hn) fun v => hb v n hn
    exact (h.couples n hn).mono (fun _ _ hcd => .inl hcd.toInside) fun _ _ => id
  fails c hc := (h.fails c hc).bind

/-- An operator and an operand behind it. -/
theorem couples_link {op : Rule BinaryOperator} (hop : Mark rest op) (h : Keeps rest N p q)
    {n : Nat} (hn : n ≤ N) :
    Couples (Ready rest (n + 1)) (Ready rest n) (link op p) (link op q) := by
  refine ((hop.couples n).mono (fun _ _ => Ready.beside) fun _ _ => Ready.beside).bind fun _ => ?_
  exact (h.couples n hn).cut.bind fun _ => .pure _

/-- What stands behind a mark. -/
theorem couples_ready (h : Keeps rest N p q) {n : Nat} (hn : n ≤ N) :
    Couples (Ready rest n) (Ready rest n) p q :=
  (h.couples n hn).mono (fun _ _ => Ready.beside) fun _ _ => id

theorem balks_link {op : Rule BinaryOperator} (hop : Mark rest op) (n : Nat) :
    Balks (Ready rest n) (link op p) (link op q) :=
  (hop.balks_ready n).bind_commits fun _ => (Commits.cut p).bind fun _ => .pure _

theorem leftChain {op : Rule BinaryOperator} (hop : Mark rest op) (h : Keeps rest N p q) :
    Keeps rest N (leftChain op p) (leftChain op q) := by
  have hlink (n : Nat) (hn : n < N) := h.couples_link hop (Nat.le_of_lt hn)
  refine h.bind (fun first n hn => ?_) fun first n hn => ?_
  · refine Couples.bind (T := Ready rest n) (fun c d hcd vs c' hmany => ?_) fun _ => .pure _
    exact couples_many hlink (P := fun _ => True) (fun n c d hcd _ => balks_link hop n c d hcd) hn
      hcd hmany trivial
  · intro c d hcd hrefused
    refine absurd (hrefused.of_bind fun _ => .pure _) ?_
    exact not_refused_many hlink hn hcd

include hr

theorem sumOver (h : Keeps rest N p q) : Keeps rest N (sumOver p) (sumOver q) :=
  (h.leftChain (Mark.operatorAt hr (l := .product) (by decide))).leftChain
    (Mark.operatorAt hr (l := .sum) (by decide))

theorem rangeOver (h : Keeps rest N p q) : Keeps rest N (rangeOver p) (rangeOver q) := by
  refine (h.sumOver hr).bind (fun first n hn => ?_) fun first n hn => ?_
  · refine Couples.optional_bind (T := Ready rest n) ?_ ?_ (fun _ => .pure _) (.pure _)
    · exact ((Mark.dots hr).couples_ready n).bind fun _ => ((h.sumOver hr).couples_ready hn).cut
    · exact ((Mark.dots hr).balks_ready n).bind_commits fun _ => .cut _
  · exact .of_commits ((Commits.optional _).bind fun _ => .pure _)

theorem comparisonOver (h : Keeps rest N p q) :
    Keeps rest N (comparisonOver p) (comparisonOver q) := by
  have hop : Mark rest comparisonOperator := Mark.operatorAt hr (l := .comparison) (by decide)
  refine (h.rangeOver hr).bind (fun first n hn => ?_) fun first n hn => ?_
  · refine Couples.optional_bind (T := Ready rest n) ?_ (balks_link hop n) (fun _ => .pure _)
      (.pure _)
    exact ((h.rangeOver hr).couples_link hop hn).mono (fun _ _ hcd => hcd.mono (Nat.le_succ n))
      fun _ _ => id
  · exact .of_commits ((Commits.optional _).bind fun _ => .pure _)

theorem expressionOver (h : Keeps rest N p q) :
    Keeps rest N (expressionOver p) (expressionOver q) :=
  ((h.comparisonOver hr).leftChain (Mark.operatorAt hr (l := .conjunction) (by decide))).leftChain
    (Mark.operatorAt hr (l := .disjunction) (by decide))

theorem wholeRange (h : Keeps rest N p q) : Keeps rest N (wholeRange p) (wholeRange q) := by
  refine (h.sumOver hr).bind (fun first n hn => ?_) fun first n hn => ?_
  · refine ((Mark.dots hr).couples_ready n).inContext.bind fun _ => ?_
    exact ((h.sumOver hr).couples_ready hn).cut.bind fun _ => .pure _
  · refine ((Mark.dots hr).balks_ready n).inContext.bind_commits fun _ => ?_
    exact (Commits.cut _).bind fun _ => .pure _

end Keeps

/-! ## Operands -/

theorem Lexical.couples_facing {p : Rule α} (h : Lexical 1 p) (n : Nat) :
    Couples (Facing rest (n + 1)) (Beside rest n) p p :=
  (h.couples rest n).mono (fun _ _ hcd => hcd.toInside) fun _ _ => .inl

theorem Lexical.balks_facing {p : Rule α} (h : Lexical 1 p) (n : Nat) :
    Balks (Facing rest n) p p :=
  (h.balks rest n).mono fun _ _ hcd => hcd.toInside

theorem Lexical.balks_spaced {p : Rule α} (h : Lexical 1 p) (hr : Settled rest) (n : Nat) :
    Balks (Ahead rest n) (spaced p) (spaced p) := Balks.spaced hr (h.balks_facing n)

/-- Where a word is read, the text has not ended. -/
theorem facing_of_spaced {p : Rule α} (hp : Lexical 1 p) {n : Nat} {c c' d : Cursor}
    (hcd : Ready rest n c d) {v : α} (h : spaced p c = .ok v c') : Facing rest n c d := by
  refine hcd.resolve_right fun hpast => ?_
  have hskip : c.skip.rest = [] := by
    rw [skip_of_settled (hpast.nil ▸ settled_nil)]
    exact hpast.nil
  exact (hp.fails hskip).spaced v c' h

/-- A range up to a closing parenthesis. -/
def closedRange (operand : Rule Expression) : Rule Expression := do
  let range ← wholeRange operand
  symbol ")"
  pure range

def enclosedRange (operand : Rule Expression) : Rule Expression := do
  symbol "("
  closedRange operand

namespace Keeps

variable {N : Nat} {p q : Rule Expression}

theorem couples_closedRange (hr : Halts rest) (h : Keeps rest N p q) {n : Nat} (hn : n ≤ N) :
    Couples (Ready rest n) (Ready rest n) (closedRange p) (closedRange q) :=
  ((h.wholeRange hr).couples_ready hn).bind fun _ =>
    ((Mark.parenthesis hr).couples_ready n).bind fun _ => .pure _

theorem balks_closedRange (hr : Halts rest) (h : Keeps rest N p q) {n : Nat} (hn : n ≤ N) :
    Balks (Ahead rest n) (closedRange p) (closedRange q) := by
  have hwhole := h.wholeRange hr
  refine Balks.bind (T := Ready rest n) ?_ (hwhole.balks n hn) fun _ => ?_
  · exact (hwhole.couples n hn).mono (fun _ _ hcd => .inl hcd.toInside) fun _ _ => id
  · exact ((Mark.parenthesis hr).balks_ready n).bind_commits fun _ => .pure _

theorem couples_opening (hr : Halts rest) (n : Nat) :
    Couples (Facing rest n) (Ready rest n) (Rule.symbol "(") (Rule.symbol "(") :=
  ((Lexical.token (by decide)).couples_spaced hr.settled n).mono
    (fun _ _ hcd => .inl (hcd.toInside.mono (Nat.le_succ n))) fun _ _ => id

/-- Behind a parenthesis at the end of the text there is no range in the first run, with or without
parentheses. -/
theorem refused_enclosedRange (hr : Halts rest) (h : Keeps rest N p q) {n : Nat} (hn : n ≤ N)
    {c d : Cursor} (hcd : Facing rest n c d) (hrefused : Refused (enclosedRange p) c)
    {v : Expression} {c' : Cursor} (hout : Rule.wholeRange p c = .ok v c') :
    Refused (enclosedRange q) d := by
  rcases refused_bind_iff.mp hrefused with hrefused | ⟨_, e, hsymbol, hrefused⟩
  · have hbalks := (Lexical.token (m := "(") (by decide)).balks_spaced hr.settled n
    exact (hbalks c d hcd.ahead hrefused).bind
  · obtain ⟨e', hd, hnext⟩ := couples_opening hr n c d hcd _ e hsymbol
    rcases hnext with hnext | hnext
    · have hq := h.balks_closedRange hr hn e e' hnext.ahead hrefused
      exact refused_bind_iff.mpr (.inr ⟨_, e', hd, hq⟩)
    · obtain ⟨e₀, htext, rfl⟩ := symbol_ok_iff.mp hsymbol
      exact absurd hout ((h.wholeRange hr).fails c (.inr ⟨e₀, htext, hnext.nil⟩) v c')

theorem couples_members (hr : Halts rest) (h : Keeps rest N p q) {n : Nat} (hn : n ≤ N) :
    Couples (Facing rest n) (Ready rest n) (enclosedRange p <|> Rule.wholeRange p)
      (enclosedRange q <|> Rule.wholeRange q) := by
  have henclosed : Couples (Facing rest n) (Ready rest n) (enclosedRange p) (enclosedRange q) :=
    (couples_opening hr n).bind fun _ => h.couples_closedRange hr hn
  refine henclosed.orElse_of_ok (fun c d hcd hrefused v c' hout => ?_) ?_
  · exact h.refused_enclosedRange hr hn hcd hrefused hout
  · exact ((h.wholeRange hr).couples n hn).mono (fun _ _ hcd => .inl hcd.toInside) fun _ _ => id

theorem couples_randomMember (hr : Halts rest) (h : Keeps rest N p q) {n : Nat} (hn : n ≤ N) :
    Couples (Facing rest (n + 1)) (Beside rest n) (randomMember p) (randomMember q) := by
  have hmembers : Couples (Beside rest n) (Ready rest n)
      (Rule.spaced (enclosedRange p <|> Rule.wholeRange p))
      (Rule.spaced (enclosedRange q <|> Rule.wholeRange q)) := by
    refine Couples.spaced hr.settled ((h.couples_members hr hn).mono (fun _ _ => id)
      fun _ _ => Ready.beside) fun c hc => ?_
    have hskip : c.skip.rest = [] := by rwa [skip_of_settled (hc ▸ settled_nil)]
    have hopen : Fails (Rule.symbol "(") c :=
      Fails.spaced ((Lexical.token (by decide)).fails hskip)
    exact hopen.bind.orElse ((h.wholeRange hr).fails c (.inl hskip))
  refine ((Lexical.keyword (by decide)).couples_facing n).bind fun _ => ?_
  exact (hmembers.cut.bind fun _ => .pure _).mono (fun _ _ => id) fun _ _ => Ready.beside

theorem balks_randomMember (p q : Rule Expression) (n : Nat) :
    Balks (Facing rest n) (randomMember p) (randomMember q) :=
  ((Lexical.keyword (by decide)).balks_facing n).bind_commits
    fun _ => (Commits.cut _).bind fun _ => .pure _

end Keeps

/-! ### Options in brackets -/

/-- Whether a closing bracket is read at a cursor. -/
def Bracketed (c : Cursor) : Prop := ∃ u e, symbol "]" c = .ok u e

theorem Bracketed.facing {n : Nat} {c d : Cursor} (hc : Bracketed c) (hcd : Ready rest n c d) :
    Facing rest n c d := by
  obtain ⟨u, e, h⟩ := hc
  exact facing_of_spaced (.token (by decide)) hcd h

theorem Bracketed.refused_comma {c : Cursor} (hc : Bracketed c) : Refused (symbol ",") c := by
  obtain ⟨u, e, h⟩ := hc
  obtain ⟨e₀, htext, -⟩ := symbol_ok_iff.mp h
  refine refused_spaced_iff.mpr (refused_named_iff.mpr (refused_text_iff.mpr ?_))
  rw [rest_of_text htext]
  exact not_prefix_of_head (by decide)

/-- An option behind a comma. -/
def nextOption (p : Rule Expression) : Rule Expression := do
  symbol ","
  p

/-- In front of a bracket there is no further option in the second run either. -/
theorem refused_nextOption (hr : Settled rest) (p : Rule Expression) {n : Nat} {c d : Cursor}
    (hcd : Ready rest n c d) (hc : Bracketed c) : Refused (nextOption p) d := by
  have hbalks := (Lexical.token (m := ",") (by decide)).balks_spaced hr n
  exact (hbalks c d (hc.facing hcd).ahead hc.refused_comma).bind

namespace Keeps

variable {N : Nat} {p q : Rule Expression} (h : Keeps rest N p q) (hr : Halts rest)

include h hr

theorem couples_nextOption {n : Nat} (hn : n ≤ N) :
    Couples (Ready rest (n + 1)) (Ready rest n) (nextOption p) (nextOption q) := by
  have hcomma := (Lexical.token (m := ",") (by decide)).couples_spaced hr.settled n
  exact (hcomma.mono (fun _ _ => Ready.beside) fun _ _ => id).bind fun _ => h.couples_ready hn

theorem balks_separated {n : Nat} (hn : n ≤ N) :
    Balks (Ahead rest n) (separated (Rule.symbol ",") p) (separated (Rule.symbol ",") q) := by
  refine Balks.bind (T := Ready rest n) ?_ (h.balks n hn) fun _ => ?_
  · exact (h.couples n hn).mono (fun _ _ hcd => .inl hcd.toInside) fun _ _ => id
  · intro c d hcd hmany
    refine absurd (hmany.of_bind fun _ => .pure _) ?_
    exact not_refused_many (fun _ hn => h.couples_nextOption hr (Nat.le_of_lt hn)) hn hcd

/-- The options are all read where a bracket stands behind them. -/
theorem options_ok {n : Nat} (hn : n ≤ N) {c d e : Cursor} (hcd : Ready rest n c d)
    {options : Option (List Expression)}
    (ho : Rule.optional (separated (Rule.symbol ",") p) c = .ok options e) (he : Bracketed e) :
    ∃ e', Rule.optional (separated (Rule.symbol ",") q) d = .ok options e' ∧
      Ready rest n e e' := by
  rcases optional_ok_iff.mp ho with ⟨values, rfl, hs⟩ | ⟨rfl, rfl, hrefused⟩
  · obtain ⟨first, e₁, hfirst, hs⟩ := bind_ok_iff.mp hs
    obtain ⟨others, e₂, hmany, hpure⟩ := bind_ok_iff.mp hs
    cases hpure
    obtain ⟨d₁, hd₁, hnext⟩ := h.couples_ready hn c d hcd first e₁ hfirst
    obtain ⟨d', hd', hlast⟩ := couples_many (fun _ hn => h.couples_nextOption hr (Nat.le_of_lt hn))
      (fun _ _ _ hcd hc _ => refused_nextOption hr.settled q hcd hc) hn hnext hmany he
    have hq : separated (Rule.symbol ",") q d = .ok (first :: others) d' :=
      bind_ok_iff.mpr ⟨first, d₁, hd₁, bind_ok_iff.mpr ⟨others, d', hd', rfl⟩⟩
    exact ⟨d', optional_ok_iff.mpr (.inl ⟨_, rfl, hq⟩), hlast⟩
  · have hq := h.balks_separated hr hn e d (he.facing hcd).ahead hrefused
    exact ⟨d, optional_ok_iff.mpr (.inr ⟨rfl, rfl, hq⟩), hcd⟩

theorem couples_options {n : Nat} (hn : n ≤ N) (f : Option (List Expression) → Expression) :
    Couples (Ready rest n) (Ready rest n) (do
        let options ← Rule.optional (separated (Rule.symbol ",") p)
        Rule.symbol "]"
        Pure.pure (f options)) (do
        let options ← Rule.optional (separated (Rule.symbol ",") q)
        Rule.symbol "]"
        Pure.pure (f options)) := by
  intro c d hcd v c' hout
  obtain ⟨options, e, ho, hout⟩ := bind_ok_iff.mp hout
  obtain ⟨u, e₁, hbracket, hpure⟩ := bind_ok_iff.mp hout
  obtain ⟨e', hd, hnext⟩ := h.options_ok hr hn hcd ho ⟨u, e₁, hbracket⟩
  have hclose := (Lexical.token (m := "]") (by decide)).couples_spaced hr.settled n
  have hbeside := (hnext.mono (Nat.le_succ n)).beside
  obtain ⟨d', hd', hlast⟩ := hclose e e' hbeside u e₁ hbracket
  cases hpure
  exact ⟨d', bind_ok_iff.mpr ⟨options, e', hd, bind_ok_iff.mpr ⟨u, d', hd', rfl⟩⟩, hlast⟩

theorem couples_pickOne {n : Nat} (hn : n ≤ N) :
    Couples (Facing rest (n + 1)) (Beside rest n) (pickOne p) (pickOne q) := by
  have hopen : Couples (Beside rest n) (Ready rest n) (Rule.symbol "[") (Rule.symbol "[") :=
    ((Lexical.token (by decide)).couples_spaced hr.settled n).mono
      (fun _ _ hcd => hcd.mono (Nat.le_succ n)) fun _ _ => id
  have hbody := hopen.bind fun _ => (h.expressionOver hr).couples_options hr hn fun options =>
    .pickOne (options.getD [])
  refine ((Lexical.keyword (by decide)).couples_facing n).bind fun _ => ?_
  exact hbody.cut.mono (fun _ _ => id) fun _ _ => Ready.beside

omit h hr

theorem balks_pickOne (p q : Rule Expression) (n : Nat) :
    Balks (Facing rest n) (pickOne p) (pickOne q) :=
  ((Lexical.keyword (by decide)).balks_facing n).bind_commits fun _ => .cut _

end Keeps

/-! ### The alternatives together -/

section Primary

variable {N : Nat} {p q deeper deeper' : Rule Expression}

def parenthesized (deeper : Rule Expression) : Rule Expression := do
  text "("
  let value ← cut deeper
  cut (symbol ")")
  pure value

def alternatives (operand deeper : Rule Expression) : Rule Expression :=
  (do pure (.number (← number)))
    <|> (do pure (.string (← stringLiteral)))
    <|> (do pure (.boolean (← boolean)))
    <|> randomMember operand
    <|> pickOne operand
    <|> parenthesized deeper
    <|> (do pure (.var (← variableName)))

theorem primary_eq (operand deeper : Rule Expression) :
    primary operand deeper = inContext "expression" (spaced (alternatives operand deeper)) := rfl

theorem couples_parenthesized (hr : Halts rest) {n : Nat}
    (h : Couples (Beside rest n) (Ready rest n) deeper deeper') :
    Couples (Facing rest (n + 1)) (Beside rest n) (parenthesized deeper)
      (parenthesized deeper') := by
  have hclose := (Mark.parenthesis hr).couples_ready n
  refine ((Lexical.text (by decide)).couples_facing n).bind fun _ => h.cut.bind fun _ => ?_
  exact (hclose.cut.bind fun _ => .pure _).mono (fun _ _ => id) fun _ _ => Ready.beside

theorem balks_parenthesized (deeper deeper' : Rule Expression) (n : Nat) :
    Balks (Facing rest n) (parenthesized deeper) (parenthesized deeper') :=
  ((Lexical.text (by decide)).balks_facing n).bind_commits fun _ =>
    (Commits.cut _).bind fun _ => (Commits.cut _).bind fun _ => .pure _

theorem couples_alternatives (hr : Halts rest) (h : Keeps rest N p q) {n : Nat} (hn : n ≤ N)
    (hdeeper : Couples (Beside rest n) (Ready rest n) deeper deeper') :
    Couples (Facing rest (n + 1)) (Beside rest n) (alternatives p deeper)
      (alternatives q deeper') := by
  have word {α : Type} {p : Rule α} (hp : Lexical 1 p) (f : α → Expression)
      {others others' : Rule Expression}
      (ho : Couples (Facing rest (n + 1)) (Beside rest n) others others') :
      Couples (Facing rest (n + 1)) (Beside rest n) ((do Pure.pure (f (← p))) <|> others)
        ((do Pure.pure (f (← p))) <|> others') := by
    have hread : Lexical 1 (do Pure.pure (f (← p))) := hp.bind fun _ => .pure _
    exact (hread.couples_facing n).orElse (hread.balks_facing _) ho
  refine word .number .number (word .stringLiteral .string (word .boolean .boolean ?_))
  refine (h.couples_randomMember hr hn).orElse (Keeps.balks_randomMember p q _) ?_
  refine (h.couples_pickOne hr hn).orElse (Keeps.balks_pickOne p q _) ?_
  refine (couples_parenthesized hr hdeeper).orElse (balks_parenthesized _ _ _) ?_
  exact (Lexical.variableName.couples_facing n).bind fun _ => .pure _

theorem balks_alternatives (n : Nat) :
    Balks (Facing rest n) (alternatives p deeper) (alternatives q deeper') := by
  have word {α : Type} {p : Rule α} (hp : Lexical 1 p) (f : α → Expression) :
      Balks (Facing rest n) (do Pure.pure (f (← p))) (do Pure.pure (f (← p))) :=
    (hp.balks_facing n).bind_commits fun _ => .pure _
  refine (word .number .number).orElse ((word .stringLiteral .string).orElse
    ((word .boolean .boolean).orElse ?_))
  refine (Keeps.balks_randomMember p q n).orElse ((Keeps.balks_pickOne p q n).orElse ?_)
  exact (balks_parenthesized _ _ n).orElse (word .variableName .var)

theorem balks_primary (hr : Settled rest) (n : Nat) :
    Balks (Ahead rest n) (primary p deeper) (primary q deeper') :=
  (Balks.spaced hr (balks_alternatives n)).inContext

/-- Where no word and no string begins, an operand is in parentheses. -/
theorem fails_alternatives {c : Cursor} (hname : c.rest.head?.any Text.isNameChar = false)
    (hquote : c.rest.head? ≠ some '"') (h : Fails (parenthesized deeper) c) :
    Fails (alternatives p deeper) c := by
  have none {α : Type} {p : Rule α} (hp : Refuses p c.rest) {f : α → Rule Expression} :
      Fails (p >>= f) c := (Refused.fails (hp c.toPlace)).bind
  have narrower {test : Char → Bool} (ht : ∀ a, test a = true → Text.isNameChar a = true) :
      c.rest.head?.any test = false := by
    cases hrest : c.rest with
    | nil => rfl
    | cons a more =>
      rw [hrest] at hname
      exact Bool.eq_false_iff.mpr fun ha => Bool.eq_false_iff.mp hname (ht a ha)
  have hdigit := narrower fun _ => isNameChar_of_isDigit
  have hstart := narrower fun _ => Text.isNameChar_of_isNameStart
  have hkeyword {w : String} (hw : w.toList.all Text.isNameChar = true) (hne : [] ≠ w.toList) :
      Refuses (keyword w) c.rest := Refuses.keyword hw isNameChar_nil hne hname
  have hboolean : Refuses boolean c.rest :=
    Refuses.boolean isNameChar_nil (by decide) (by decide) hname
  have hvariable : Refuses variableName c.rest :=
    Refuses.checked (Refuses.inContext (Refuses.bind (.someChars hstart)))
  refine (none (.number hdigit)).orElse ((none (.stringLiteral hquote)).orElse
    ((none hboolean).orElse ?_))
  refine (none (hkeyword (by decide +kernel) (by decide))).orElse
    ((none (hkeyword (by decide +kernel) (by decide))).orElse (h.orElse (none hvariable)))

theorem couples_primary (hr : Halts rest) (h : Keeps rest N p q) {n : Nat} (hn : n ≤ N)
    (hdeeper : Couples (Beside rest n) (Ready rest n) deeper deeper') :
    Couples (Beside rest (n + 1)) (Ready rest n) (primary p deeper) (primary q deeper') := by
  refine (Couples.spaced hr.settled (couples_alternatives hr h hn hdeeper) fun c hc => ?_).inContext
  refine fails_alternatives (by rw [hc]; rfl) (by rw [hc]; exact nofun) ?_
  exact ((Lexical.text (by decide)).fails hc).bind

/-- Behind a parenthesis at the end of the text nothing closes it. -/
theorem fails_primary {c : Cursor} (hdeeper : ∀ e : Cursor, e.skip.rest = [] → Fails deeper e)
    (hc : Bare c) : Fails (primary p deeper) c := by
  rw [primary_eq]
  refine Fails.inContext (Fails.spaced ?_)
  rcases hc with hc | ⟨e, htext, he⟩
  · refine fails_alternatives (by rw [hc]; rfl) (by rw [hc]; exact nofun) ?_
    exact ((Lexical.text (by decide)).fails hc).bind
  · have hc := rest_of_text htext
    refine fails_alternatives (by rw [hc]; rfl) (by rw [hc]; exact nofun) ?_
    intro v c' hout
    obtain ⟨_, e', htext', hout⟩ := bind_ok_iff.mp hout
    cases htext.symm.trans htext'
    exact (hdeeper e he).cut.bind v c' hout

end Primary

theorem fails_prefixOperator {c : Cursor} (hc : Bare c) : Fails prefixOperator c := by
  refine Fails.spaced ?_
  rcases hc with hc | ⟨e, htext, -⟩
  · have none {m : String} (hm : isSolid m = true) : Fails (text m) c.skip :=
      (Lexical.text hm).fails hc
    exact (none (by decide)).bind.orElse (none (by decide)).bind
  · have hparenthesis : c.skip.rest = '(' :: e.rest := rest_of_text htext
    exact (Fails.text_bind hparenthesis rfl).orElse (.text_bind hparenthesis rfl)

theorem Fails.expressionOver {p : Rule Expression} {c : Cursor} (h : Fails p c) :
    Fails (expressionOver p) c := h.bind.bind.bind.bind.bind.bind

theorem fails_operandWithin (fuel room : Nat) {c : Cursor} (hc : Bare c) :
    Fails (operandWithin fuel room) c := by
  induction fuel generalizing room c with
  | zero => exact fun _ _ h => nomatch h
  | succ fuel ih =>
    refine (fails_prefixOperator hc).optional_bind (fails_primary (fun e he => ?_) hc)
    cases room with
    | zero => exact fun _ _ h => nomatch h
    | succ room => exact (ih room (.inl he)).expressionOver

/-- The induction is on the length of the texts: an operand inside another one stands behind a
character at least. -/
theorem Keeps.operandWithin (hr : Halts rest) {N fuel fuel' : Nat} (hfuel : N ≤ fuel)
    (hfuel' : N ≤ fuel') (room : Nat) :
    Keeps rest N (operandWithin fuel room) (operandWithin fuel' room) := by
  induction N generalizing fuel fuel' room with
  | zero =>
    refine ⟨fun n hn c d hcd => ?_, fun n hn c d hcd => ?_, fun _ => fails_operandWithin fuel room⟩
    · exact absurd hcd.lt (by omega)
    · exact absurd hcd.lt (by omega)
  | succ N ih =>
    obtain ⟨fuel, rfl⟩ : ∃ k, fuel = k + 1 := ⟨fuel - 1, by omega⟩
    obtain ⟨fuel', rfl⟩ : ∃ k, fuel' = k + 1 := ⟨fuel' - 1, by omega⟩
    have hkeeps (room : Nat) :=
      ih (Nat.le_of_succ_le_succ hfuel) (Nat.le_of_succ_le_succ hfuel') room
    have hdeeper {n : Nat} (hn : n ≤ N) : Couples (Beside rest n) (Ready rest n)
        (nested "expression" (fun room => Rule.expressionOver (Rule.operandWithin fuel room)) room)
        (nested "expression" (fun room => Rule.expressionOver (Rule.operandWithin fuel' room))
          room) := by
      cases room with
      | zero => exact fun _ _ _ _ _ h => nomatch h
      | succ room => exact ((hkeeps room).expressionOver hr).couples n hn
    have hbehind {n : Nat} (hn : n ≤ N) : Couples (Beside rest n) (Ready rest n)
        (nested "expression" (Rule.operandWithin fuel) room)
        (nested "expression" (Rule.operandWithin fuel') room) := by
      cases room with
      | zero => exact fun _ _ _ _ _ h => nomatch h
      | succ room => exact (hkeeps room).couples n hn
    have hsigns := Mark.prefixOperator hr
    refine ⟨fun n hn => ?_, fun n hn => ?_, fun _ => fails_operandWithin (fuel + 1) room⟩
    · cases n with
      | zero => exact fun c d hcd => absurd hcd.lt (Nat.not_lt_zero _)
      | succ n =>
        have hn := Nat.le_of_succ_le_succ hn
        have hread : Couples (Beside rest (n + 1)) (Ready rest n)
            (Rule.operandWithin (fuel + 1) room) (Rule.operandWithin (fuel' + 1) room) := by
          refine Couples.optional_bind (hsigns.couples n) (hsigns.balks _) (fun op => ?_)
            (couples_primary hr (hkeeps room) hn (hdeeper hn))
          refine Couples.bind (T := Ready rest n) ?_ fun e => .pure (applyPrefix op e)
          exact (hbehind hn).cut.mono (fun _ _ => Ready.beside) fun _ _ => id
        exact hread.mono (fun _ _ => id) fun _ _ h => h.mono (Nat.le_succ n)
    · refine Balks.optional_bind ((hsigns.balks n).mono fun _ _ h => .inl h.toInside)
        (fun op => ?_) (balks_primary hr.settled n)
      exact (Commits.cut _).bind fun _ => .pure _

/-! ## Whole expressions -/

variable {room : Nat} {e : Expression}

/-- The rule of expressions reads a text to its end. -/
def ReadsAlone (room : Nat) (text : List Char) (e : Expression) : Prop :=
  ∃ c, expression room (.ofText (String.ofList text)) = .ok e c ∧ c.rest = []

/-- Blanks and comments in front make no difference. -/
theorem ReadsAlone.exists_ok {gap text : List Char} (hgap : Skipped gap) (hs : Settled text)
    (h : ReadsAlone room (gap ++ text) e) : ∃ fuel c c', text.length < fuel ∧ c.rest = text ∧
      c.skip = c ∧ expressionOver (operandWithin fuel room) c = .ok e c' ∧ c'.rest = [] := by
  obtain ⟨c', hout, hend⟩ := h
  have hpassed := hgap.skipFrom text ⟨⟨1, 1⟩, 0⟩
  generalize Place.through ⟨⟨1, 1⟩, 0⟩ gap = place at hpassed
  have hstart : (Cursor.ofText (String.ofList (gap ++ text))).rest = gap ++ text :=
    String.toList_ofList
  have hback : (Cursor.withRest place text).skip = .withRest place text := hs place
  have hskip : (Cursor.ofText (String.ofList (gap ++ text))).skip = .withRest place text := by
    unfold Cursor.skip
    rw [hstart]
    exact hpassed.trans (hs place)
  have hskips : SkipsBlanks (Rule.expressionOver (operandWithin
      ((Cursor.ofText (String.ofList (gap ++ text))).rest.length + 1) room)) := .expressionOver
  have hlt : text.length < (Cursor.ofText (String.ofList (gap ++ text))).rest.length + 1 := by
    rw [hstart, List.length_append]
    omega
  refine ⟨_, .withRest place text, c', hlt, rfl, hback, ?_, hend⟩
  rw [← hskips _ _ (hskip.trans hback.symm)]
  exact hout

/-- An expression that is read alone, perhaps behind some blanks and comments, is read in the same
way in front of a blank and something that does not go on it. -/
theorem ReadsAlone.before (hr : Halts rest) {gap text : List Char} (hgap : Skipped gap)
    (hs : Settled text) (hclosed : Closed (gap ++ text)) (h : ReadsAlone room (gap ++ text) e) :
    Reads (expression room) (text ++ ' ' :: rest) e rest := by
  intro place
  obtain ⟨fuel, c, c', hfuel, hc, -, hout, hend⟩ := h.exists_ok hgap hs
  have hfuel' : text.length < (text ++ ' ' :: rest).length + 1 := by
    rw [List.length_append]
    omega
  have hkeeps := (Keeps.operandWithin hr hfuel hfuel' room).expressionOver hr
  have hinside : Inside rest (text.length + 1) c (.withRest place (text ++ ' ' :: rest)) :=
    ⟨by rw [hc]; exact Nat.lt_succ_self _, hc ▸ hclosed.of_skipped hgap, by rw [hc]; rfl⟩
  obtain ⟨d, hd, hnext⟩ := hkeeps.couples _ (Nat.le_refl _) _ _ (.inl hinside) e c' hout
  have hpast := hnext.resolve_left fun hfacing => hfacing.ne_nil hend
  refine ⟨d.toPlace, hd.trans ?_⟩
  rw [← hpast.eq]
  rfl

end Rule

end Storybook.Script
