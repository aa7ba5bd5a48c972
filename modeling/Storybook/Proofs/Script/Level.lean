/-
# `Storybook.Proofs.Script.Level` — how the levels of expressions are read

Each level of the grammar reads the operators of its own between expressions of the next
tighter level.  Here is said of every level, whatever the rule of operands is:

| | |
| :-- | :-- |
| `ReadsAt.looser` | what a tighter level reads, it reads as well |
| `ReadsChain.binary` | two operands with an operator that groups to the left |
| `ReadsAt.comparison`, `ReadsAt.range` | two operands with an operator that does not group |

A reading stops where none of the level's operators follows (`Ending`).  A chain is the
exception: its text is read together with the links that follow it (`ReadsChain`), because
the left operand of the last operator in a chain is read by the same loop as that operator.
-/
import Storybook.Proofs.Script.Surface
import Storybook.Script.Expression

namespace Storybook.Script

/-! ## What may follow an expression -/

namespace Level

/-- The level of the operators that begin with a character. -/
def ofSign (c : Char) : Option Level :=
  if c = '|' then some disjunction
  else if c = '&' then some conjunction
  else if c = '=' ∨ c = '!' ∨ c = '<' ∨ c = '>' then some comparison
  else if c = '.' then some range
  else if c = '+' ∨ c = '-' then some sum
  else if c = '*' ∨ c = '/' ∨ c = '%' then some product
  else none

/-- Whether no operator of a level or of a tighter one stands at the front of a text. -/
def Ends (l : Level) (rest : List Char) : Prop :=
  ∀ c ∈ rest.head?, ∀ m ∈ ofSign c, m.rank < l.rank

variable {l m : Level} {rest : List Char}

theorem Ends.mono (h : l.Ends rest) (hlm : l.rank ≤ m.rank) : m.Ends rest :=
  fun c hc k hk => Nat.lt_of_lt_of_le (h c hc k hk) hlm

theorem Ends.of_none {c : Char} (h : ofSign c = none) : l.Ends (c :: rest) := by
  intro d hd k hk
  cases Option.some.inj hd
  rw [h] at hk
  exact nomatch hk

theorem Ends.of_some {c : Char} (h : ofSign c = some m) (hml : m.rank < l.rank) :
    l.Ends (c :: rest) := by
  intro d hd k hk
  cases Option.some.inj hd
  rw [h] at hk
  cases Option.some.inj hk
  exact hml

/-- The sign of an operator of the level does not stand at the front. -/
theorem Ends.not_prefixed {sign : String} {c : Char} {more : List Char}
    (h : l.Ends rest) (hsign : sign.toList = c :: more) (hc : ofSign c = some m)
    (hlm : l.rank ≤ m.rank) : ¬ sign.toList <+: rest := by
  rintro ⟨after, rfl⟩
  rw [hsign] at h
  exact absurd (h c rfl m hc) (by omega)

theorem rank_injective (h : l.rank = m.rank) : l = m := by
  cases l <;> cases m <;> first | rfl | exact nomatch h

theorem rank_tighter (h : l ≠ .operand) : l.tighter.rank = l.rank + 1 := by
  cases l <;> first | rfl | exact absurd rfl h

theorem ne_operand_of_rank_lt (h : l.rank < m.rank) : l ≠ .operand := by
  rintro rfl
  cases m <;> exact absurd h (by decide)

end Level

/-- What follows an expression of a level: some blanks, and then a text without an operator
that would go on the expression. -/
structure Ending (l : Level) (blanks rest : List Char) : Prop where
  isSpace : ∀ c ∈ blanks, isSpace c = true
  settled : Settled rest
  parted : Parted (blanks ++ rest)
  ends : l.Ends rest

theorem Ending.mono {l m : Level} {blanks rest : List Char} (h : Ending l blanks rest)
    (hlm : l.rank ≤ m.rank) : Ending m blanks rest :=
  ⟨h.isSpace, h.settled, h.parted, h.ends.mono hlm⟩

namespace Rule

/-! ## Operators -/

def operatorAt : Level → Rule BinaryOperator
  | .disjunction => orOperator
  | .conjunction => andOperator
  | .comparison => comparisonOperator
  | .sum => sumOperator
  | .product => productOperator
  | .range | .operand => refuse .unexpected

def levelOver (operand : Rule Expression) : Level → Rule Expression
  | .disjunction => expressionOver operand
  | .conjunction => leftChain andOperator (comparisonOver operand)
  | .comparison => comparisonOver operand
  | .range => rangeOver operand
  | .sum => sumOver operand
  | .product => leftChain productOperator operand
  | .operand => operand

variable {l m : Level} {rest : List Char}

theorem Refuses.sign {op : BinaryOperator} (h : ¬ op.symbol.toList <+: rest) :
    Refuses (sign op) rest :=
  (Refuses.text h).bind

theorem Refuses.sign_of_head {op : BinaryOperator} {c : Char}
    (h : op.symbol.toList.head?.any (· != c) = true) : Refuses (Rule.sign op) (c :: rest) :=
  (Refuses.text_of_head h).bind

/-- An operator of a level is refused where none stands. -/
theorem Refuses.operatorAt (hs : Settled rest) (he : l.Ends rest) (hlm : l.rank ≤ m.rank) :
    Refuses (operatorAt m) rest := by
  have no (op : BinaryOperator) {c : Char} {more : List Char}
      (hop : op.symbol.toList = c :: more) (hc : Level.ofSign c = some m) :
      ¬ op.symbol.toList <+: rest := he.not_prefixed hop hc hlm
  cases m with
  | disjunction => exact (Refuses.symbol hs (no .or rfl rfl)).bind
  | conjunction => exact (Refuses.symbol hs (no .and rfl rfl)).bind
  | comparison =>
    exact Refuses.spaced hs <|
      .orElse (.sign (no _ rfl rfl)) <| .orElse (.sign (no _ rfl rfl)) <|
      .orElse (.sign (no _ rfl rfl)) <| .orElse (.sign (no _ rfl rfl)) <|
      .orElse (.sign (no _ rfl rfl)) (.sign (no _ rfl rfl))
  | sum => exact Refuses.spaced hs (.orElse (.sign (no _ rfl rfl)) (.sign (no _ rfl rfl)))
  | product =>
    exact Refuses.spaced hs <|
      .orElse (.sign (no _ rfl rfl)) <| .orElse (Refuses.bind (.sign (no _ rfl rfl)))
        (.sign (no _ rfl rfl))
  | range | operand => exact fun _ => ⟨_, rfl⟩

end Rule

theorem not_prefix_of_head {c d : Char} {more rest : List Char} (h : c ≠ d) :
    ¬ (c :: more) <+: (d :: rest) :=
  fun hp => h (List.cons_prefix_cons.mp hp).1

theorem not_prefix_of_second {b c d e : Char} {more rest : List Char} (h : c ≠ e) :
    ¬ (b :: c :: more) <+: (d :: e :: rest) :=
  fun hp => not_prefix_of_head h (List.cons_prefix_cons.mp hp).2

theorem BinaryOperator.symbol_pos (op : BinaryOperator) : 0 < op.symbol.toList.length := by
  cases op <;> decide

/-- Whether a text begins with something else than a blank or a slash. -/
def Opens (text : List Char) : Prop :=
  ∃ c more, text = c :: more ∧ isSpace c = false ∧ c ≠ '/'

theorem Opens.append {text : List Char} (h : Opens text) (rest : List Char) :
    Opens (text ++ rest) := by
  obtain ⟨c, more, rfl, hc, hs⟩ := h
  exact ⟨c, more ++ rest, rfl, hc, hs⟩

theorem Opens.settled {text : List Char} (h : Opens text) : Settled text := by
  obtain ⟨c, more, rfl, hc, hs⟩ := h
  exact settled_cons hc hs

namespace Rule

theorem Reads.sign (op : BinaryOperator) (rest : List Char) :
    Reads (sign op) (op.symbol.toList ++ rest) op rest :=
  (Reads.text _ _).bind (.pure _ _)

/-- An operator is read where a blank follows its sign: the blank tells `<` from `<=`, and a
division from a comment. -/
theorem Reads.operatorAt (op : BinaryOperator) {gap rest : List Char} (hgap : gap ≠ [])
    (hb : ∀ c ∈ gap, isSpace c = true) (hr : Settled rest) :
    Settled (op.symbol.toList ++ (gap ++ rest)) ∧
      Reads (operatorAt op.level) (op.symbol.toList ++ (gap ++ rest)) op rest := by
  obtain ⟨b, more, rfl⟩ : ∃ b more, gap = b :: more := List.exists_cons_of_ne_nil hgap
  have hblank := hb b (List.mem_cons_self ..)
  have hequals : '=' ≠ b := by rintro rfl; exact absurd hblank (by decide)
  have hslash : '/' ≠ b := by rintro rfl; exact absurd hblank (by decide)
  have hs : Settled (op.symbol.toList ++ (b :: more ++ rest)) := by
    cases op
    case divide => exact settled_slash fun h => hslash (Option.some.inj h).symm
    all_goals exact settled_mark rfl
  refine ⟨hs, ?_⟩
  cases op with
  | or | and => exact (Reads.symbol hs hb hr).bind (.pure _ _)
  | add => exact Reads.spaced hs (.orElse_left (.sign .add _)) hb hr
  | subtract =>
    exact Reads.spaced hs (.orElse_right (.sign_of_head rfl)
      (.sign .subtract _)) hb hr
  | multiply => exact Reads.spaced hs (.orElse_left (.sign .multiply _)) hb hr
  | divide =>
    refine Reads.spaced hs (.orElse_right (.sign_of_head rfl)
      (.orElse_left (.bind (.sign .divide _) (.bind (.notAhead (.text ?_)) (.pure _ _))))) hb hr
    exact not_prefix_of_head hslash
  | modulo =>
    exact Reads.spaced hs (.orElse_right (.sign_of_head rfl)
      (.orElse_right (Refuses.bind (.sign_of_head rfl))
        (.sign .modulo _))) hb hr
  | equal => exact Reads.spaced hs (.orElse_left (.sign .equal _)) hb hr
  | notEqual =>
    exact Reads.spaced hs (.orElse_right (.sign_of_head rfl)
      (.orElse_left (.sign .notEqual _))) hb hr
  | lessEqual =>
    exact Reads.spaced hs (.orElse_right (.sign_of_head rfl)
      (.orElse_right (.sign_of_head rfl)
        (.orElse_left (.sign .lessEqual _)))) hb hr
  | greaterEqual =>
    exact Reads.spaced hs (.orElse_right (.sign_of_head rfl)
      (.orElse_right (.sign_of_head rfl)
        (.orElse_right (.sign_of_head rfl)
          (.orElse_left (.sign .greaterEqual _))))) hb hr
  | less =>
    exact Reads.spaced hs (.orElse_right (.sign_of_head rfl)
      (.orElse_right (.sign_of_head rfl)
        (.orElse_right (.sign (not_prefix_of_second hequals))
          (.orElse_right (.sign_of_head rfl)
            (.orElse_left (.sign .less _)))))) hb hr
  | greater =>
    exact Reads.spaced hs (.orElse_right (.sign_of_head rfl)
      (.orElse_right (.sign_of_head rfl)
        (.orElse_right (.sign_of_head rfl)
          (.orElse_right (.sign (not_prefix_of_second hequals))
            (.orElse_right (.sign_of_head rfl) (.sign .greater _)))))) hb hr

/-- An expression may end before an operator of a looser level. -/
theorem ending_operator (s : Spacing) {op : BinaryOperator} {l : Level} {rest : List Char}
    (hs : Settled (op.symbol.toList ++ rest)) (hl : op.level.rank < l.rank) :
    Ending l s.gap (op.symbol.toList ++ rest) where
  isSpace := s.gap_isSpace
  settled := hs
  parted := .of_blanks s.gap_isSpace fun h => absurd h s.gap_ne_nil
  ends := by cases op <;> exact .of_some rfl hl

/-! ## Levels -/

/-- What a rule of a level reads: a text with a value, whatever ending follows, as long as
both together are shorter than `bound`. -/
def ReadsAt (p : Rule Expression) (l : Level) (bound : Nat) (text : List Char)
    (value : Expression) : Prop :=
  ∀ blanks rest, Ending l blanks rest → (text ++ (blanks ++ rest)).length < bound →
    Reads p (text ++ (blanks ++ rest)) value rest

/-- An operator and the operand to the right of it. -/
def link (operator : Rule BinaryOperator) (operand : Rule Expression) :
    Rule (BinaryOperator × Expression) := do
  let op ← operator
  let right ← cut operand
  pure (op, right)

/-- Adds operands to the right of a first one. -/
def chained (first : Expression) (links : List (BinaryOperator × Expression)) : Expression :=
  links.foldl (fun left (op, right) => .binary op left right) first

/-- What a chain reads that begins with a text: if links follow, it reads them as well.  The
text may be a chain itself, since operators group to the left. -/
def ReadsChain (operator : Rule BinaryOperator) (operand : Rule Expression) (l : Level)
    (bound : Nat) (text : List Char) (value : Expression) : Prop :=
  ∀ blanks middle links rest, Ending l.tighter blanks middle →
    (text ++ (blanks ++ middle)).length < bound →
    Reads (many (link operator operand)) middle links rest →
    Reads (leftChain operator operand) (text ++ (blanks ++ middle)) (chained value links) rest

variable {operator : Rule BinaryOperator} {operand : Rule Expression} {bound : Nat}
  {text : List Char} {value : Expression}

theorem ReadsAt.chain (h : ReadsAt operand l.tighter bound text value) :
    ReadsChain operator operand l bound text value := by
  intro blanks middle links rest hend hlen hlinks
  exact (h blanks middle hend hlen).bind (hlinks.bind (.pure _ _))

/-- A chain ends where no operator of its level follows. -/
theorem ReadsChain.at_level (hl : l.isChain = true)
    (h : ReadsChain (Rule.operatorAt l) operand l bound text value) :
    ReadsAt (leftChain (Rule.operatorAt l) operand) l bound text value := by
  intro blanks rest hend hlen
  have hrank : l.rank ≤ l.tighter.rank := by cases l <;> decide
  exact h blanks rest [] rest (hend.mono hrank) hlen
    (.many_nil (Refuses.bind (.operatorAt hend.settled hend.ends (Nat.le_refl _))))

/-- An operator and an operand go on a chain. -/
theorem ReadsChain.binary (op : BinaryOperator) (s : Spacing) {left right : List Char}
    {v w : Expression} (hopens : Opens right)
    (hleft : ReadsChain (Rule.operatorAt op.level) operand op.level bound left v)
    (hright : ReadsAt operand op.level.tighter bound right w) :
    ReadsChain (Rule.operatorAt op.level) operand op.level bound
      (left ++ (s.gap ++ (op.symbol.toList ++ (s.gap ++ right)))) (.binary op v w) := by
  intro blanks middle links rest hend hlen hlinks
  simp only [List.append_assoc, List.length_append] at hlen ⊢
  have hop :=
    Reads.operatorAt op s.gap_ne_nil s.gap_isSpace (hopens.append (blanks ++ middle)).settled
  have hlink : Reads (link (Rule.operatorAt op.level) operand)
      (op.symbol.toList ++ (s.gap ++ (right ++ (blanks ++ middle)))) (op, w) middle :=
    hop.2.bind ((Reads.cut
      (hright blanks middle hend (by simp only [List.length_append]; omega))).bind (.pure _ _))
  refine hleft s.gap _ ((op, w) :: links) rest (ending_operator s hop.1 (by cases op <;> decide)) ?_
    (.many_cons hlink ?_ hlinks)
  · simp only [List.length_append]
    omega
  · have hsign := BinaryOperator.symbol_pos op
    simp only [List.length_append]
    omega

theorem levelOver_of_isChain (hl : l.isChain = true) :
    levelOver operand l = leftChain (Rule.operatorAt l) (levelOver operand l.tighter) := by
  cases l <;> first | rfl | exact nomatch hl

/-- What a level reads, the next looser one reads as well where no operator of its own
follows. -/
theorem ReadsAt.looser (h : ReadsAt (levelOver operand l.tighter) l.tighter bound text value) :
    ReadsAt (levelOver operand l) l bound text value := by
  have hchain (hl : l.isChain = true) : ReadsAt (levelOver operand l) l bound text value :=
    levelOver_of_isChain hl ▸ h.chain.at_level hl
  cases l with
  | disjunction | conjunction | sum | product => exact hchain rfl
  | operand => exact h
  | comparison =>
    intro blanks rest hend hlen
    refine (h blanks rest (hend.mono (by decide)) hlen).bind (.bind (.optional_none ?_) (.pure _ _))
    exact (Refuses.operatorAt (m := .comparison) hend.settled hend.ends (by decide)).bind
  | range =>
    intro blanks rest hend hlen
    refine (h blanks rest (hend.mono (by decide)) hlen).bind (.bind (.optional_none ?_) (.pure _ _))
    exact (Refuses.symbol hend.settled (hend.ends.not_prefixed rfl rfl (by decide))).bind

theorem ReadsAt.looser_of_rank_le (hlm : l.rank ≤ m.rank)
    (h : ReadsAt (levelOver operand m) m bound text value) :
    ReadsAt (levelOver operand l) l bound text value := by
  by_cases hlt : l.rank < m.rank
  · have ht := Level.rank_tighter (Level.ne_operand_of_rank_lt hlt)
    exact (ReadsAt.looser_of_rank_le (by omega) h).looser
  · cases Level.rank_injective (Nat.le_antisymm hlm (Nat.le_of_not_lt hlt))
    exact h
termination_by m.rank - l.rank

/-- The one comparison of two ranges. -/
theorem ReadsAt.comparison {op : BinaryOperator} (hop : op.level = .comparison) (s : Spacing)
    {left right : List Char} {v w : Expression} (hopens : Opens right)
    (hleft : ReadsAt (rangeOver operand) .range bound left v)
    (hright : ReadsAt (rangeOver operand) .range bound right w) :
    ReadsAt (comparisonOver operand) .comparison bound
      (left ++ (s.gap ++ (op.symbol.toList ++ (s.gap ++ right)))) (.binary op v w) := by
  intro blanks rest hend hlen
  simp only [List.append_assoc, List.length_append] at hlen ⊢
  obtain ⟨hs, hread⟩ :=
    Reads.operatorAt op s.gap_ne_nil s.gap_isSpace (hopens.append (blanks ++ rest)).settled
  rw [hop] at hread
  refine (hleft s.gap _ (ending_operator s hs (by rw [hop]; decide)) ?_).bind
    (.bind (.optional_some (hread.bind (.bind (.cut (hright blanks rest
      (hend.mono (by decide)) ?_)) (.pure _ _)))) (.pure _ _))
  all_goals
    simp only [List.length_append]
    omega

theorem settled_dots (rest : List Char) : Settled ("..".toList ++ rest) :=
  settled_mark rfl

/-- A sum may end before the sign of a range. -/
theorem ending_dots (s : Spacing) (rest : List Char) : Ending .sum s.gap ("..".toList ++ rest) where
  isSpace := s.gap_isSpace
  settled := settled_dots rest
  parted := .of_blanks s.gap_isSpace fun h => absurd h s.gap_ne_nil
  ends := .of_some rfl (by decide)

/-- The one range of two sums. -/
theorem ReadsAt.range (s : Spacing) {left right : List Char} {v w : Expression}
    (hopens : Opens right) (hleft : ReadsAt (sumOver operand) .sum bound left v)
    (hright : ReadsAt (sumOver operand) .sum bound right w) :
    ReadsAt (rangeOver operand) .range bound
      (left ++ (s.gap ++ ("..".toList ++ (s.gap ++ right)))) (.range v w) := by
  intro blanks rest hend hlen
  simp only [List.append_assoc, List.length_append] at hlen ⊢
  have hdots := Reads.symbol (settled_dots _) s.gap_isSpace (hopens.append (blanks ++ rest)).settled
  refine (hleft s.gap _ (ending_dots s _) ?_).bind
    (.bind (.optional_some (hdots.bind (.cut (hright blanks rest (hend.mono (by decide)) ?_))))
      (.pure _ _))
  all_goals
    simp only [List.length_append]
    omega

end Rule

end Storybook.Script
