/-
# `Storybook.Proofs.Script.Operand` — how operands are read

An operand is an operator and another operand, or one of seven alternatives, which the rule
tries in order.  Each alternative is read where its text stands, because the ones before it
refuse that text:

| alternative | begins with |
| :-- | :-- |
| number | a digit |
| string | a quote |
| truth value, `random`, `pick_one` | its word |
| parentheses | `(`, where no word stands |
| variable | a word, but none of those above |
-/
import Storybook.Proofs.Script.Level

namespace Storybook.Script

namespace Rule

variable {l : Level} {bound : Nat} {text rest : List Char} {value : Expression}

/-! ## Operands -/

variable {fuel room : Nat}

/-- An operator in front of an operand. -/
theorem ReadsAt.unary (op : UnaryOperator) (s : Spacing) (hopens : Opens text)
    (h : ReadsAt (operandWithin fuel room) .operand fuel text value) :
    ReadsAt (operandWithin (fuel + 1) (room + 1)) .operand (fuel + 1)
      (op.symbol.toList ++ (s.gap ++ text)) (applyPrefix op value) := by
  intro blanks rest hend hlen
  simp only [List.append_assoc, List.length_append] at hlen ⊢
  have hsettled := (hopens.append (blanks ++ rest)).settled
  obtain ⟨b, more, hgap⟩ : ∃ b more, s.gap = b :: more := List.exists_cons_of_ne_nil s.gap_ne_nil
  have hop : Reads prefixOperator (op.symbol.toList ++ (s.gap ++ (text ++ (blanks ++ rest)))) op
      (text ++ (blanks ++ rest)) := by
    cases op with
    | negate =>
      exact Reads.spaced (settled_mark rfl)
        (.orElse_left (.bind (.text "-" _) (.pure _ _))) s.gap_isSpace hsettled
    | not =>
      refine Reads.spaced (settled_mark rfl)
        (.orElse_right (Refuses.bind (.text_of_head rfl))
          (.bind (.text "!" _) (.bind (.notAhead (.text ?_)) (.pure _ _)))) s.gap_isSpace hsettled
      rw [hgap]
      refine not_prefix_of_head ?_
      rintro rfl
      exact absurd (s.gap_isSpace '=' (by rw [hgap]; exact List.mem_cons_self ..)) (by decide)
  have hpos : 0 < op.symbol.toList.length := by cases op <;> decide
  refine Reads.bind (.optional_some hop) (.bind (.cut (h blanks rest hend ?_)) (.pure _ _))
  simp only [List.length_append]
  omega

end Rule

/-- Whether a text begins with something that stands in front of no operand: no blank, no
comment, no minus and no exclamation mark. -/
def Plain (text : List Char) : Prop :=
  ∃ c more, text = c :: more ∧ isSpace c = false ∧ c ≠ '/' ∧ c ≠ '-' ∧ c ≠ '!'

theorem Plain.opens {text : List Char} (h : Plain text) : Opens text := by
  obtain ⟨c, more, e, hc, hs, -⟩ := h
  exact ⟨c, more, e, hc, hs⟩

theorem Plain.append {text : List Char} (h : Plain text) (rest : List Char) :
    Plain (text ++ rest) := by
  obtain ⟨c, more, rfl, hc⟩ := h
  exact ⟨c, more ++ rest, rfl, hc⟩

theorem plain_of_isNameChar {c : Char} (h : Text.isNameChar c = true) (more : List Char) :
    Plain (c :: more) := by
  have no (d : Char) (hd : Text.isNameChar d = false) : c ≠ d := by
    rintro rfl
    rw [h] at hd
    exact nomatch hd
  refine ⟨c, more, rfl, ?_, no '/' rfl, no '-' rfl, no '!' rfl⟩
  simp [isSpace, no ' ' rfl, no '\t' rfl, no '\r' rfl, no '\n' rfl]

theorem Numeral.plain (n : Numeral) : Plain n.text := by
  obtain ⟨whole, fraction, hne, hw, hf⟩ := n
  obtain ⟨c, more, rfl⟩ : ∃ c more, whole = c :: more := List.exists_cons_of_ne_nil hne
  have hc := isNameChar_of_isDigit (hw c (List.mem_cons_self ..))
  cases fraction with
  | nil => exact plain_of_isNameChar hc _
  | cons d fraction => exact (plain_of_isNameChar hc more).append ('.' :: d :: fraction)

theorem Variable.plain (x : Variable) : Plain x.name.toList := by
  obtain ⟨c, others, h, -, hall⟩ := x.exists_toList
  rw [h]
  exact plain_of_isNameChar (hall c (List.mem_cons_self ..)) _

/-- An expression may end before a closing mark. -/
theorem ending_closing (s : Spacing) {l : Level} {c : Char} {rest : List Char}
    (hc : c = ')' ∨ c = ']' ∨ c = ',') : Ending l s.inner (c :: rest) := by
  have hsettled : Settled (c :: rest) := by
    rcases hc with rfl | rfl | rfl <;> exact settled_mark rfl
  have hparted : Parted (c :: rest) := by
    rcases hc with rfl | rfl | rfl <;> exact parted_cons (by rfl) (by decide)
  refine ⟨s.inner_isSpace, hsettled, .of_blanks s.inner_isSpace fun _ => hparted, ?_⟩
  rcases hc with rfl | rfl | rfl <;> exact .of_none rfl

namespace Rule

variable {l : Level} {bound fuel room : Nat} {input after blanks rest : List Char}
  {value : Expression} {inside deeper : Rule Expression}

/-- Where no operator stands in front, an operand is a primary one. -/
theorem Reads.operandWithin_primary (h : Plain input)
    (hp : Reads (primary (operandWithin fuel room)
      (nested "expression" (fun room => expressionOver (operandWithin fuel room)) room))
      input value rest) :
    Reads (operandWithin (fuel + 1) room) input value rest := by
  obtain ⟨c, more, rfl, hs, hslash, hminus, hnot⟩ := h
  exact Reads.bind (.optional_none (.spaced (settled_cons hs hslash)
    (.orElse (Refuses.bind (.text (not_prefix_of_head (Ne.symm hminus))))
      (Refuses.bind (.text (not_prefix_of_head (Ne.symm hnot))))))) hp

/-! ### The alternatives of an operand -/

/-- The alternatives after literals, `random` and `pick_one`. -/
def primaryLast (deeper : Rule Expression) : Rule Expression :=
  (do text "("; let value ← cut deeper; cut (symbol ")"); pure value)
    <|> (do pure (.var (← variableName)))

/-- The alternatives after numbers and strings. -/
def primaryWord (inside deeper : Rule Expression) : Rule Expression :=
  (do pure (.boolean (← boolean)))
    <|> randomMember inside
    <|> pickOne inside
    <|> primaryLast deeper

/-- What begins with neither a digit nor a quote is no number and no string. -/
theorem Reads.primary_of_word {c : Char} {more : List Char} (hplain : Plain (c :: more))
    (hdigit : c.isDigit = false) (hquote : c ≠ '"') (hb : ∀ c ∈ blanks, isSpace c = true)
    (hr : Settled rest)
    (h : Reads (primaryWord inside deeper) (c :: more) value (blanks ++ rest)) :
    Reads (primary inside deeper) (c :: more) value rest :=
  Reads.inContext (Reads.spaced hplain.opens.settled
    (.orElse_right (Refuses.bind (Refuses.number hdigit))
      (.orElse_right (Refuses.bind (Refuses.stringLiteral fun e => hquote (Option.some.inj e))) h))
    hb hr)

/-- A run of name characters that is none of the first words is left to the last
alternatives. -/
theorem Reads.primaryWord_of_last {run : List Char}
    (hrun : ∀ c ∈ run, Text.isNameChar c = true) (hafter : after.head?.any Text.isNameChar = false)
    (hfree : ∀ w ∈ ["true", "false", "random", "pick_one"], run ≠ w.toList)
    (h : Reads (primaryLast deeper) (run ++ after) value rest) :
    Reads (primaryWord inside deeper) (run ++ after) value rest :=
  .orElse_right (Refuses.bind (.boolean hrun (hfree _ (by decide)) (hfree _ (by decide)) hafter))
    (.orElse_right (Refuses.bind (.keyword (by decide +kernel) hrun (hfree _ (by decide)) hafter))
      (.orElse_right (Refuses.bind (.keyword (by decide +kernel) hrun (hfree _ (by decide)) hafter))
        h))

theorem Reads.primary_number (n : Numeral) (h : Ending l blanks rest) :
    Reads (primary inside deeper) (n.text ++ (blanks ++ rest)) (.number n.value) rest :=
  Reads.inContext (Reads.spaced (n.plain.append _).opens.settled
    (.orElse_left (.bind (.number n h.parted) (.pure _ _))) h.isSpace h.settled)

theorem Reads.primary_string (v : String) (h : Ending l blanks rest) :
    Reads (primary inside deeper) (quoted v ++ (blanks ++ rest)) (.string v) rest :=
  Reads.inContext (Reads.spaced (settled_mark rfl)
    (.orElse_right (Refuses.bind (Refuses.number rfl))
      (.orElse_left (.bind (.stringLiteral v _) (.pure _ _)))) h.isSpace h.settled)

theorem Reads.primary_boolean (b : Bool) (h : Ending l blanks rest) :
    Reads (primary inside deeper) ((toString b).toList ++ (blanks ++ rest)) (.boolean b) rest := by
  have hread : Reads (primaryWord inside deeper) ((toString b).toList ++ (blanks ++ rest))
      (.boolean b) (blanks ++ rest) := .orElse_left (.bind (.boolean b h.parted) (.pure _ _))
  cases b <;>
    exact .primary_of_word (plain_of_isNameChar (by rfl) _) (by decide) (by decide)
      h.isSpace h.settled hread

theorem Reads.primary_var (x : Variable) (h : Ending l blanks rest) :
    Reads (primary inside deeper) (x.name.toList ++ (blanks ++ rest)) (.var x.name) rest := by
  have hlast : Reads (primaryLast deeper) (x.name.toList ++ (blanks ++ rest)) (.var x.name)
      (blanks ++ rest) := by
    refine .orElse_right (Refuses.bind (.text ?_)) (.bind (.variableName x h.parted) (.pure _ _))
    obtain ⟨c, others, hx, -, hall⟩ := x.exists_toList
    rw [hx]
    refine not_prefix_of_head ?_
    rintro rfl
    exact absurd (hall '(' (List.mem_cons_self ..)) (by decide +kernel)
  have hword : Reads (primaryWord inside deeper) (x.name.toList ++ (blanks ++ rest)) (.var x.name)
      (blanks ++ rest) := by
    refine .primaryWord_of_last x.isNameChar h.parted.name (fun w hw => x.toList_ne ?_) hlast
    exact (by decide : ∀ w ∈ ["true", "false", "random", "pick_one"], w ∈ reservedWords) w hw
  obtain ⟨c, others, hx, hstart, hall⟩ := x.exists_toList
  rw [hx] at hword ⊢
  refine .primary_of_word (plain_of_isNameChar (hall c (List.mem_cons_self ..)) _)
    (not_isDigit_of_isNameStart hstart) ?_ h.isSpace h.settled hword
  rintro rfl
  exact absurd (hall '"' (List.mem_cons_self ..)) (by decide +kernel)

theorem Reads.primary_parens (s : Spacing)
    (hdeeper : Reads deeper (s.inner ++ (input ++ (s.inner ++ (')' :: (blanks ++ rest))))) value
      (')' :: (blanks ++ rest))) (h : Ending l blanks rest) :
    Reads (primary inside deeper)
      ('(' :: (s.inner ++ (input ++ (s.inner ++ (')' :: (blanks ++ rest)))))) value rest := by
  have hclose : Reads (Rule.symbol ")") (")".toList ++ (blanks ++ rest)) () rest :=
    .symbol (settled_mark rfl) h.isSpace h.settled
  have hlast : Reads (primaryLast deeper)
      ('(' :: (s.inner ++ (input ++ (s.inner ++ (')' :: (blanks ++ rest)))))) value rest :=
    .orElse_left (.bind (.text "(" _) (.bind (.cut hdeeper) (.bind (.cut hclose) (.pure _ _))))
  exact .primary_of_word ⟨'(', _, rfl, by decide⟩ (by decide) (by decide) isSpace_nil h.settled
    (.primaryWord_of_last isNameChar_nil (by rfl) (by decide) hlast)

/-- A range of two sums that must be one. -/
theorem Reads.wholeRange (s : Spacing) {left right : List Char} {v w : Expression}
    (hopens : Opens right) (hleft : ReadsAt (sumOver inside) .sum bound left v)
    (hright : ReadsAt (sumOver inside) .sum bound right w) (h : Ending .sum blanks rest)
    (hlen : (left ++ (s.gap ++ ("..".toList ++ (s.gap ++ right))) ++ (blanks ++ rest)).length <
      bound) :
    Reads (Rule.wholeRange inside)
      (left ++ (s.gap ++ ("..".toList ++ (s.gap ++ right))) ++ (blanks ++ rest)) (.range v w)
      rest := by
  simp only [List.append_assoc, List.length_append] at hlen ⊢
  have hdots : Reads (Rule.symbol "..") ("..".toList ++ (s.gap ++ (right ++ (blanks ++ rest)))) ()
      (right ++ (blanks ++ rest)) :=
    .symbol (settled_dots _) s.gap_isSpace (hopens.append _).settled
  refine (hleft s.gap _ (ending_dots s _) ?_).bind
    (.bind (.inContext hdots) (.bind (.cut (hright blanks rest h ?_)) (.pure _ _)))
  all_goals
    simp only [List.length_append]
    omega

/-- A random member of a range in parentheses. -/
theorem Reads.primary_random (s : Spacing) (hopens : Opens input)
    (hrange : Reads (Rule.wholeRange inside)
      (input ++ (s.inner ++ (")".toList ++ (blanks ++ rest)))) value
      (")".toList ++ (blanks ++ rest)))
    (h : Ending l blanks rest) :
    Reads (primary inside deeper) ("random".toList ++ (s.gap ++ ("(".toList ++ (s.inner ++
      (input ++ (s.inner ++ (")".toList ++ (blanks ++ rest))))))))
      (.random value) rest := by
  have hgap {after : List Char} : Parted (s.gap ++ after) :=
    .of_blanks s.gap_isSpace fun h => absurd h s.gap_ne_nil
  have hopen : Settled ("(".toList ++ (s.inner ++ (input ++ (s.inner ++ (")".toList ++
      (blanks ++ rest)))))) := settled_mark rfl
  have hclose : Settled (")".toList ++ (blanks ++ rest)) := settled_mark rfl
  have hmembers : Reads (do
      Rule.symbol "("
      let range ← Rule.wholeRange inside
      Rule.symbol ")"
      return range) _ value rest :=
    (Reads.symbol hopen s.inner_isSpace (hopens.append _).settled).bind
      (hrange.bind ((Reads.symbol hclose h.isSpace h.settled).bind (.pure _ _)))
  have hmember : Reads (randomMember inside) _ (.random value) rest :=
    .bind (.keyword "random" hgap) (.bind (.cut (.spaced_after s.gap_isSpace
      hopen (.orElse_left hmembers) isSpace_nil h.settled)) (.pure _ _))
  have hname : "random".toList.all Text.isNameChar = true := by decide +kernel
  have hboolean {after : List Char} : Refuses Rule.boolean ("random".toList ++ (s.gap ++ after)) :=
    .boolean (List.all_eq_true.mp hname) (by decide) (by decide) hgap.name
  exact .primary_of_word (plain_of_isNameChar (by rfl) _) (by decide) (by decide) isSpace_nil
    h.settled (.orElse_right hboolean.bind (.orElse_left hmember))

/-! ### Lists of options -/

/-- No expression begins with a closing bracket. -/
theorem refuses_operand_bracket (fuel room : Nat) (tail : List Char) :
    Refuses (operandWithin fuel room) (']' :: tail) := by
  cases fuel with
  | zero => exact fun _ => ⟨_, rfl⟩
  | succ fuel =>
    have hs : Settled (']' :: tail) := settled_mark rfl
    have hword {w : String} (hw : w.toList.all Text.isNameChar = true)
        (hne : [] ≠ w.toList) : Refuses (keyword w) (']' :: tail) :=
      .keyword hw isNameChar_nil hne (by rfl)
    refine Reads.bind_refuses (.optional_none (.spaced hs (.orElse
      (Refuses.bind (.text_of_head rfl))
      (Refuses.bind (.text_of_head rfl))))) ?_
    exact Refuses.inContext (.spaced hs (.orElse (Refuses.bind (.number rfl))
      (.orElse (Refuses.bind (.stringLiteral (by simp)))
      (.orElse (Refuses.bind (.boolean isNameChar_nil (by decide) (by decide) (by rfl)))
      (.orElse (Refuses.bind (hword (by decide +kernel) (by decide)))
      (.orElse (Refuses.bind (hword (by decide +kernel) (by decide)))
      (.orElse (Refuses.bind (.text_of_head rfl))
      (Refuses.bind (Refuses.checked (Refuses.inContext (Refuses.bind
        (.someChars (by rfl)))))))))))))

theorem refuses_expression_bracket (fuel room : Nat) (tail : List Char) :
    Refuses (expressionOver (operandWithin fuel room)) (']' :: tail) :=
  -- the first thing that a level reads is an expression of the next one
  (refuses_operand_bracket fuel room tail).bind.bind.bind.bind.bind.bind

end Rule

/-- A list goes on with a comma or ends with its bracket. -/
theorem Surface.ending_listText (s : Spacing) (options : List Surface) (tail : List Char) :
    Ending .disjunction s.inner (listText s (',' :: s.gap) options ++ (']' :: tail)) := by
  cases options with
  | nil => exact ending_closing s (.inr (.inl rfl))
  | cons e options => exact ending_closing s (.inr (.inr rfl))

namespace Rule

variable {bound fuel room : Nat} {blanks rest : List Char} {l : Level}
  {inside deeper : Rule Expression}

/-- The options after the first one. -/
theorem Reads.many_options (s : Spacing) (tail : List Char) {options : List Surface}
    (hopens : ∀ e ∈ options, Opens (e.text s))
    (h : ∀ e ∈ options, ReadsAt (expressionOver inside) .disjunction bound (e.text s) e.value)
    (hlen : (Surface.listText s (',' :: s.gap) options ++ (']' :: tail)).length < bound) :
    Reads (many (do Rule.symbol ","; expressionOver inside))
      (Surface.listText s (',' :: s.gap) options ++ (']' :: tail)) (options.map Surface.value)
      (']' :: tail) := by
  induction options with
  | nil =>
    exact .many_nil (Refuses.bind (.symbol (settled_mark rfl)
      (not_prefix_of_head (by decide))))
  | cons e options ih =>
    simp only [Surface.listText, List.append_assoc, List.length_append, List.length_cons,
      List.cons_append] at hlen ih ⊢
    have he := h e (List.mem_cons_self ..)
    have hcomma : Reads (Rule.symbol ",") (",".toList ++ (s.gap ++ (e.text s ++ (s.inner ++
        (Surface.listText s (',' :: s.gap) options ++ (']' :: tail)))))) () _ :=
      .symbol (settled_mark rfl) s.gap_isSpace
        ((hopens e (List.mem_cons_self ..)).append _).settled
    refine .many_cons (hcomma.bind (he s.inner _ (Surface.ending_listText s options tail) ?_)) ?_
      (ih (fun e he => hopens e (List.mem_cons_of_mem _ he))
        (fun e he => h e (List.mem_cons_of_mem _ he)) (by omega))
    all_goals
      simp only [List.length_append, List.length_cons]
      omega

/-- One of some options in brackets. -/
theorem Reads.primary_pickOne (s : Spacing) {options : List Surface}
    (hopens : ∀ e ∈ options, Opens (e.text s))
    (h : ∀ e ∈ options, ReadsAt (expressionOver inside) .disjunction bound (e.text s) e.value)
    (hbracket : ∀ tail, Refuses (expressionOver inside) (']' :: tail))
    (hend : Ending l blanks rest)
    (hlen : (Surface.listText s [] options ++ (']' :: (blanks ++ rest))).length < bound) :
    Reads (primary inside deeper) ("pick_one".toList ++ (s.gap ++ ("[".toList ++ (s.inner ++
      (Surface.listText s [] options ++ ("]".toList ++ (blanks ++ rest)))))))
      (.pickOne (options.map Surface.value)) rest := by
  have hgap {after : List Char} : Parted (s.gap ++ after) :=
    .of_blanks s.gap_isSpace fun h => absurd h s.gap_ne_nil
  have hopen {after : List Char} : Settled ("[".toList ++ after) :=
    settled_mark rfl
  have hclose : Settled ("]".toList ++ (blanks ++ rest)) := settled_mark rfl
  have hlist : ∃ read : Option (List Expression), read.getD [] = options.map Surface.value ∧
      Settled (Surface.listText s [] options ++ ("]".toList ++ (blanks ++ rest))) ∧
      Reads (optional (Rule.separated (Rule.symbol ",") (expressionOver inside)))
        (Surface.listText s [] options ++ ("]".toList ++ (blanks ++ rest))) read
        ("]".toList ++ (blanks ++ rest)) := by
    cases options with
    | nil => exact ⟨none, rfl, hclose, .optional_none (Refuses.bind (hbracket _))⟩
    | cons e options =>
      simp only [Surface.listText, List.append_assoc, List.nil_append] at hlen ⊢
      have hmany := Reads.many_options s (blanks ++ rest)
        (fun e he => hopens e (List.mem_cons_of_mem _ he))
        (fun e he => h e (List.mem_cons_of_mem _ he))
        (by simp only [List.length_append] at hlen ⊢; omega)
      refine ⟨some (e.value :: options.map Surface.value), rfl,
        ((hopens e (List.mem_cons_self ..)).append _).settled, .optional_some (.separated ?_ hmany)⟩
      exact h e (List.mem_cons_self ..) s.inner _ (Surface.ending_listText s options _) hlen
  obtain ⟨read, hread, hsettled, hlist⟩ := hlist
  have hpick : Reads (pickOne inside) _ (.pickOne (read.getD [])) rest :=
    .bind (.keyword "pick_one" hgap) (.cut (.bind (.symbol_after s.gap_isSpace hopen s.inner_isSpace
      hsettled) (.bind hlist (.bind (.symbol hclose hend.isSpace hend.settled) (.pure _ _)))))
  rw [hread] at hpick
  have hname : ∀ c ∈ "pick_one".toList, Text.isNameChar c = true :=
    List.all_eq_true.mp (by decide +kernel)
  have hboolean {after : List Char} :
      Refuses Rule.boolean ("pick_one".toList ++ (s.gap ++ after)) :=
    .boolean hname (by decide) (by decide) hgap.name
  have hrandom {after : List Char} :
      Refuses (Rule.keyword "random") ("pick_one".toList ++ (s.gap ++ after)) :=
    .keyword (by decide +kernel) hname (by decide) hgap.name
  exact .primary_of_word (plain_of_isNameChar (by rfl) _) (by decide) (by decide) isSpace_nil
    hend.settled (.orElse_right hboolean.bind (.orElse_right hrandom.bind (.orElse_left hpick)))

end Rule

end Storybook.Script
