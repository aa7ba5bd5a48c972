/-
# `Storybook.Proofs.Script.Printing` — a written expression is read back

`Surface.expression_text` says that the rule of expressions reads the text of every surface
tree whole and gives the tree back, with its minuses folded into the numbers behind them.

The induction is on the tree, and its claim is about all levels at once (`Surface.IsRead`): a
tree is read at its own level from the readings of its parts; at looser levels as it is; and at
tighter levels in parentheses, inside which the loosest level reads it.
-/
import Storybook.Proofs.Script.Operand

namespace Storybook.Script

namespace Rule

variable {l : Level} {fuel room : Nat} {text : List Char} {value : Expression}

/-- The rules of operands and of expressions pass over blanks. -/
theorem SkipsBlanks.operandWithin : SkipsBlanks (operandWithin (fuel + 1) room) :=
  SkipsBlanks.optional_bind (.spaced _) (.inContext (.spaced _))

theorem SkipsBlanks.expressionOver :
    SkipsBlanks (expressionOver (Rule.operandWithin (fuel + 1) room)) :=
  SkipsBlanks.operandWithin.bind.bind.bind.bind.bind.bind

/-- An expression in parentheses, one level deeper. -/
theorem ReadsAt.parens (s : Spacing)
    (h : ReadsAt (expressionOver (operandWithin fuel room)) .disjunction fuel text value) :
    ReadsAt (operandWithin (fuel + 1) (room + 1)) .operand (fuel + 1) (s.enclose true text)
      value := by
  intro blanks rest hend hlen
  simp only [Spacing.enclose, if_true, List.cons_append, List.append_assoc, List.nil_append,
    List.length_cons, List.length_append] at hlen ⊢
  obtain ⟨fuel, rfl⟩ : ∃ n, fuel = n + 1 := ⟨fuel - 1, by omega⟩
  refine .operandWithin_primary ⟨'(', _, rfl, by decide⟩
    (.primary_parens s (SkipsBlanks.expressionOver.reads s.inner_isSpace ?_) hend)
  exact h s.inner _ (ending_closing s (.inl rfl))
    (by simp only [List.length_append, List.length_cons]; omega)

end Rule

open Rule

namespace Surface

variable (s : Spacing)

/-- The text of a tree begins with no blank and no comment. -/
theorem opens_text : (e : Surface) → Opens (e.text s)
  | .number n => n.plain.opens
  | .string _ => ⟨'"', _, rfl, by decide⟩
  | .boolean true => ⟨'t', _, rfl, by decide⟩
  | .boolean false => ⟨'f', _, rfl, by decide⟩
  | .var x => x.plain.opens
  | .binary op left right => (opens_enclose _ (opens_text left)).append _
  | .unary .negate _ => ⟨'-', _, rfl, by decide⟩
  | .unary .not _ => ⟨'!', _, rfl, by decide⟩
  | .range first last => (opens_enclose _ (opens_text first)).append _
  | .random _ _ => ⟨'r', _, rfl, by decide⟩
  | .pickOne _ => ⟨'p', _, rfl, by decide⟩
where
  opens_enclose (needed : Bool) {text : List Char} (h : Opens text) :
      Opens (s.enclose needed text) := by
    cases needed with
    | false => exact h
    | true => exact ⟨'(', _, rfl, by decide⟩

theorem opens_textIn (l : Level) (e : Surface) : Opens (e.textIn s l) :=
  opens_text.opens_enclose s _ (opens_text s e)

/-! ## From one level to all -/

/-- A tree is read at every level, with parentheses where they are needed; at the levels of
chains also as the beginning of a longer chain. -/
structure IsRead (e : Surface) : Prop where
  at_level : ∀ fuel room l, e.depthIn l ≤ room →
    ReadsAt (levelOver (operandWithin fuel room) l) l fuel (e.textIn s l) e.value
  chain : ∀ fuel room l, l.isChain = true → e.depthIn l ≤ room →
    ReadsChain (operatorAt l) (levelOver (operandWithin fuel room) l.tighter) l fuel
      (e.textIn s l) e.value

variable {s} {e : Surface}

/-- It is enough to read a tree at its own level. -/
theorem IsRead.of_level
    (hlevel : ∀ fuel room, e.depth ≤ room →
      ReadsAt (levelOver (operandWithin fuel room) e.level) e.level fuel (e.text s) e.value)
    (hchain : e.level.isChain = true → ∀ fuel room, e.depth ≤ room →
      ReadsChain (operatorAt e.level) (levelOver (operandWithin fuel room) e.level.tighter)
        e.level fuel (e.text s) e.value) : IsRead s e := by
  have bare (fuel room : Nat) (l : Level) (hl : e.isLooser l = false) (hroom : e.depth ≤ room) :
      ReadsAt (levelOver (operandWithin fuel room) l) l fuel (e.text s) e.value :=
    (hlevel fuel room hroom).looser_of_rank_le (Nat.le_of_not_lt (of_decide_eq_false hl))
  have parens (fuel room : Nat) (hroom : e.depth + 1 ≤ room) :
      ReadsAt (operandWithin fuel room) .operand fuel (s.enclose true (e.text s)) e.value := by
    obtain ⟨room, rfl⟩ : ∃ n, room = n + 1 := ⟨room - 1, by omega⟩
    cases fuel with
    | zero => exact fun _ _ _ hlen => absurd hlen (Nat.not_lt_zero _)
    | succ fuel => exact .parens s (bare fuel room .disjunction rfl (by omega))
  have all (fuel room : Nat) (l : Level) (hroom : e.depthIn l ≤ room) :
      ReadsAt (levelOver (operandWithin fuel room) l) l fuel (e.textIn s l) e.value := by
    unfold textIn
    unfold depthIn at hroom
    cases hl : e.isLooser l with
    | false => exact bare fuel room l hl (by rwa [hl] at hroom)
    | true =>
      rw [hl] at hroom
      exact ReadsAt.looser_of_rank_le (m := .operand) (by cases l <;> decide)
        (parens fuel room hroom)
  refine ⟨all, fun fuel room l hl hroom => ?_⟩
  by_cases hown : l = e.level
  · subst hown
    have hbare : e.isLooser e.level = false := decide_eq_false (Nat.lt_irrefl _)
    unfold textIn
    unfold depthIn at hroom
    rw [hbare] at hroom ⊢
    exact hchain hl fuel room hroom
  · -- a tree of another level stands in a chain as it stands one level tighter
    have hne : e.level.rank ≠ l.rank := fun h => hown (Level.rank_injective h).symm
    have ht := Level.rank_tighter (l := l) (by rintro rfl; exact nomatch hl)
    have hsame : e.isLooser l = e.isLooser l.tighter := by
      refine decide_eq_decide.mpr ?_
      omega
    unfold textIn
    unfold depthIn at hroom
    rw [hsame] at hroom ⊢
    exact (all fuel room l.tighter hroom).chain

/-- An operand is read if it is read with some fuel. -/
theorem IsRead.of_operand (he : e.level = .operand)
    (h : ∀ fuel room, e.depth ≤ room →
      ReadsAt (operandWithin (fuel + 1) room) .operand (fuel + 1) (e.text s) e.value) :
    IsRead s e := by
  refine .of_level (fun fuel room hroom => ?_) (fun hl => ?_)
  · rw [he]
    cases fuel with
    | zero => exact fun _ _ _ hlen => absurd hlen (Nat.not_lt_zero _)
    | succ fuel => exact h fuel room hroom
  · rw [he] at hl
    exact nomatch hl

/-! ## The induction -/

theorem value_unary (op : UnaryOperator) (e : Surface) :
    (unary op e).value = applyPrefix op e.value := by
  cases op with
  | not => rfl
  | negate =>
    rw [value, tree, Expression.foldNegation]
    change _ = applyPrefix .negate e.tree.foldNegation
    cases e.tree.foldNegation <;> rfl

theorem value_pickOne (options : List Surface) :
    (pickOne options).value = .pickOne (options.map value) := by
  have h : Expression.foldNegations (trees options) = options.map value := by
    induction options with
    | nil => rfl
    | cons e rest ih => exact congrArg (e.value :: ·) ih
  exact congrArg Expression.pickOne h

theorem le_depths {options : List Surface} (he : e ∈ options) : e.depth ≤ depths options := by
  induction options with
  | nil => exact nomatch he
  | cons first rest ih =>
    rcases List.mem_cons.mp he with rfl | he
    · exact Nat.le_max_left ..
    · exact Nat.le_trans (ih he) (Nat.le_max_right ..)

theorem text_binary (op : BinaryOperator) (left right : Surface) :
    (binary op left right).text s = left.textIn s op.leftLevel ++
      (s.gap ++ (op.symbol.toList ++ (s.gap ++ right.textIn s op.rightLevel))) := rfl

/-- The text of a chain goes on the text of its left operand, which may be a chain of the same
level. -/
theorem IsRead.binary_of_isChain {op : BinaryOperator} (hop : op.level.isChain = true)
    {left right : Surface} (hleft : IsRead s left) (hright : IsRead s right) :
    IsRead s (binary op left right) := by
  have hlevel : op.leftLevel = op.level := if_pos hop
  have hchain (fuel room : Nat) (hroom : (binary op left right).depth ≤ room) :
      ReadsChain (operatorAt op.level) (levelOver (operandWithin fuel room) op.level.tighter)
        op.level fuel ((binary op left right).text s) (binary op left right).value := by
    obtain ⟨hl, hr⟩ := Nat.max_le.mp hroom
    have hfirst := hleft.chain fuel room op.leftLevel (by rw [hlevel, hop]) hl
    have hsecond := hright.at_level fuel room op.rightLevel hr
    rw [hlevel] at hfirst
    rw [text_binary, hlevel]
    exact ReadsChain.binary op s (opens_textIn s op.rightLevel right) hfirst hsecond
  refine .of_level (fun fuel room hroom => ?_) (fun _ => hchain)
  show ReadsAt (levelOver _ op.level) op.level _ _ _
  rw [levelOver_of_isChain hop]
  exact (hchain fuel room hroom).at_level hop

theorem IsRead.binary_of_comparison {op : BinaryOperator} (hop : op.level = .comparison)
    {left right : Surface} (hleft : IsRead s left) (hright : IsRead s right) :
    IsRead s (binary op left right) := by
  have hl : op.leftLevel = .range := by rw [BinaryOperator.leftLevel, hop]; rfl
  have hr : op.rightLevel = .range := by rw [BinaryOperator.rightLevel, hop]; rfl
  refine .of_level (fun fuel room hroom => ?_) (fun h => ?_)
  · obtain ⟨hdl, hdr⟩ := Nat.max_le.mp hroom
    have hfirst := hleft.at_level fuel room op.leftLevel hdl
    have hsecond := hright.at_level fuel room op.rightLevel hdr
    rw [hl] at hfirst
    rw [hr] at hsecond
    show ReadsAt (levelOver _ op.level) op.level _ _ _
    rw [text_binary, hl, hr, hop]
    exact ReadsAt.comparison hop s (opens_textIn s .range right) hfirst hsecond
  · have h : op.level.isChain = true := h
    rw [hop] at h
    exact nomatch h

theorem IsRead.binary (op : BinaryOperator) {left right : Surface} (hleft : IsRead s left)
    (hright : IsRead s right) : IsRead s (binary op left right) := by
  cases op with
  | equal | notEqual | less | greater | lessEqual | greaterEqual =>
    exact .binary_of_comparison rfl hleft hright
  | or | and | add | subtract | multiply | divide | modulo =>
    exact .binary_of_isChain rfl hleft hright

theorem IsRead.range {first last : Surface} (hfirst : IsRead s first) (hlast : IsRead s last) :
    IsRead s (range first last) := by
  refine .of_level (fun fuel room hroom => ?_) (fun h => nomatch h)
  obtain ⟨hf, hl⟩ := Nat.max_le.mp hroom
  exact ReadsAt.range s (opens_textIn s .sum last) (hfirst.at_level fuel room .sum hf)
    (hlast.at_level fuel room .sum hl)

theorem IsRead.unary (op : UnaryOperator) (h : IsRead s e) : IsRead s (unary op e) := by
  refine .of_operand rfl fun fuel room hroom => ?_
  obtain ⟨room, rfl⟩ : ∃ n, room = n + 1 := ⟨room - 1, by simp only [depth] at hroom; omega⟩
  rw [value_unary]
  exact ReadsAt.unary op s (opens_textIn s .operand e)
    (h.at_level fuel room .operand (Nat.le_of_succ_le_succ hroom))

theorem text_random (first last : Surface) :
    (random first last).text s = "random".toList ++ (s.gap ++ ("(".toList ++ (s.inner ++
      ((range first last).text s ++ (s.inner ++ ")".toList))))) := by
  show _ = "random".toList ++ (s.gap ++ ("(".toList ++ (s.inner ++
    ((s.enclose _ _ ++ (s.gap ++ ("..".toList ++ (s.gap ++ s.enclose _ _)))) ++
      (s.inner ++ ")".toList)))))
  simp only [List.append_assoc]
  rfl

theorem IsRead.random {first last : Surface} (hfirst : IsRead s first) (hlast : IsRead s last) :
    IsRead s (random first last) := by
  refine .of_operand rfl fun fuel room hroom blanks rest hend hlen => ?_
  obtain ⟨hf, hl⟩ := Nat.max_le.mp hroom
  rw [text_random] at hlen ⊢
  simp only [List.append_assoc] at hlen ⊢
  refine .operandWithin_primary (plain_of_isNameChar (by rfl) _)
    (.primary_random s (opens_text s (Surface.range first last)) ?_ hend)
  have hshort : ((Surface.range first last).text s ++
      (s.inner ++ (")".toList ++ (blanks ++ rest)))).length < fuel := by
    have hword : 0 < "random".toList.length := by decide
    simp only [List.length_append] at hlen ⊢
    omega
  exact Reads.wholeRange s (opens_textIn s .sum last) (hfirst.at_level fuel room .sum hf)
    (hlast.at_level fuel room .sum hl) (ending_closing s (.inl rfl)) hshort

theorem text_pickOne (options : List Surface) :
    (pickOne options).text s = "pick_one".toList ++ (s.gap ++ ("[".toList ++ (s.inner ++
      (listText s [] options ++ "]".toList)))) := rfl

theorem IsRead.pickOne {options : List Surface} (h : ∀ e ∈ options, IsRead s e) :
    IsRead s (pickOne options) := by
  refine .of_operand rfl fun fuel room hroom blanks rest hend hlen => ?_
  rw [text_pickOne] at hlen ⊢
  rw [value_pickOne]
  simp only [List.append_assoc] at hlen ⊢
  have hoptions : ∀ e ∈ options, ReadsAt (expressionOver (operandWithin fuel room)) .disjunction
      fuel (e.text s) e.value := fun e he =>
    (h e he).at_level fuel room .disjunction (Nat.le_trans (le_depths he) hroom)
  have hshort : (listText s [] options ++ (']' :: (blanks ++ rest))).length < fuel := by
    have hword : 0 < "pick_one".toList.length := by decide
    have hbracket : "]".toList.length = 1 := rfl
    simp only [List.length_append, List.length_cons] at hlen ⊢
    omega
  exact .operandWithin_primary (plain_of_isNameChar (by rfl) _)
    (.primary_pickOne s (fun e _ => opens_text s e) hoptions
      (refuses_expression_bracket fuel room) hend hshort)

mutual

/-- Every tree is read back. -/
theorem isRead : (e : Surface) → IsRead s e
  | .number n => .of_operand rfl fun _ _ _ _ _ hend _ =>
    .operandWithin_primary (n.plain.append _) (.primary_number n hend)
  | .string v => .of_operand rfl fun _ _ _ _ _ hend _ =>
    .operandWithin_primary ⟨'"', _, rfl, by decide⟩ (.primary_string v hend)
  | .boolean b => .of_operand rfl fun _ _ _ _ _ hend _ =>
    .operandWithin_primary (by cases b <;> exact plain_of_isNameChar (by rfl) _)
      (.primary_boolean b hend)
  | .var x => .of_operand rfl fun _ _ _ _ _ hend _ =>
    .operandWithin_primary (x.plain.append _) (.primary_var x hend)
  | .binary op left right => .binary op (isRead left) (isRead right)
  | .unary op operand => .unary op (isRead operand)
  | .range first last => .range (isRead first) (isRead last)
  | .random first last => .random (isRead first) (isRead last)
  | .pickOne options => .pickOne (areRead options)

theorem areRead : (options : List Surface) → ∀ e ∈ options, IsRead s e
  | [], _, h => nomatch h
  | first :: rest, e, h => by
    rcases List.mem_cons.mp h with h | h
    · exact h ▸ isRead first
    · exact areRead rest e h

end

end Surface

theorem Surface.reads_text (s : Spacing) (e : Surface) {room : Nat} (h : e.depth ≤ room) :
    Rule.Reads (Rule.expressionOver (Rule.operandWithin ((e.text s).length + 1) room)) (e.text s)
      e.value [] := by
  have hend : Ending .disjunction [] [] :=
    ⟨by simp, settled_nil, parted_nil, fun _ h => nomatch h⟩
  have hread := (isRead (s := s) e).at_level ((e.text s).length + 1) room .disjunction h [] [] hend
  rw [List.append_nil, List.append_nil] at hread
  exact hread (Nat.lt_succ_self _)

/-- An expression in whose text parentheses and operators in front of operands nest at most as
deep as there is room is read back, to the end of the text, with every minus before a number
folded into the number. -/
theorem Surface.expression_text (s : Spacing) (e : Surface) (h : e.depth ≤ maxNesting) :
    ∃ place, Rule.expression maxNesting (.ofText (String.ofList (e.text s))) =
      .ok e.tree.foldNegation (.withRest place []) := by
  obtain ⟨place, hread⟩ := Surface.reads_text s e h ⟨⟨1, 1⟩, 0⟩
  refine ⟨place, ?_⟩
  rw [Cursor.ofText_ofList]
  exact hread

/-- The digits of a number that has no point. -/
def Numeral.ofDigit (c : Char) (h : c.isDigit = true) : Numeral :=
  ⟨[c], [], by simp, by simpa using h, by simp⟩

/-- A comparison with a folded minus, a range in parentheses, a number with a point and a list. -/
def Surface.drawing : Surface :=
  let one := number (.ofDigit '1' rfl)
  let two := number (.ofDigit '2' rfl)
  let quarter := number ⟨['0'], ['2', '5'], by simp, by simp, by simp⟩
  .binary .and
    (.binary .less (.unary .negate two)
      (.random one (.binary .multiply (.binary .add (.var ⟨"x", by decide +kernel⟩) quarter) two)))
    (.unary .not (.pickOne [.boolean true, .string "say \"no\""]))

/-- It is read back from its text. -/
theorem Surface.expression_text_drawing :
    Surface.drawing.depth ≤ maxNesting ∧
      String.ofList (Surface.drawing.text .tight) =
        "- 2 < random (1 .. (x + 0.25) * 2) && ! pick_one [true, \"say \\\"no\\\"\"]" ∧
      ∃ place, Rule.expression maxNesting (.ofText
          "- 2 < random (1 .. (x + 0.25) * 2) && ! pick_one [true, \"say \\\"no\\\"\"]") =
        .ok (.binary .and
          (.binary .less (.number (-2.0))
            (.random (.range (.number 1.0)
              (.binary .multiply (.binary .add (.var "x") (.number 0.25)) (.number 2.0)))))
          (.unary .not (.pickOne [.boolean true, .string "say \"no\""])))
          (.withRest place []) := by
  have hdepth : Surface.drawing.depth ≤ maxNesting := by decide
  have htext : String.ofList (Surface.drawing.text .tight) =
      "- 2 < random (1 .. (x + 0.25) * 2) && ! pick_one [true, \"say \\\"no\\\"\"]" := by decide
  exact ⟨hdepth, htext, htext ▸ Surface.expression_text .tight .drawing hdepth⟩

end Storybook.Script
