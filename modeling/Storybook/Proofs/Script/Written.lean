/-
# `Storybook.Proofs.Script.Written` — the expressions that scripts can write

The rules of expressions make fewer expressions than there are.  `Written num room e` says
which ones they make with so much room for parentheses and operators in front of operands: its
numbers are some of the given ones, its variables are names that are not reserved, `random` has
a range, no minus stands before a number, and no string is interpolated yet.
-/
import Storybook.Proofs.Script.Yield

namespace Storybook.Script

/-- The expressions that scripts can write with numbers of a kind; a minus before a number is
part of the number. -/
inductive Written (num : Float → Prop) : Nat → Expression → Prop
  | number {room : Nat} {value : Float} : num value → Written num room (.number value)
  | string {room : Nat} (value : String) : Written num room (.string value)
  | boolean {room : Nat} (value : Bool) : Written num room (.boolean value)
  | var {room : Nat} {name : String} : isVariableName name = true → Written num room (.var name)
  | binary {room : Nat} (op : BinaryOperator) {left right : Expression} :
    Written num room left → Written num room right → Written num room (.binary op left right)
  | unary {room : Nat} {op : UnaryOperator} {operand : Expression} :
    (op = .negate → ∀ value, operand ≠ .number value) → Written num room operand →
      Written num (room + 1) (.unary op operand)
  | range {room : Nat} {first last : Expression} :
    Written num room first → Written num room last → Written num room (.range first last)
  | random {room : Nat} {first last : Expression} :
    Written num room first → Written num room last →
      Written num room (.random (.range first last))
  | pickOne {room : Nat} {options : List Expression} :
    (∀ e ∈ options, Written num room e) → Written num room (.pickOne options)
  /-- In parentheses. -/
  | enclosed {room : Nat} {e : Expression} : Written num room e → Written num (room + 1) e

variable {num : Float → Prop} {room : Nat}

theorem Written.applyPrefix (hneg : ∀ x, num x → num (-x)) (op : UnaryOperator) {e : Expression}
    (h : Written num room e) : Written num (room + 1) (Rule.applyPrefix op e) := by
  unfold Rule.applyPrefix
  split
  · next value =>
    -- the number may stand in parentheses
    have hvalue : num value := by
      generalize he : Expression.number value = e at h
      induction h with
      | number hx => cases he; exact hx
      | enclosed _ ih => exact ih he
      | _ => exact nomatch he
    exact .number (hneg value hvalue)
  · next hnumber => exact .unary (fun hop value he => hnumber value hop he) h

theorem Written.chain {links : List (BinaryOperator × Expression)} {first : Expression}
    (hfirst : Written num room first) (hlinks : ∀ link ∈ links, Written num room link.2) :
    Written num room (links.foldl (fun left (op, right) => .binary op left right) first) := by
  induction links generalizing first with
  | nil => exact hfirst
  | cons link links ih =>
    exact ih (.binary link.1 hfirst (hlinks link (List.mem_cons_self ..)))
      fun l hl => hlinks l (List.mem_cons_of_mem _ hl)

namespace Rule

variable {source : String} {operand inside deeper : Rule Expression}

/-! ## Levels -/

theorem Yields.sign (op : BinaryOperator) : Yields source (sign op) fun _ => True :=
  (Yields.text _).bind fun _ _ => .pure trivial

theorem Yields.leftChain {operator : Rule BinaryOperator}
    (hop : Yields source operator fun _ => True) (h : Yields source operand (Written num room)) :
    Yields source (leftChain operator operand) (Written num room) := by
  refine h.bind fun _ hfirst => ?_
  refine (Yields.many (Q := fun link => Written num room link.2) ?_).bind fun _ hlinks =>
    .pure (hfirst.chain hlinks)
  refine hop.bind fun _ _ => ?_
  exact h.cut.bind fun _ hright => .pure hright

theorem Yields.productOperator : Yields source productOperator fun _ => True := by
  refine Yields.spaced (.orElse (.sign _) (.orElse ?_ (.sign _)))
  refine (Yields.sign _).bind fun _ _ => ?_
  exact (Yields.notAhead (.text _)).bind fun _ _ => .pure trivial

theorem Yields.sumOperator : Yields source sumOperator fun _ => True :=
  Yields.spaced (.orElse (.sign _) (.sign _))

theorem Yields.comparisonOperator : Yields source comparisonOperator fun _ => True :=
  Yields.spaced <| .orElse (.sign _) <| .orElse (.sign _) <| .orElse (.sign _) <|
    .orElse (.sign _) <| .orElse (.sign _) (.sign _)

theorem Yields.sumOver (h : Yields source operand (Written num room)) :
    Yields source (sumOver operand) (Written num room) :=
  .leftChain .sumOperator (.leftChain .productOperator h)

theorem Yields.rangeOver (h : Yields source operand (Written num room)) :
    Yields source (rangeOver operand) (Written num room) := by
  refine h.sumOver.bind fun _ hfirst => ?_
  refine (Yields.optional (Q := Written num room) ?_).bind fun last hlast => .pure ?_
  · exact (Yields.symbol _).bind fun _ _ => h.sumOver.cut
  · cases last with
    | none => exact hfirst
    | some last => exact .range hfirst (hlast last rfl)

theorem Yields.comparisonOver (h : Yields source operand (Written num room)) :
    Yields source (comparisonOver operand) (Written num room) := by
  refine h.rangeOver.bind fun _ hleft => ?_
  refine (Yields.optional (Q := fun link => Written num room link.2) ?_).bind
    fun right hright => .pure ?_
  · refine Yields.comparisonOperator.bind fun _ _ => ?_
    exact h.rangeOver.cut.bind fun _ hright => .pure hright
  · cases right with
    | none => exact hleft
    | some right => exact .binary right.1 hleft (hright right rfl)

theorem Yields.expressionOver (h : Yields source operand (Written num room)) :
    Yields source (expressionOver operand) (Written num room) := by
  refine .leftChain ?_ (.leftChain ?_ h.comparisonOver)
  · exact (Yields.symbol _).bind fun _ _ => .pure trivial
  · exact (Yields.symbol _).bind fun _ _ => .pure trivial

/-! ## Operands -/

theorem Yields.wholeRange (h : Yields source operand (Written num room)) :
    Yields source (wholeRange operand) fun members => Written num room (.random members) := by
  refine h.sumOver.bind fun _ hfirst => ?_
  refine (Yields.symbol _).inContext.bind fun _ _ => ?_
  exact h.sumOver.cut.bind fun _ hlast => .pure (.random hfirst hlast)

theorem Yields.randomMember (h : Yields source operand (Written num room)) :
    Yields source (randomMember operand) (Written num room) := by
  refine (Yields.keyword _).bind fun _ _ => ?_
  refine Yields.bind (Q := fun members => Written num room (.random members))
    (.cut (.spaced (.orElse ?_ h.wholeRange))) fun _ hmembers => .pure hmembers
  refine (Yields.symbol _).bind fun _ _ => ?_
  refine h.wholeRange.bind fun _ hmembers => ?_
  exact (Yields.symbol _).bind fun _ _ => .pure hmembers

theorem Yields.pickOne (h : Yields source operand (Written num room)) :
    Yields source (pickOne operand) (Written num room) := by
  refine (Yields.keyword _).bind fun _ _ => Yields.cut ?_
  refine (Yields.symbol _).bind fun _ _ => ?_
  refine (Yields.optional (.separated (.symbol _) h.expressionOver)).bind
    fun options hoptions => ?_
  refine (Yields.symbol _).bind fun _ _ => .pure (.pickOne ?_)
  cases options with
  | none => exact fun _ he => nomatch he
  | some options => exact (hoptions options rfl).2

theorem Yields.primary (hnum : Yields source number num)
    (hinside : Yields source inside (Written num room))
    (hdeeper : Yields source deeper (Written num room)) :
    Yields source (primary inside deeper) (Written num room) := by
  refine Yields.inContext (.spaced ?_)
  refine .orElse (hnum.bind fun _ hx => .pure (.number hx)) ?_
  refine .orElse (Yields.stringLiteral.bind fun s _ => .pure (.string s)) ?_
  refine .orElse (Yields.boolean.bind fun b _ => .pure (.boolean b)) ?_
  refine .orElse hinside.randomMember ?_
  refine .orElse hinside.pickOne ?_
  refine .orElse ?_ (Yields.variableName.bind fun _ hname => .pure (.var hname))
  -- in parentheses
  refine (Yields.text _).bind fun _ _ => ?_
  refine hdeeper.cut.bind fun _ he => ?_
  exact (Yields.symbol _).cut.bind fun _ _ => .pure he

theorem Yields.prefixOperator : Yields source prefixOperator fun _ => True := by
  refine Yields.spaced (.orElse ?_ ?_)
  · exact (Yields.text _).bind fun _ _ => .pure trivial
  · refine (Yields.text _).bind fun _ _ => ?_
    exact (Yields.notAhead (.text _)).bind fun _ _ => .pure trivial

/-- The induction is on the fuel; an operand inside another one has less room where it stands
behind an operator or in parentheses. -/
theorem Yields.operandWithin (hneg : ∀ x, num x → num (-x)) (hnum : Yields source number num)
    (fuel room : Nat) : Yields source (operandWithin fuel room) (Written num room) := by
  induction fuel generalizing room with
  | zero => exact .refuse trivial
  | succ fuel ih =>
    refine Yields.prefixOperator.optional.bind fun op _ => ?_
    cases op with
    | none =>
      refine .primary hnum (ih room) (.nested (.inl rfl) fun r hr => ?_)
      subst hr
      exact (ih r).expressionOver.mono fun _ => .enclosed
    | some op =>
      refine Yields.bind (Q := fun e => Written num room (applyPrefix op e))
        (Yields.cut (.nested (.inl rfl) fun r hr => ?_)) fun _ he => .pure he
      subst hr
      exact (ih r).mono fun _ he => he.applyPrefix hneg op

/-- The rule of expressions makes written expressions. -/
theorem Yields.expression (hneg : ∀ x, num x → num (-x)) (hnum : Yields source number num)
    (room : Nat) : Yields source (expression room) (Written num room) :=
  fun c hc => Yields.expressionOver (Yields.operandWithin hneg hnum _ room) c hc

end Rule

end Storybook.Script
