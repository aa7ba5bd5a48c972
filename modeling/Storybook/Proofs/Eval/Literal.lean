/-
# `Storybook.Proofs.Eval.Literal` — what a string literal means

A string literal of a script stands for the text that is shown: its literal runs as they are, with
the displayed values of its placeholders in between.  The parts are those of the normal list that
is rendered as the literal (`IsFilling`).  Evaluation under a rule for literals is the evaluation
of expressions as they are written, where the rule says what each string stands for; every other
expression keeps its value (`evaluateUnder`).

A story has its literals rewritten once, as it is compiled, and only those that have placeholders:

| literal | in the story | value there |
| :-- | :-- | :-- |
| with placeholders | an interpolated string | its parts, one after the other |
| without | the string itself | itself, which is the literal run that it has |

So the literals without placeholders rest on this: that splitting a text loses nothing
(`filled_of_not_hasPlaceholder`).  The rest is by induction on the expression: the rewriting goes
into all of it, and hence no random word is drawn at another place.
-/
import Storybook.Eval.Evaluate
import Storybook.Proofs.Script.Splitting

namespace Storybook

open Script

/-! ## Fillings -/

namespace StringPart

def shown (env : Environment) : StringPart → String
  | text literal => literal
  | placeholder name => (env.read name).display

end StringPart

/-- Whether a text is a literal with its placeholders filled in. -/
def IsFilling (env : Environment) (literal text : String) : Prop :=
  ∃ parts, StringPart.rendered parts = literal ∧ Normal parts ∧
    text = String.join (parts.map (StringPart.shown env))

/-- A literal with its placeholders filled in. -/
def filled (env : Environment) (literal : String) : String :=
  String.join ((splitParts literal).map (StringPart.shown env))

section Fillings

variable (env : Environment)

/-- A literal has one filling. -/
theorem isFilling_iff (literal text : String) :
    IsFilling env literal text ↔ text = filled env literal := by
  constructor
  · rintro ⟨parts, rfl, hnormal, rfl⟩
    rw [filled, splitParts_rendered hnormal]
  · intro htext
    exact ⟨splitParts literal, rendered_splitParts literal, normal_splitParts literal, htext⟩

/-- An interpolated string shows its parts in their order. -/
theorem interpolate_eq_join (parts : List StringPart) :
    interpolate env parts = String.join (parts.map (StringPart.shown env)) := by
  induction parts with
  | nil => rfl
  | cons part rest ih =>
    rw [List.map_cons, String.join_cons, ← ih]
    cases part <;> rfl

/-- Parts without a placeholder show what they are rendered as. -/
theorem interpolate_of_not_hasPlaceholder {parts : List StringPart}
    (h : hasPlaceholder parts = false) : interpolate env parts = StringPart.rendered parts := by
  induction parts with
  | nil => rfl
  | cons part rest ih =>
    cases part with
    | placeholder name => cases h
    | text literal => exact congrArg (literal ++ ·) (ih h)

theorem filled_of_not_hasPlaceholder {literal : String}
    (h : hasPlaceholder (splitParts literal) = false) : filled env literal = literal := by
  rw [filled, ← interpolate_eq_join, interpolate_of_not_hasPlaceholder env h,
    rendered_splitParts]

end Fillings

/-! ## Evaluation under a rule for literals -/

namespace Expression

variable {σ : Type} [WordSource σ]

mutual

/-- The value of an expression as it is written, where a rule gives the values of literals. -/
def evaluateUnder (literal : String → Value) (env : Environment) : Expression → σ → Value × σ
  | number value, source => (.number value, source)
  | string value, source => (literal value, source)
  | boolean value, source => (.bool value, source)
  | var name, source => (env.read name, source)
  | binary op left right, source =>
    let (a, source) := evaluateUnder literal env left source
    let (b, source) := evaluateUnder literal env right source
    (op.apply a b, source)
  | unary op operand, source =>
    let (a, source) := evaluateUnder literal env operand source
    (op.apply a, source)
  | range first last, source =>
    let (a, source) := evaluateUnder literal env first source
    let (b, source) := evaluateUnder literal env last source
    (Value.rangeList a b, source)
  | random members, source =>
    match boundsUnder literal env members source with
    | (some (a, b), source) => drawInteger a b source
    | (none, source) =>
      let (value, source) := evaluateUnder literal env members source
      drawItem value source
  | pickOne [], source => (.null, source)
  | pickOne options, source =>
    let (n, source) := Random.index options.length source
    evaluateNthUnder literal env options n source
  | interpolated parts, source => (.string (interpolate env parts), source)
  | unknown, source => (.null, source)

def evaluateNthUnder (literal : String → Value) (env : Environment) :
    List Expression → Nat → σ → Value × σ
  | [], _, source => (.null, source)
  | option :: _, 0, source => evaluateUnder literal env option source
  | _ :: rest, n + 1, source => evaluateNthUnder literal env rest n source

def boundsUnder (literal : String → Value) (env : Environment) :
    Expression → σ → Option (Int64 × Int64) × σ
  | range first last, source =>
    let (a, source) := evaluateUnder literal env first source
    let (b, source) := evaluateUnder literal env last source
    (Value.rangeBounds? a b, source)
  | _, source => (none, source)

end

/-! ## Expressions that agree -/

/-- Whether an expression has the value, and the bounds, that another one has under a rule. -/
structure Agrees (σ : Type) [WordSource σ] (literal : String → Value) (env : Environment)
    (written e : Expression) : Prop where
  value : ∀ source : σ, evaluate env e source = evaluateUnder literal env written source
  span : ∀ source : σ, bounds env e source = boundsUnder literal env written source

namespace Agrees

variable {literal : String → Value} {env : Environment}

/-- Expressions without literals agree with themselves. -/
theorem of_leaf {e : Expression} (hvalue : ∀ source : σ, evaluate env e source =
    evaluateUnder literal env e source) (hrange : ∀ first last, e ≠ .range first last) :
    Agrees σ literal env e e := by
  refine ⟨hvalue, ?_⟩
  intro source
  cases e with
  | range first last => exact absurd rfl (hrange first last)
  | _ => rfl

theorem string {text : String} {e : Expression}
    (hvalue : ∀ source : σ, evaluate env e source = (literal text, source))
    (hrange : ∀ source : σ, bounds env e source = (none, source)) :
    Agrees σ literal env (.string text) e := by
  refine ⟨?_, hrange⟩
  intro source
  rw [hvalue, evaluateUnder]

variable {written written' e e' : Expression}

theorem binary (op : BinaryOperator) (h : Agrees σ literal env written e)
    (h' : Agrees σ literal env written' e') :
    Agrees σ literal env (.binary op written written') (.binary op e e') := by
  refine ⟨?_, fun _ => rfl⟩
  intro source
  show (op.apply (evaluate env e source).1 (evaluate env e' (evaluate env e source).2).1, _) = _
  rw [h.value, h'.value]
  rfl

theorem unary (op : UnaryOperator) (h : Agrees σ literal env written e) :
    Agrees σ literal env (.unary op written) (.unary op e) := by
  refine ⟨?_, fun _ => rfl⟩
  intro source
  show (op.apply (evaluate env e source).1, _) = _
  rw [h.value]
  rfl

theorem range (h : Agrees σ literal env written e) (h' : Agrees σ literal env written' e') :
    Agrees σ literal env (.range written written') (.range e e') := by
  constructor
  · intro source
    show (Value.rangeList (evaluate env e source).1
      (evaluate env e' (evaluate env e source).2).1, _) = _
    rw [h.value, h'.value]
    rfl
  · intro source
    show (Value.rangeBounds? (evaluate env e source).1
      (evaluate env e' (evaluate env e source).2).1, _) = _
    rw [h.value, h'.value]
    rfl

/-- A range that has no bounds is read again as members; so both have to agree. -/
theorem random (h : Agrees σ literal env written e) :
    Agrees σ literal env (.random written) (.random e) := by
  refine ⟨?_, fun _ => rfl⟩
  intro source
  rw [evaluate, evaluateUnder, h.span]
  cases boundsUnder literal env written source with
  | mk found source =>
    cases found with
    | some pair => rfl
    | none =>
      dsimp only
      rw [h.value]

theorem nth {options options' : List Expression}
    (h : List.Forall₂ (Agrees σ literal env) options options') (n : Nat) (source : σ) :
    evaluateNth env options' n source = evaluateNthUnder literal env options n source := by
  induction h generalizing n with
  | nil => rw [evaluateNth, evaluateNthUnder]
  | cons hhead _ ih =>
    cases n with
    | zero => rw [evaluateNth, evaluateNthUnder, hhead.value]
    | succ n => rw [evaluateNth, evaluateNthUnder, ih]

/-- The index is drawn first, and from as many options. -/
theorem pickOne {options options' : List Expression}
    (h : List.Forall₂ (Agrees σ literal env) options options') :
    Agrees σ literal env (.pickOne options) (.pickOne options') := by
  refine ⟨?_, fun _ => rfl⟩
  intro source
  cases h with
  | nil => rfl
  | cons hhead hrest =>
    have hall := List.Forall₂.cons hhead hrest
    rw [evaluate, evaluateUnder, hall.length_eq]
    · cases Random.index (_ :: _).length source with
      | mk n source => exact nth hall n source
    all_goals exact List.cons_ne_nil _ _

end Agrees

mutual

theorem agrees_self (env : Environment) : ∀ e : Expression, Agrees σ .string env e e
  | .binary op left right => .binary op (agrees_self env left) (agrees_self env right)
  | .unary op operand => .unary op (agrees_self env operand)
  | .range first last => .range (agrees_self env first) (agrees_self env last)
  | .random members => .random (agrees_self env members)
  | .pickOne options => .pickOne (all_agree_self env options)
  | .number _ | .string _ | .boolean _ | .var _ | .interpolated _ | .unknown =>
    .of_leaf (fun _ => rfl) (fun _ _ h => nomatch h)

theorem all_agree_self (env : Environment) : ∀ options : List Expression,
    List.Forall₂ (Agrees σ .string env) options options
  | [] => .nil
  | option :: rest => .cons (agrees_self env option) (all_agree_self env rest)

end

/-- Where a literal stands for itself, this is evaluation. -/
theorem evaluateUnder_string (env : Environment) (e : Expression) (source : σ) :
    evaluateUnder .string env e source = evaluate env e source :=
  ((agrees_self env e).value source).symm

end Expression

/-! ## Rewritten literals -/

section Rewritten

open Expression

variable {σ : Type} [WordSource σ] (env : Environment)

/-- A displayed text is its literal filled in. -/
theorem evaluate_interpolated (literal : String) (source : σ) :
    evaluate env (Script.interpolated literal) source = (.string (filled env literal), source) := by
  show (Value.string (interpolate env (splitParts literal)), source) = _
  rw [interpolate_eq_join, filled]

/-- So is a string of an expression, in both of its forms. -/
theorem evaluate_stringExpression (literal : String) (source : σ) :
    evaluate env (stringExpression literal) source = (.string (filled env literal), source) := by
  cases hplaceholder : hasPlaceholder (splitParts literal) with
  | true =>
    have hform : stringExpression literal = Script.interpolated literal := if_pos hplaceholder
    rw [hform, evaluate_interpolated]
  | false =>
    have hform : stringExpression literal = .string literal :=
      if_neg fun h => Bool.false_ne_true (hplaceholder.symm.trans h)
    rw [hform, filled_of_not_hasPlaceholder env hplaceholder]
    rfl

theorem bounds_stringExpression (literal : String) (source : σ) :
    bounds env (stringExpression literal) source = (none, source) := by
  unfold stringExpression
  dsimp only
  split <;> rfl

mutual

/-- The induction is on the expression, with one congruence for each form. -/
theorem agrees_withPlaceholders : ∀ e : Expression,
    Agrees σ (fun literal => .string (filled env literal)) env e (withPlaceholders e)
  | .string text => .string (evaluate_stringExpression env text) (bounds_stringExpression env text)
  | .binary op left right =>
    .binary op (agrees_withPlaceholders left) (agrees_withPlaceholders right)
  | .unary op operand => .unary op (agrees_withPlaceholders operand)
  | .range first last => .range (agrees_withPlaceholders first) (agrees_withPlaceholders last)
  | .random members => .random (agrees_withPlaceholders members)
  | .pickOne options => .pickOne (all_agree_withPlaceholders options)
  | .number _ | .boolean _ | .var _ | .interpolated _ | .unknown =>
    .of_leaf (fun _ => rfl) (fun _ _ h => nomatch h)

theorem all_agree_withPlaceholders : ∀ options : List Expression,
    List.Forall₂ (Agrees σ (fun literal => .string (filled env literal)) env) options
      (allWithPlaceholders options)
  | [] => .nil
  | option :: rest => .cons (agrees_withPlaceholders option) (all_agree_withPlaceholders rest)

end

/-- A rewritten expression has the value, and leaves the words, that the expression as it is
written has and leaves where a literal means its one filling; and it does not matter whether a
literal is rewritten as a displayed text or as a string of an expression. -/
theorem evaluate_withPlaceholders :
    (∀ literal text, IsFilling env literal text ↔ text = filled env literal) ∧
      (∀ (e : Expression) (source : σ), evaluate env (withPlaceholders e) source =
        evaluateUnder (fun literal => .string (filled env literal)) env e source) ∧
      ∀ (literal : String) (source : σ), evaluate env (stringExpression literal) source =
        evaluate env (Script.interpolated literal) source := by
  refine ⟨isFilling_iff env, ?_, ?_⟩
  · intro e source
    exact (agrees_withPlaceholders env e).value source
  · intro literal source
    rw [evaluate_stringExpression, evaluate_interpolated]

end Rewritten

end Storybook
