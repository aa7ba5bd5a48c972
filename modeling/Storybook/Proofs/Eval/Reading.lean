/-
# `Storybook.Proofs.Eval.Reading` — how often an expression is read

An expression is read from left to right, and each reading of a part may draw random words.
`Evaluates` says what the value of an expression is and which words are left, one rule for
each kind of expression:

| expression | its parts | words of its own |
| :-- | :-- | :-- |
| binary, range | both, the left one first | none |
| unary | its operand | none |
| random over a range | both bounds | those of an integer between them |
| random over anything else | its members | those of an index, if they are a list with items |
| pick one | the chosen option alone | those of an index, drawn first |

What a random choice does with a range whose bounds are no numbers is left open there, as a
parameter: it gives nothing (`RangeReading.once`), or it reads the range a second time, from
the words that the first reading has left, and chooses from the list (`RangeReading.again`).

The second way is what `Expression.evaluate` does, on every expression.  It is also the first
way exactly as long as no second reading finds anything or draws anything
(`evaluate_eq_iff_evaluates`).
-/
import Storybook.Eval.Evaluate
import Storybook.Proofs.Random.Draw

namespace Storybook

/-- What a random choice does with a range whose bounds are no numbers. -/
inductive RangeReading where
  /-- There is nothing to choose. -/
  | once
  /-- The range is read once more, as a list. -/
  | again
deriving DecidableEq, Repr

namespace Expression

variable {σ : Type} [WordSource σ]

/-! ## The rules -/

/-- A random member of a value: a list with items has one, and no other value. -/
inductive DrawsMember : Value → σ → Value → σ → Prop
  | member {items : List Value} {n : Nat} {value : Value} {s t : σ} :
      Random.index items.length s = (n, t) → items[n]? = some value →
      DrawsMember (.list items) s value t
  | nothing {value : Value} {s : σ} : (∀ items, value = .list items → items = []) →
      DrawsMember value s .null s

/-- In an environment and from a source of words, an expression has a value and leaves a
source. -/
inductive Evaluates (reading : RangeReading) (env : Environment) :
    Expression → σ → Value → σ → Prop
  | number (x : Float) (s : σ) : Evaluates reading env (.number x) s (.number x) s
  | string (text : String) (s : σ) : Evaluates reading env (.string text) s (.string text) s
  | boolean (b : Bool) (s : σ) : Evaluates reading env (.boolean b) s (.bool b) s
  | var (name : String) (s : σ) : Evaluates reading env (.var name) s (env.read name) s
  | interpolated (parts : List StringPart) (s : σ) :
      Evaluates reading env (.interpolated parts) s (.string (interpolate env parts)) s
  | unknown (s : σ) : Evaluates reading env .unknown s .null s
  | binary {op : BinaryOperator} {left right : Expression} {a b : Value} {s s₁ s₂ : σ} :
      Evaluates reading env left s a s₁ → Evaluates reading env right s₁ b s₂ →
      Evaluates reading env (.binary op left right) s (op.apply a b) s₂
  | unary {op : UnaryOperator} {operand : Expression} {a : Value} {s s₁ : σ} :
      Evaluates reading env operand s a s₁ →
      Evaluates reading env (.unary op operand) s (op.apply a) s₁
  | range {first last : Expression} {a b : Value} {s s₁ s₂ : σ} :
      Evaluates reading env first s a s₁ → Evaluates reading env last s₁ b s₂ →
      Evaluates reading env (.range first last) s (Value.rangeList a b) s₂
  | pickNone (s : σ) : Evaluates reading env (.pickOne []) s .null s
  | pickOne {options : List Expression} {option : Expression} {n : Nat} {value : Value}
      {s s₁ s₂ : σ} :
      Random.index options.length s = (n, s₁) → options[n]? = some option →
      Evaluates reading env option s₁ value s₂ →
      Evaluates reading env (.pickOne options) s value s₂
  | randomMember {members : Expression} {value result : Value} {s s₁ s₂ : σ} :
      (∀ first last, members ≠ .range first last) →
      Evaluates reading env members s value s₁ → DrawsMember value s₁ result s₂ →
      Evaluates reading env (.random members) s result s₂
  | randomInteger {first last : Expression} {a b : Value} {low high n : Int64}
      {s s₁ s₂ s₃ : σ} :
      Evaluates reading env first s a s₁ → Evaluates reading env last s₁ b s₂ →
      Value.rangeBounds? a b = some (low, high) →
      Random.between (min low high) (max low high) s₂ = (n, s₃) →
      Evaluates reading env (.random (.range first last)) s (.number (Float.ofInt n.toInt)) s₃
  | randomNothing {first last : Expression} {a b : Value} {s s₁ s₂ : σ} :
      reading = .once →
      Evaluates reading env first s a s₁ → Evaluates reading env last s₁ b s₂ →
      Value.rangeBounds? a b = none →
      Evaluates reading env (.random (.range first last)) s .null s₂
  | randomAgain {first last : Expression} {a b value result : Value} {s s₁ s₂ s₃ s₄ : σ} :
      reading = .again →
      Evaluates reading env first s a s₁ → Evaluates reading env last s₁ b s₂ →
      Value.rangeBounds? a b = none →
      Evaluates reading env (.range first last) s₂ value s₃ → DrawsMember value s₃ result s₄ →
      Evaluates reading env (.random (.range first last)) s result s₄

/-! ## The rules give one outcome -/

theorem DrawsMember.unique {value result result' : Value} {s t t' : σ}
    (h : DrawsMember value s result t) (h' : DrawsMember value s result' t') :
    result = result' ∧ t = t' := by
  cases h with
  | member hn hget =>
      cases h' with
      | member hn' hget' =>
          rw [hn] at hn'
          obtain ⟨rfl, rfl⟩ := Prod.mk.inj hn'
          rw [hget] at hget'
          exact ⟨Option.some.inj hget', rfl⟩
      | nothing hempty =>
          rw [hempty _ rfl] at hget
          exact absurd hget (by simp)
  | nothing hempty =>
      cases h' with
      | member _ hget =>
          rw [hempty _ rfl] at hget
          exact absurd hget (by simp)
      | nothing => exact ⟨rfl, rfl⟩

/-- A random choice from a range reads the two bounds, and then one of three things happens. -/
theorem Evaluates.random_range {reading : RangeReading} {env : Environment}
    {first last : Expression} {result : Value} {s t : σ}
    (h : Evaluates reading env (.random (.range first last)) s result t) :
    ∃ a s₁ b s₂, Evaluates reading env first s a s₁ ∧ Evaluates reading env last s₁ b s₂ ∧
      ((∃ low high n, Value.rangeBounds? a b = some (low, high) ∧
          Random.between (min low high) (max low high) s₂ = (n, t) ∧
          result = .number (Float.ofInt n.toInt)) ∨
        (Value.rangeBounds? a b = none ∧ reading = .once ∧ result = .null ∧ t = s₂) ∨
        (Value.rangeBounds? a b = none ∧ reading = .again ∧ ∃ value s₃,
          Evaluates reading env (.range first last) s₂ value s₃ ∧
          DrawsMember value s₃ result t)) := by
  cases h with
  | randomMember hrange => exact absurd rfl (hrange _ _)
  | randomInteger ha hb hbounds hn =>
      exact ⟨_, _, _, _, ha, hb, .inl ⟨_, _, _, hbounds, hn, rfl⟩⟩
  | randomNothing honce ha hb hnone =>
      exact ⟨_, _, _, _, ha, hb, .inr (.inl ⟨hnone, honce, rfl, rfl⟩)⟩
  | randomAgain hagain ha hb hnone hvalue hdraw =>
      exact ⟨_, _, _, _, ha, hb, .inr (.inr ⟨hnone, hagain, _, _, hvalue, hdraw⟩)⟩

theorem Evaluates.unique {reading : RangeReading} {env : Environment} {e : Expression}
    {value value' : Value} {s t t' : σ} (h : Evaluates reading env e s value t)
    (h' : Evaluates reading env e s value' t') : value = value' ∧ t = t' := by
  induction h generalizing value' t' with
  | number | string | boolean | var | interpolated | unknown =>
      cases h'
      exact ⟨rfl, rfl⟩
  | binary _ _ ihl ihr =>
      cases h' with
      | binary hl hr =>
          obtain ⟨rfl, rfl⟩ := ihl hl
          obtain ⟨rfl, rfl⟩ := ihr hr
          exact ⟨rfl, rfl⟩
  | range _ _ ihl ihr =>
      cases h' with
      | range hl hr =>
          obtain ⟨rfl, rfl⟩ := ihl hl
          obtain ⟨rfl, rfl⟩ := ihr hr
          exact ⟨rfl, rfl⟩
  | unary _ ih =>
      cases h' with
      | unary ha =>
          obtain ⟨rfl, rfl⟩ := ih ha
          exact ⟨rfl, rfl⟩
  | pickNone =>
      cases h' with
      | pickNone => exact ⟨rfl, rfl⟩
      | pickOne _ hget => exact absurd hget (by simp)
  | pickOne hn hget _ ih =>
      cases h' with
      | pickNone => exact absurd hget (by simp)
      | pickOne hn' hget' ho =>
          rw [hn] at hn'
          obtain ⟨rfl, rfl⟩ := Prod.mk.inj hn'
          rw [hget] at hget'
          obtain rfl := Option.some.inj hget'
          exact ih ho
  | randomMember hrange _ hdraw ih =>
      cases h' with
      | randomMember _ hm hdraw' =>
          obtain ⟨rfl, rfl⟩ := ih hm
          exact hdraw.unique hdraw'
      | randomInteger | randomNothing | randomAgain => exact absurd rfl (hrange _ _)
  | randomInteger _ _ hbounds hn ihl ihr =>
      obtain ⟨_, _, _, _, hl, hr, hchoice⟩ := h'.random_range
      obtain ⟨rfl, rfl⟩ := ihl hl
      obtain ⟨rfl, rfl⟩ := ihr hr
      rcases hchoice with ⟨_, _, _, hbounds', hn', rfl⟩ | ⟨hnone, -⟩ | ⟨hnone, -⟩
      · rw [hbounds] at hbounds'
        obtain ⟨rfl, rfl⟩ := Prod.mk.inj (Option.some.inj hbounds')
        rw [hn] at hn'
        obtain ⟨rfl, rfl⟩ := Prod.mk.inj hn'
        exact ⟨rfl, rfl⟩
      · exact absurd (hbounds.symm.trans hnone) (by simp)
      · exact absurd (hbounds.symm.trans hnone) (by simp)
  | randomNothing honce _ _ hnone ihl ihr =>
      obtain ⟨_, _, _, _, hl, hr, hchoice⟩ := h'.random_range
      obtain ⟨rfl, rfl⟩ := ihl hl
      obtain ⟨rfl, rfl⟩ := ihr hr
      rcases hchoice with ⟨_, _, _, hbounds, -⟩ | ⟨-, -, rfl, rfl⟩ | ⟨-, hagain, -⟩
      · exact absurd (hbounds.symm.trans hnone) (by simp)
      · exact ⟨rfl, rfl⟩
      · exact absurd (honce.symm.trans hagain) (by simp)
  | randomAgain hagain _ _ hnone _ hdraw ihl ihr ihagain =>
      obtain ⟨_, _, _, _, hl, hr, hchoice⟩ := h'.random_range
      obtain ⟨rfl, rfl⟩ := ihl hl
      obtain ⟨rfl, rfl⟩ := ihr hr
      rcases hchoice with ⟨_, _, _, hbounds, -⟩ | ⟨-, honce, -⟩ | ⟨-, -, _, _, hvalue, hdraw'⟩
      · exact absurd (hbounds.symm.trans hnone) (by simp)
      · exact absurd (honce.symm.trans hagain) (by simp)
      · obtain ⟨rfl, rfl⟩ := ihagain hvalue
        exact hdraw.unique hdraw'

/-! ## What a reading comes to -/

/-- Reading an expression from a source of words comes to reading another one, from a source
of its own. -/
inductive Visits (env : Environment) : Expression → σ → Expression → σ → Prop
  | self (e : Expression) (s : σ) : Visits env e s e s
  | binaryLeft {op : BinaryOperator} {left right f : Expression} {s t : σ} :
      Visits env left s f t → Visits env (.binary op left right) s f t
  | binaryRight {op : BinaryOperator} {left right f : Expression} {a : Value} {s s₁ t : σ} :
      Evaluates .once env left s a s₁ → Visits env right s₁ f t →
      Visits env (.binary op left right) s f t
  | operand {op : UnaryOperator} {operand f : Expression} {s t : σ} :
      Visits env operand s f t → Visits env (.unary op operand) s f t
  | rangeFirst {first last f : Expression} {s t : σ} :
      Visits env first s f t → Visits env (.range first last) s f t
  | rangeLast {first last f : Expression} {a : Value} {s s₁ t : σ} :
      Evaluates .once env first s a s₁ → Visits env last s₁ f t →
      Visits env (.range first last) s f t
  | members {members f : Expression} {s t : σ} :
      Visits env members s f t → Visits env (.random members) s f t
  | option {options : List Expression} {option f : Expression} {n : Nat} {s s₁ t : σ} :
      Random.index options.length s = (n, s₁) → options[n]? = some option →
      Visits env option s₁ f t → Visits env (.pickOne options) s f t

theorem Visits.trans {env : Environment} {e f g : Expression} {s t u : σ}
    (h : Visits env e s f t) (h' : Visits env f t g u) : Visits env e s g u := by
  induction h with
  | self => exact h'
  | binaryLeft _ ih => exact .binaryLeft (ih h')
  | binaryRight hl _ ih => exact .binaryRight hl (ih h')
  | operand _ ih => exact .operand (ih h')
  | rangeFirst _ ih => exact .rangeFirst (ih h')
  | rangeLast hf _ ih => exact .rangeLast hf (ih h')
  | members _ ih => exact .members (ih h')
  | option hn hget _ ih => exact .option hn hget (ih h')

/-- A random choice from a range whose bounds are no numbers reads the range again, and the
second reading finds an item or draws a word. -/
def ReadsAgain (env : Environment) (first last : Expression) (s : σ) : Prop :=
  ∃ a s₁ b s₂, Evaluates .once env first s a s₁ ∧ Evaluates .once env last s₁ b s₂ ∧
    Value.rangeBounds? a b = none ∧ evaluate env (.range first last) s₂ ≠ (.list [], s₂)

/-- Nowhere in the reading of an expression is a range read again. -/
def ReadOnce (env : Environment) (e : Expression) (s : σ) : Prop :=
  ∀ first last t, Visits env e s (.random (.range first last)) t → ¬ReadsAgain env first last t

theorem ReadOnce.visit {env : Environment} {e f : Expression} {s t : σ} (h : ReadOnce env e s)
    (hv : Visits env e s f t) : ReadOnce env f t :=
  fun first last u hu => h first last u (hv.trans hu)

/-! ## Evaluation follows the rules -/

theorem drawsMember_drawItem : ∀ (value : Value) (s : σ),
    DrawsMember value s (drawItem value s).1 (drawItem value s).2
  | .list (item :: items), s => by
      have hlt : (Random.index (items.length + 1) s).1 < (item :: items).length :=
        Random.index_lt (Nat.succ_pos items.length) s
      simp only [drawItem]
      cases hn : Random.index (items.length + 1) s with
      | mk n t =>
          rw [hn] at hlt
          refine .member hn ?_
          simp only [List.getD_eq_getElem?_getD, List.getElem?_eq_getElem hlt, Option.getD_some]
  | .list [], _ => .nothing (by simp)
  | .number _, _ => .nothing (by simp)
  | .string _, _ => .nothing (by simp)
  | .bool _, _ => .nothing (by simp)
  | .null, _ => .nothing (by simp)

theorem evaluateNth_eq (env : Environment) : ∀ (options : List Expression) (n : Nat) (s : σ)
    {option : Expression}, options[n]? = some option →
      evaluateNth env options n s = evaluate env option s
  | option :: _, 0, _, _, h => by
      obtain rfl : option = _ := by simpa using h
      rw [evaluateNth]
  | _ :: rest, n + 1, s, _, h => by
      rw [evaluateNth]
      exact evaluateNth_eq env rest n s (by simpa using h)

theorem drawInteger_eq (a b : Int64) (s : σ) :
    drawInteger a b s =
      (.number (Float.ofInt (Random.between (min a b) (max a b) s).1.toInt),
        (Random.between (min a b) (max a b) s).2) := by
  by_cases hle : a ≤ b
  · have hmin : min a b = a := if_pos hle
    have hmax : max a b = b := if_pos hle
    rw [hmin, hmax, drawInteger, if_pos hle]
  · have hmin : min a b = b := if_neg hle
    have hmax : max a b = a := if_neg hle
    rw [hmin, hmax, drawInteger, if_neg hle]

/-- The condition under which an evaluation keeps to the rules of a reading. -/
def Follows (reading : RangeReading) (env : Environment) (e : Expression) (s : σ) : Prop :=
  reading = .once → ReadOnce env e s

theorem evaluates_random_of_ne_range {reading : RangeReading} {env : Environment}
    {members : Expression} {s : σ} (hrange : ∀ first last, members ≠ .range first last)
    (hm : Evaluates reading env members s (evaluate env members s).1 (evaluate env members s).2) :
    Evaluates reading env (.random members) s (evaluate env (.random members) s).1
      (evaluate env (.random members) s).2 := by
  rw [evaluate_random_of_no_bounds (bounds_of_ne_range env hrange s)]
  exact .randomMember hrange hm (drawsMember_drawItem _ _)

/-- The two readings part where a bound is no number: then the range is looked at as a list. -/
theorem evaluates_random_range {reading : RangeReading} {env : Environment}
    {first last : Expression} {s : σ} (h : Follows reading env (.random (.range first last)) s)
    (ha : Evaluates reading env first s (evaluate env first s).1 (evaluate env first s).2)
    (hb : Evaluates reading env last (evaluate env first s).2
      (evaluate env last (evaluate env first s).2).1 (evaluate env last (evaluate env first s).2).2)
    (hagain : ∀ t : σ, reading = .again → Evaluates reading env (.range first last) t
      (evaluate env (.range first last) t).1 (evaluate env (.range first last) t).2) :
    Evaluates reading env (.random (.range first last)) s
      (evaluate env (.random (.range first last)) s).1
      (evaluate env (.random (.range first last)) s).2 := by
  rw [evaluate, bounds]
  simp only
  cases hbounds : Value.rangeBounds? (evaluate env first s).1
      (evaluate env last (evaluate env first s).2).1 with
  | some pair =>
      simp only [drawInteger_eq]
      exact .randomInteger ha hb hbounds rfl
  | none =>
      simp only
      cases reading with
      | once =>
          have hidle :
              evaluate env (.range first last) (evaluate env last (evaluate env first s).2).2 =
                (.list [], (evaluate env last (evaluate env first s).2).2) :=
            Classical.byContradiction fun hne =>
              h rfl first last s (.self _ _) ⟨_, _, _, _, ha, hb, hbounds, hne⟩
          rw [hidle]
          exact .randomNothing rfl ha hb hbounds
      | again =>
          exact .randomAgain rfl ha hb hbounds (hagain _ rfl) (drawsMember_drawItem _ _)

mutual

theorem evaluates_evaluate (reading : RangeReading) (env : Environment) :
    ∀ (e : Expression) (s : σ), Follows reading env e s →
      Evaluates reading env e s (evaluate env e s).1 (evaluate env e s).2
  | .number x, s, _ => by rw [evaluate]; exact .number x s
  | .string text, s, _ => by rw [evaluate]; exact .string text s
  | .boolean b, s, _ => by rw [evaluate]; exact .boolean b s
  | .var name, s, _ => by rw [evaluate]; exact .var name s
  | .interpolated parts, s, _ => by rw [evaluate]; exact .interpolated parts s
  | .unknown, s, _ => by rw [evaluate]; exact .unknown s
  | .binary op left right, s, h => by
      have hl := evaluates_evaluate reading env left s
        fun hr => (h hr).visit (.binaryLeft (.self _ _))
      have hr := evaluates_evaluate reading env right (evaluate env left s).2 fun hr => by
        subst hr
        exact (h rfl).visit (.binaryRight hl (.self _ _))
      rw [evaluate]
      exact .binary hl hr
  | .unary op operand, s, h => by
      have ha := evaluates_evaluate reading env operand s
        fun hr => (h hr).visit (.operand (.self _ _))
      rw [evaluate]
      exact .unary ha
  | .range first last, s, h => by
      have ha := evaluates_evaluate reading env first s
        fun hr => (h hr).visit (.rangeFirst (.self _ _))
      have hb := evaluates_evaluate reading env last (evaluate env first s).2 fun hr => by
        subst hr
        exact (h rfl).visit (.rangeLast ha (.self _ _))
      rw [evaluate]
      exact .range ha hb
  | .pickOne [], s, _ => by rw [evaluate]; exact .pickNone s
  | .pickOne (option :: options), s, h => by
      have hlt := Random.index_lt (Nat.succ_pos options.length) s
      rw [evaluate]
      · cases hn : Random.index (option :: options).length s with
        | mk n s₁ =>
            rw [List.length_cons] at hn
            rw [hn] at hlt
            have hget := List.getElem?_eq_getElem (l := option :: options) hlt
            simp only [evaluateNth_eq env _ _ _ hget]
            refine .pickOne hn hget (evaluates_option reading env _ _ _ hget fun hr => ?_)
            exact (h hr).visit (.option hn hget (.self _ _))
      · simp
  | .random members, s, h => by
      cases members with
      | range first last =>
          have ha := evaluates_evaluate reading env first s
            fun hr => (h hr).visit (.members (.rangeFirst (.self _ _)))
          have hb := evaluates_evaluate reading env last (evaluate env first s).2 fun hr => by
            subst hr
            exact (h rfl).visit (.members (.rangeLast ha (.self _ _)))
          exact evaluates_random_range h ha hb fun t hagain =>
            evaluates_evaluate reading env (.range first last) t
              fun honce => absurd (hagain.symm.trans honce) (by simp)
      | _ =>
          refine evaluates_random_of_ne_range (by simp) (evaluates_evaluate reading env _ s ?_)
          exact fun hr => (h hr).visit (.members (.self _ _))

theorem evaluates_option (reading : RangeReading) (env : Environment) :
    ∀ (options : List Expression) (n : Nat) (s : σ) {option : Expression},
      options[n]? = some option → Follows reading env option s →
        Evaluates reading env option s (evaluate env option s).1 (evaluate env option s).2
  | option :: _, 0, s, _, hget, h => by
      obtain rfl : option = _ := by simpa using hget
      exact evaluates_evaluate reading env option s h
  | _ :: rest, n + 1, s, _, hget, h =>
      evaluates_option reading env rest n s (by simpa using hget) h

end

theorem evaluate_eq_iff_of_follows {reading : RangeReading} {env : Environment} {e : Expression}
    {s : σ} (h : Follows reading env e s) (value : Value) (t : σ) :
    evaluate env e s = (value, t) ↔ Evaluates reading env e s value t := by
  have hself := evaluates_evaluate reading env e s h
  constructor
  · intro heq
    rw [heq] at hself
    exact hself
  · intro hother
    obtain ⟨hvalue, hsource⟩ := hself.unique hother
    exact Prod.ext hvalue hsource

/-! ## When a range is read again -/

/-- The list of a range holds numbers only. -/
theorem rangeList_eq (a b : Value) :
    ∃ ns : List Int, Value.rangeList a b = .list (ns.map fun n => .number (Float.ofInt n)) := by
  unfold Value.rangeList
  split
  · exact ⟨_, rfl⟩
  · exact ⟨[], rfl⟩

/-- Nothing is drawn from the list of a range only if that list is empty. -/
theorem DrawsMember.rangeList_eq_nil {a b : Value} {s t : σ}
    (h : DrawsMember (Value.rangeList a b) s .null t) :
    Value.rangeList a b = .list [] ∧ s = t := by
  obtain ⟨ns, hlist⟩ := rangeList_eq a b
  rw [hlist] at h ⊢
  cases h with
  | member _ hget =>
      rw [List.getElem?_map] at hget
      obtain ⟨n, _, hn⟩ := Option.map_eq_some_iff.mp hget
      exact absurd hn (by simp)
  | nothing hempty => exact ⟨congrArg Value.list (hempty _ rfl), rfl⟩

theorem not_readsAgain_of_agrees {env : Environment} {first last : Expression} {s : σ}
    (hfirst : ∀ value t, evaluate env first s = (value, t) ↔ Evaluates .once env first s value t)
    (hlast : ∀ a s₁, Evaluates .once env first s a s₁ → ∀ value t,
      evaluate env last s₁ = (value, t) ↔ Evaluates .once env last s₁ value t)
    (hrandom : ∀ value t, evaluate env (.random (.range first last)) s = (value, t) ↔
      Evaluates .once env (.random (.range first last)) s value t) :
    ¬ReadsAgain env first last s := by
  rintro ⟨a, s₁, b, s₂, ha, hb, hnone, hne⟩
  have hfirst' := (hfirst a s₁).mpr ha
  have hlast' := (hlast a s₁ ha b s₂).mpr hb
  have hnull := (hrandom .null s₂).mpr (.randomNothing rfl ha hb hnone)
  -- what the second reading finds is drawn from, so it must have found nothing
  rw [evaluate, bounds, hfirst'] at hnull
  simp only [hlast', hnone] at hnull
  have hdraw := drawsMember_drawItem (evaluate env (.range first last) s₂).1
    (evaluate env (.range first last) s₂).2
  rw [hnull, evaluate] at hdraw
  obtain ⟨hlist, hsource⟩ := hdraw.rangeList_eq_nil
  rw [evaluate] at hne
  exact hne (Prod.ext hlist hsource)

/-- Evaluation is the reading from left to right in which a range that has no numbers for
bounds is read again; and it keeps, in all that a reading comes to, to the one in which
everything is read once, exactly if nothing comes of such second readings. -/
theorem evaluate_eq_iff_evaluates (env : Environment) (e : Expression) (s : σ) :
    (∀ value t, evaluate env e s = (value, t) ↔ Evaluates .again env e s value t) ∧
      ((∀ f u, Visits env e s f u → ∀ value t,
          evaluate env f u = (value, t) ↔ Evaluates .once env f u value t) ↔
        ReadOnce env e s) := by
  refine ⟨evaluate_eq_iff_of_follows (by simp [Follows]), ?_, ?_⟩
  · intro hagrees first last u hu
    refine not_readsAgain_of_agrees ?_ ?_ ?_
    · exact hagrees first u (hu.trans (.members (.rangeFirst (.self _ _))))
    · intro a s₁ ha
      exact hagrees last s₁ (hu.trans (.members (.rangeLast ha (.self _ _))))
    · exact hagrees _ u hu
  · intro honce f u hu
    exact evaluate_eq_iff_of_follows fun _ => honce.visit hu

/-- A random choice from a range whose first bound is a word or a number by chance. -/
def wavering : Expression :=
  .random (.range (.pickOne [.string "x", .number 1.0]) (.number 3.0))

/-- Where the first bound is no number at first and one at the second reading, a number is drawn
although there is nothing to choose from. -/
theorem evaluate_wavering :
    let words : WordScript := ⟨[0, 9223372036854775808, 0]⟩
    evaluate ⟨fun _ => none⟩ wavering words = (.number 1.0, ⟨[]⟩) ∧
      Evaluates .once ⟨fun _ => none⟩ wavering words .null ⟨[9223372036854775808, 0]⟩ := by
  intro words
  refine ⟨rfl, ?_⟩
  have hfirst : Evaluates .once ⟨fun _ => none⟩ (.pickOne [.string "x", .number 1.0]) words
      (.string "x") ⟨[9223372036854775808, 0]⟩ :=
    .pickOne (n := 0) rfl rfl (.string "x" _)
  exact .randomNothing rfl hfirst (.number 3.0 _) rfl

end Expression

end Storybook
