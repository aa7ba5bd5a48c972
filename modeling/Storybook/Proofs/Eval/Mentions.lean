/-
# `Storybook.Proofs.Eval.Mentions` — an expression reads its names and nothing else

The names of an expression are those of the variables and of the placeholders in it, at any depth
(`Expression.mentions`).  Environments that read alike under these names are the same to it: its
value is the same, and so are the words that are left — although the words that are drawn decide
which of the names are read at all (`evaluate_eq_of_agreeOn`).

An environment is whatever finds values of names.  Those of a session are its variables, and layers
over them:

| environment | what it finds |
| :-- | :-- |
| `ofVariables bindings` | the values of a table |
| `env.layered name value` | this value under this name, and else what `env` finds |
| `env.under layers` | the same for several layers, of which the last one is the uppermost |

Layers over variables are the variables with the values of the layers written into them, one after
the other (`under_ofVariables`).
-/
import Storybook.Eval.Evaluate
import Storybook.Proofs.Story.Occurrences

namespace Storybook

/-! ## Environments -/

namespace Environment

/-- Whether two environments read alike under some names. -/
def AgreeOn (env env' : Environment) (names : List String) : Prop :=
  ∀ name ∈ names, env.read name = env'.read name

theorem AgreeOn.subset {env env' : Environment} {names names' : List String}
    (h : env.AgreeOn env' names) (hsub : names' ⊆ names) : env.AgreeOn env' names' :=
  fun name hname => h name (hsub hname)

/-- An environment under layers of one variable each, the lowest layer first. -/
def under (env : Environment) (layers : List (String × Value)) : Environment :=
  layers.foldl (fun env layer => env.layered layer.1 layer.2) env

/-- A layer hides the value under its name, and writing the variable replaces it. -/
theorem layered_ofVariables (bindings : Variables) (name : String) (value : Value) :
    (ofVariables bindings).layered name value = ofVariables (bindings.insert name value) := by
  refine congrArg Environment.mk (funext fun other => ?_)
  rw [Table.find?_insert]
  rfl

theorem under_ofVariables (layers : List (String × Value)) (bindings : Variables) :
    (ofVariables bindings).under layers = ofVariables
      (layers.foldl (fun bindings layer => bindings.insert layer.1 layer.2) bindings) := by
  induction layers generalizing bindings with
  | nil => rfl
  | cons layer rest ih =>
    have hlayer := layered_ofVariables bindings layer.1 layer.2
    calc (ofVariables bindings).under (layer :: rest)
      _ = ((ofVariables bindings).layered layer.1 layer.2).under rest := rfl
      _ = (ofVariables (bindings.insert layer.1 layer.2)).under rest := by rw [hlayer]
      _ = _ := ih _

end Environment

/-- Texts are alike where their placeholders are. -/
theorem interpolate_eq_of_agreeOn {env env' : Environment} {parts : List StringPart}
    (h : env.AgreeOn env' (parts.filterMap StringPart.placeholder?)) :
    interpolate env parts = interpolate env' parts := by
  induction parts with
  | nil => rfl
  | cons part rest ih =>
    cases part with
    | text literal => exact congrArg (literal ++ ·) (ih h)
    | placeholder name =>
      obtain ⟨hname, hrest⟩ := List.forall_mem_cons.mp h
      show (env.read name).display ++ interpolate env rest = _
      rw [hname, ih hrest]
      rfl

namespace Expression

/-! ## Names of an expression -/

/-- The names of the variables and of the placeholders in an expression. -/
def mentions (e : Expression) : List String :=
  e.subtree.flatMap fun inside => inside.name?.toList ++ inside.placeholders

theorem subtree_subset_subtrees {options : List Expression} {option : Expression}
    (h : option ∈ options) : option.subtree ⊆ subtrees options := by
  induction options with
  | nil => exact absurd h List.not_mem_nil
  | cons first rest ih =>
    rcases List.mem_cons.mp h with rfl | h
    · exact List.subset_append_left _ _
    · exact List.Subset.trans (ih h) (List.subset_append_right _ _)

theorem subtree_eq_cons (e : Expression) : e.subtree = e :: subtrees e.children := by
  cases e with
  | binary op left right =>
    exact congrArg (fun rest => _ :: (left.subtree ++ rest)) (List.append_nil right.subtree).symm
  | range first last =>
    exact congrArg (fun rest => _ :: (first.subtree ++ rest)) (List.append_nil last.subtree).symm
  | unary op operand => exact congrArg (List.cons _) (List.append_nil operand.subtree).symm
  | random members => exact congrArg (List.cons _) (List.append_nil members.subtree).symm
  | _ => rfl

theorem subtree_subset_of_mem_children {e child : Expression} (h : child ∈ e.children) :
    child.subtree ⊆ e.subtree := by
  rw [subtree_eq_cons e]
  exact List.Subset.trans (subtree_subset_subtrees h) (List.subset_cons_self _ _)

/-- An expression has the names of its parts. -/
theorem mentions_subset_of_mem_children {e child : Expression} (h : child ∈ e.children) :
    child.mentions ⊆ e.mentions := by
  intro name hname
  obtain ⟨inside, hinside, hname⟩ := List.mem_flatMap.mp hname
  exact List.mem_flatMap.mpr ⟨inside, subtree_subset_of_mem_children h hinside, hname⟩

/-! ## Values under environments that agree -/

section Agreement

variable {σ : Type} [WordSource σ] {env env' : Environment}

/-- Where the environments agree on an expression, they agree on its parts. -/
theorem agreeOn_of_mem_children {e child : Expression} (h : env.AgreeOn env' e.mentions)
    (hchild : child ∈ e.children) : env.AgreeOn env' child.mentions :=
  h.subset (mentions_subset_of_mem_children hchild)

mutual

/-- The induction is on the expression.  All that is drawn goes on from equal sources. -/
theorem evaluate_congr : ∀ (e : Expression), env.AgreeOn env' e.mentions →
    ∀ source : σ, evaluate env e source = evaluate env' e source
  | .var name, h, source => by
    have hname := h name (List.mem_singleton_self name)
    show (env.read name, source) = (env'.read name, source)
    rw [hname]
  | .interpolated parts, h, source => by
    have hparts : env.AgreeOn env' (parts.filterMap StringPart.placeholder?) :=
      h.subset (List.subset_append_left _ _)
    rw [evaluate, evaluate, interpolate_eq_of_agreeOn hparts]
  | .binary op left right, h, source => by
    have hleft := evaluate_congr left (agreeOn_of_mem_children h (List.mem_cons_self ..)) source
    rw [evaluate, evaluate, hleft]
    dsimp only
    rw [evaluate_congr right
      (agreeOn_of_mem_children h (List.mem_cons_of_mem _ (List.mem_singleton_self right)))]
  | .unary op operand, h, source => by
    rw [evaluate, evaluate,
      evaluate_congr operand (agreeOn_of_mem_children h (List.mem_singleton_self operand))]
  | .range first last, h, source => by
    have hfirst := evaluate_congr first (agreeOn_of_mem_children h (List.mem_cons_self ..)) source
    rw [evaluate, evaluate, hfirst]
    dsimp only
    rw [evaluate_congr last
      (agreeOn_of_mem_children h (List.mem_cons_of_mem _ (List.mem_singleton_self last)))]
  | .random members, h, source => by
    have hmembers := agreeOn_of_mem_children h (List.mem_singleton_self members)
    rw [evaluate, evaluate, bounds_congr members hmembers source]
    cases bounds env' members source with
    | mk found source =>
      cases found with
      | some pair => rfl
      | none =>
        dsimp only
        rw [evaluate_congr members hmembers]
  | .pickOne [], _, _ => rfl
  | .pickOne (option :: options), h, source => by
    rw [evaluate, evaluate]
    · cases Random.index (option :: options).length source with
      | mk n source =>
        exact evaluateNth_congr (option :: options)
          (fun inside hinside => agreeOn_of_mem_children h hinside) n source
    all_goals exact List.cons_ne_nil _ _
  | .number _, _, _ | .string _, _, _ | .boolean _, _, _ | .unknown, _, _ => rfl

theorem evaluateNth_congr : ∀ (options : List Expression),
    (∀ option ∈ options, env.AgreeOn env' option.mentions) →
      ∀ (n : Nat) (source : σ), evaluateNth env options n source = evaluateNth env' options n source
  | [], _, _, _ => rfl
  | option :: _, h, 0, source => by
    rw [evaluateNth, evaluateNth, evaluate_congr option (h option (List.mem_cons_self ..))]
  | _ :: rest, h, n + 1, source => by
    have hrest := fun option hoption => h option (List.mem_cons_of_mem _ hoption)
    rw [evaluateNth, evaluateNth, evaluateNth_congr rest hrest]

/-- A range is read for its bounds alone where a number between them is drawn. -/
theorem bounds_congr : ∀ (e : Expression), env.AgreeOn env' e.mentions →
    ∀ source : σ, bounds env e source = bounds env' e source
  | .range first last, h, source => by
    have hfirst := evaluate_congr first (agreeOn_of_mem_children h (List.mem_cons_self ..)) source
    rw [bounds, bounds, hfirst]
    dsimp only
    rw [evaluate_congr last
      (agreeOn_of_mem_children h (List.mem_cons_of_mem _ (List.mem_singleton_self last)))]
  | .number _, _, _ | .string _, _, _ | .boolean _, _, _ | .var _, _, _ | .binary .., _, _
  | .unary .., _, _ | .random _, _, _ | .pickOne _, _, _ | .interpolated _, _, _
  | .unknown, _, _ => rfl

end

end Agreement

/-- An expression has one value, and leaves one source, in all environments that read alike under
its names; and layers over variables are the same to it as the variables with these values. -/
theorem evaluate_eq_of_agreeOn {σ : Type} [WordSource σ] (e : Expression) :
    (∀ env env' : Environment, env.AgreeOn env' e.mentions →
        ∀ source : σ, evaluate env e source = evaluate env' e source) ∧
      ∀ (bindings : Variables) (layers : List (String × Value)) (source : σ),
        evaluate ((Environment.ofVariables bindings).under layers) e source =
          evaluate (.ofVariables
            (layers.foldl (fun bindings layer => bindings.insert layer.1 layer.2) bindings))
            e source := by
  refine ⟨fun env env' h source => evaluate_congr e h source, ?_⟩
  intro bindings layers source
  rw [Environment.under_ofVariables]

/-- A text with the name of a hero, and a throw of a die with a variable for its lowest side. -/
def dieText : Expression :=
  .binary .add (.interpolated [.placeholder "hero", .text " throws "])
    (.random (.range (.var "lowest") (.number 6.0)))

def dieWord : WordScript := ⟨[9223372036854775808]⟩

/-- A variable without a value is zero; a value that is hidden is not read, and neither is one that
is not mentioned. -/
theorem evaluate_dieText :
    let env := Environment.ofVariables
      (((∅ : Variables).insert "hero" (.string "Ann")).insert "gold" (.number 3.0))
    let env' := (Environment.ofVariables ((∅ : Variables).insert "lowest" (.number 0.0))).under
      [("hero", .string "Bob"), ("hero", .string "Ann")]
    env.AgreeOn env' dieText.mentions ∧
      evaluate env dieText dieWord = evaluate env' dieText dieWord := by
  intro env env'
  have hagree : env.AgreeOn env' dieText.mentions :=
    List.forall_mem_cons.mpr ⟨rfl, List.forall_mem_singleton.mpr rfl⟩
  exact ⟨hagree, (evaluate_eq_of_agreeOn dieText).1 env env' hagree dieWord⟩

end Expression

end Storybook
