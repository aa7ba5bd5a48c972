/-
# `Storybook.Proofs.Session.Reload` — a story that is loaded forgets the session before it

Whatever a session has played before, once a story is loaded little of it is left.

| part of the session | after loading |
| :-- | :-- |
| variables that the story declares | only what its first statements write |
| the other variables | as before if they are preserved, gone if not |
| the declared names | those of the story |
| the current page | the first page of the story |
| history, recorded places, everything that moves | nothing |

The first statements may read variables that were preserved, and may draw random words.  So two
sessions are alike after loading if they were alike in these: in the variables that are
preserved and in the source of random words (`load_forgets_past`).

What the first statements do is a function of variables and source alone, the *memory* of a
session (`memory_load`); the law for one variable is read off the same equation
(`find?_bindings_load`).
-/
import Storybook.Proofs.Session.Loading

namespace Storybook

/-! ## The first statements of a story -/

namespace Statement

theorem mem_subtree_self (statement : Statement) : statement ∈ statement.subtree := by
  cases statement <;> simp [subtree]

theorem mem_subtrees {statement : Statement} {l : List Statement} (h : statement ∈ l) :
    statement ∈ subtrees l := by
  induction l with
  | nil => exact absurd h List.not_mem_nil
  | cons first rest ih =>
      rw [subtrees, List.mem_append]
      rcases List.mem_cons.mp h with rfl | hrest
      · exact .inl (mem_subtree_self statement)
      · exact .inr (ih hrest)

end Statement

namespace Story

/-- Whether a statement stands at top level or directly on the first page. -/
def Opens (story : Story) (statement : Statement) : Prop :=
  statement ∈ story.statements ∨
    ∃ page, story.firstPage? = some page ∧ statement ∈ page.statements

theorem mem_allStatements_of_opens {story : Story} {statement : Statement}
    (h : story.Opens statement) : statement ∈ story.allStatements := by
  rw [allStatements, List.mem_append, List.mem_flatMap]
  rcases h with htop | ⟨page, hpage, hstatement⟩
  · exact .inl (Statement.mem_subtrees htop)
  · refine .inr ⟨page, List.mem_of_mem_head? hpage, ?_⟩
    exact List.mem_append_left _ (Statement.mem_subtrees hstatement)

theorem mem_declared_of_opens {story : Story} {statement : Statement} {name : String}
    (h : story.Opens statement) (hname : statement.declared? = some name) :
    name ∈ story.declared :=
  List.mem_filterMap.mpr ⟨statement, mem_allStatements_of_opens h, hname⟩

end Story

namespace Session

variable {σ ν : Type}

theorem opens_of_mem_initializers {story : Story} {statement : Statement}
    (h : statement ∈ initializers story) : story.Opens statement := by
  rcases List.mem_append.mp (List.mem_filter.mp h).1 with htop | hpage
  · exact .inl htop
  · cases hfirst : story.firstPage? with
    | none => simp [hfirst] at hpage
    | some page => exact .inr ⟨page, hfirst, by simpa [hfirst] using hpage⟩

/-! ## The memory of a session -/

/-- What an `init` or a `set` reads and writes. -/
def memory (s : Session σ ν) : Variables × σ := (s.bindings, s.source)

section Memory

variable [WordSource σ]

/-- What an `init` or a `set` makes of a memory. -/
def assign (m : Variables × σ) : Statement → Variables × σ
  | .init name value | .set name value =>
    let (value, source) := value.evaluate (.ofVariables m.1) m.2
    (m.1.insert name value, source)
  | _ => m

/-- A variable that a statement does not write keeps its value. -/
theorem find?_assign (m : Variables × σ) {statement : Statement} {name : String}
    (h : statement.declared? ≠ some name) :
    (assign m statement).1.find? name = m.1.find? name := by
  cases statement with
  | init other value =>
      have hne : name ≠ other := fun heq => h (heq ▸ rfl)
      simp [assign, Table.find?_insert, hne]
  | set other value =>
      have hne : name ≠ other := fun heq => h (heq ▸ rfl)
      simp [assign, Table.find?_insert, hne]
  | _ => rfl

theorem find?_foldl_assign (name : String) : ∀ (statements : List Statement)
    (m : Variables × σ), (∀ statement ∈ statements, statement.declared? ≠ some name) →
      (statements.foldl assign m).1.find? name = m.1.find? name
  | [], _, _ => rfl
  | statement :: rest, m, h => by
      obtain ⟨hfirst, hrest⟩ := List.forall_mem_cons.mp h
      rw [List.foldl_cons, find?_foldl_assign name rest _ hrest, find?_assign m hfirst]

variable [RenderNode ν]

theorem memory_execute (s : Session σ ν) {statement : Statement}
    (h : statement.declared?.isSome) :
    (s.execute statement).memory = assign s.memory statement := by
  cases statement with
  | init name value => rfl
  | set name value => rfl
  | _ => simp [Statement.declared?] at h

theorem memory_executeAll : ∀ (statements : List Statement) (s : Session σ ν),
    (∀ statement ∈ statements, statement.declared?.isSome) →
      (s.executeAll statements).memory = statements.foldl assign s.memory
  | [], _, _ => rfl
  | statement :: rest, s, h => by
      obtain ⟨hfirst, hrest⟩ := List.forall_mem_cons.mp h
      rw [List.foldl_cons, ← memory_execute s hfirst]
      exact memory_executeAll rest (s.execute statement) hrest

theorem memory_load (s : Session σ ν) (story : Story) (preserve : Bool) :
    (s.load story preserve).memory =
      (initializers story).foldl assign (s.cleared story preserve).memory := by
  rw [load_eq, ← memory_executeAll _ _ fun _ => declared_of_mem_initializers]
  rfl

end Memory

/-! ## The variables after loading -/

section Cleared

variable [RenderNode ν]

theorem contains_declared_cleared (s : Session σ ν) (story : Story) (preserve : Bool)
    (name : String) :
    (s.cleared story preserve).declared.contains name = true ↔ name ∈ story.declared := by
  show (Table.ofList _).contains name = true ↔ _
  rw [Table.contains_ofList, List.map_map]
  simp

/-- What is left of the variables before the first statements run. -/
theorem find?_bindings_cleared (s : Session σ ν) (story : Story) (preserve : Bool)
    (name : String) :
    (s.cleared story preserve).bindings.find? name =
      if preserve = true ∧ name ∉ story.declared then s.bindings.find? name else none := by
  have hdeclared := contains_declared_cleared s story preserve name
  cases preserve with
  | false => rw [if_neg (by simp)]; rfl
  | true =>
      show (s.bindings.filter fun name _ => !(s.cleared story true).declared.contains name).find?
        name = _
      rw [Table.find?_filter]
      by_cases hmem : name ∈ story.declared
      · rw [hdeclared.mpr hmem, if_neg (by simp [hmem])]
        cases s.bindings.find? name <;> rfl
      · have hcontains : (s.cleared story true).declared.contains name = false := by
          simpa using mt hdeclared.mp hmem
        rw [hcontains, if_pos ⟨rfl, hmem⟩]
        cases s.bindings.find? name <;> rfl

/-- Sessions that agree on what is preserved are left with the same variables. -/
theorem memory_cleared_congr {s s' : Session σ ν} {story : Story} {preserve : Bool}
    (hsource : s.source = s'.source)
    (hagree : preserve = true → ∀ name, name ∉ story.declared →
      s.bindings.find? name = s'.bindings.find? name) :
    (s.cleared story preserve).memory = (s'.cleared story preserve).memory := by
  have hbindings : (s.cleared story preserve).bindings = (s'.cleared story preserve).bindings := by
    refine Table.ext_find? fun name => ?_
    rw [find?_bindings_cleared, find?_bindings_cleared]
    split
    · next hkept => exact hagree hkept.1 name hkept.2
    · rfl
  exact Prod.ext hbindings hsource

end Cleared

section Load

variable [WordSource σ] [RenderNode ν]

/-- A variable that no first statement writes is what loading left of it. -/
theorem find?_bindings_load (s : Session σ ν) (story : Story) (preserve : Bool) {name : String}
    (h : ∀ statement, story.Opens statement → statement.declared? ≠ some name) :
    (s.load story preserve).bindings.find? name =
      if preserve = true ∧ name ∉ story.declared then s.bindings.find? name else none := by
  have hmemory := congrArg Prod.fst (memory_load s story preserve)
  have hkeeps : ∀ statement ∈ initializers story, statement.declared? ≠ some name :=
    fun statement hmem => h statement (opens_of_mem_initializers hmem)
  show (s.load story preserve).memory.1.find? name = _
  rw [hmemory, find?_foldl_assign name _ _ hkeeps]
  exact find?_bindings_cleared s story preserve name

/-- What a session looks like that has just opened a story, its variables apart. -/
structure HasOpened (story : Story) (s : Session σ ν) : Prop where
  plays : s.story = some story
  declared : ∀ name, s.declared.contains name = true ↔ name ∈ story.declared
  current : s.navigation.current = story.firstPage?.map (·.id)
  history : s.navigation.history = []
  positions : s.positions = ∅
  idle : s.engine.isIdle = true

theorem hasOpened_load (s : Session σ ν) (story : Story) (preserve : Bool) :
    HasOpened story (s.load story preserve) := by
  obtain ⟨_, _, _, heq⟩ := load_spec s story preserve
  have hdeclared := contains_declared_cleared s story preserve
  rw [heq]
  exact ⟨rfl, hdeclared, rfl, rfl, rfl, rfl⟩

theorem declared_load_congr (s s' : Session σ ν) (story : Story) (preserve : Bool) :
    (s.load story preserve).declared = (s'.load story preserve).declared := by
  obtain ⟨_, _, _, heq⟩ := load_spec s story preserve
  obtain ⟨_, _, _, heq'⟩ := load_spec s' story preserve
  rw [heq, heq']
  rfl

/-- Sessions that agree on the random words to come, and on the variables that a story does not
declare where these are preserved, are alike once the story is loaded: in the variables, the
declared names and the page, with no history, no recorded places and nothing that moves.  An
undeclared variable keeps its value if it is preserved, and has none if it is not; a declared
one has none unless a first statement writes it. -/
theorem load_forgets_past (s s' : Session σ ν) (story : Story) (preserve : Bool)
    (hsource : s.source = s'.source)
    (hagree : preserve = true → ∀ name, name ∉ story.declared →
      s.bindings.find? name = s'.bindings.find? name) :
    let loaded := s.load story preserve
    let loaded' := s'.load story preserve
    (loaded.bindings = loaded'.bindings ∧ loaded.source = loaded'.source ∧
        loaded.declared = loaded'.declared ∧ loaded.navigation = loaded'.navigation) ∧
      (HasOpened story loaded ∧ HasOpened story loaded') ∧
      (∀ name, name ∉ story.declared →
        loaded.bindings.find? name = if preserve then s.bindings.find? name else none) ∧
      (∀ name, name ∈ story.declared →
        (∀ statement, story.Opens statement → statement.declared? ≠ some name) →
          loaded.bindings.find? name = none) := by
  intro loaded loaded'
  have hmemory : loaded.memory = loaded'.memory := by
    rw [memory_load, memory_load, memory_cleared_congr hsource hagree]
  refine ⟨⟨congrArg Prod.fst hmemory, congrArg Prod.snd hmemory,
    declared_load_congr s s' story preserve, ?_⟩,
    ⟨hasOpened_load s story preserve, hasOpened_load s' story preserve⟩, ?_, ?_⟩
  · rw [load_navigation, load_navigation]
  · intro name hname
    rw [find?_bindings_load s story preserve fun statement hopens hdeclared =>
      hname (Story.mem_declared_of_opens hopens hdeclared)]
    simp [hname]
  · intro name hname hwritten
    rw [find?_bindings_load s story preserve hwritten]
    simp [hname]

/-- A story that counts what its reader brings along; `lives` is set only at a click. -/
def countingStory : Story where
  title := "Counting"
  pages :=
    [⟨1, [.button ⟨"more", .string "More", none, none, none, none,
        [⟨.click, [.set "lives" (.number 3.0)]⟩]⟩],
      [.set "luck" (.random (.range (.number 1.0) (.number 6.0))), .goBack], none⟩]
  statements := [.init "score" (.var "bonus")]

/-- Neither the page, nor the spinning hero, nor the lives of an earlier game are left; the score
begins at the bonus, and the luck is drawn again. -/
theorem load_after_earlier_game :
    let fresh : Session WordScript SceneNode :=
      .new {} (Table.empty.insert "hero" (.atPoint ⟨0.0, 0.0⟩)) ⟨[9223372036854775808, 9]⟩
    let s := fresh.setVariable "bonus" (.number 5.0)
    let s' := ((s.setVariable "lives" (.number 1.0)).goToPage 2).1.execute
      (.animate "hero" ⟨"spin", none, none⟩)
    s'.engine.isIdle = false ∧ s'.navigation.current = some 2 ∧
      (s.load countingStory true).bindings = (s'.load countingStory true).bindings ∧
      (s'.load countingStory true).engine.isIdle = true ∧
      (s'.load countingStory true).bindings.find? "lives" = none ∧
      (s'.load countingStory true).bindings.find? "score" = some (.number 5.0) ∧
      (s'.load countingStory true).bindings.find? "luck" = some (.number 4.0) := by
  intro fresh s s'
  have hlives : "lives" ∈ countingStory.declared := by decide
  have hagree : true = true → ∀ name, name ∉ countingStory.declared →
      s.bindings.find? name = s'.bindings.find? name := by
    intro _ name hname
    have hne : name ≠ "lives" := fun heq => hname (heq ▸ hlives)
    have hbindings : s'.bindings = s.bindings.insert "lives" (.number 1.0) := rfl
    rw [hbindings, Table.find?_insert, if_neg hne]
  obtain ⟨hsame, ⟨-, hopened⟩, -, hreset⟩ :=
    load_forgets_past s s' countingStory true rfl hagree
  have hwritten : ∀ statement, countingStory.Opens statement →
      statement.declared? ≠ some "lives" := by
    rintro statement (htop | ⟨page, hpage, hstatement⟩)
    · obtain rfl : statement = .init "score" (.var "bonus") := List.mem_singleton.mp htop
      decide
    · cases hpage
      rcases List.mem_cons.mp hstatement with rfl | hback
      · decide
      · obtain rfl : statement = .goBack := List.mem_singleton.mp hback
        decide
  refine ⟨by decide, by decide, hsame.1, hopened.idle, ?_, ?_, ?_⟩
  · rw [← hsame.1]
    exact hreset "lives" hlives hwritten
  · subst s' s fresh
    rfl
  · subst s' s fresh
    rfl

end Load

end Session

end Storybook
