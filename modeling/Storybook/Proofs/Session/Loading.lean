/-
# `Storybook.Proofs.Session.Loading` — what loading a story leaves behind

While a story is loaded, the only statements that run are the ones that give variables their
first values.  They write variables, publish that they did, and may draw random words; no
other part of the session is theirs to touch (`OnlyVariables`).  So what a session looks like
after loading is what loading itself put there, whatever the story (`load_spec`).
-/
import Storybook.Session.Basic

namespace Storybook

namespace Session

variable {σ ν : Type}

/-! ## Statements that write variables -/

/-- The second session differs from the first at most in its variables, in its source of
random words and in the events it has published. -/
def OnlyVariables (s s' : Session σ ν) : Prop :=
  ∃ bindings source published, s' = { s with bindings, source, published }

theorem OnlyVariables.refl (s : Session σ ν) : OnlyVariables s s :=
  ⟨s.bindings, s.source, s.published, rfl⟩

theorem OnlyVariables.trans {s s' s'' : Session σ ν} (h : OnlyVariables s s')
    (h' : OnlyVariables s' s'') : OnlyVariables s s'' := by
  obtain ⟨_, _, _, rfl⟩ := h
  obtain ⟨bindings, source, published, rfl⟩ := h'
  exact ⟨bindings, source, published, rfl⟩

theorem publish_onlyVariables (s : Session σ ν) (event : Event) :
    OnlyVariables s (s.publish event) :=
  ⟨s.bindings, s.source, s.published ++ [event], rfl⟩

variable [WordSource σ] [RenderNode ν]

/-- An `init` or a `set` writes its variable and nothing else. -/
theorem execute_onlyVariables (s : Session σ ν) {statement : Statement}
    (h : statement.declared?.isSome) : OnlyVariables s (s.execute statement) := by
  cases statement with
  | init name value => exact ⟨_, _, _, rfl⟩
  | set name value => exact ⟨_, _, _, rfl⟩
  | _ => simp [Statement.declared?] at h

theorem executeAll_onlyVariables : ∀ (statements : List Statement) (s : Session σ ν),
    (∀ statement ∈ statements, statement.declared?.isSome) →
      OnlyVariables s (s.executeAll statements)
  | [], s, _ => .refl s
  | statement :: rest, s, h =>
      (execute_onlyVariables s (h statement List.mem_cons_self)).trans
        (executeAll_onlyVariables rest (s.execute statement)
          fun other hmem => h other (List.mem_cons_of_mem _ hmem))

theorem declared_of_mem_initializers {story : Story} {statement : Statement}
    (h : statement ∈ initializers story) : statement.declared?.isSome :=
  (List.mem_filter.mp h).2

/-! ## The loaded session -/

/-- The session with a story put in, before any statement of it has run. -/
def cleared (s : Session σ ν) (story : Story) (preserve : Bool) : Session σ ν :=
  let declared := Table.ofList (story.declared.map fun name => (name, ()))
  { s with
    story := some story
    bindings := if preserve then s.bindings.filter fun name _ => !declared.contains name else ∅
    declared
    navigation := .reset (story.firstPage?.map (·.id))
    positions := ∅
    engine := (s.engine.stopAll s.nodes).1
    nodes := (s.engine.stopAll s.nodes).2 }

theorem load_eq (s : Session σ ν) (story : Story) (preserve : Bool) :
    s.load story preserve =
      ((s.cleared story preserve).executeAll (initializers story)).publish
        (.pageChanged s.navigation.current (story.firstPage?.map (·.id))) :=
  rfl

/-- Once a story has been put in, loading it goes on to write variables and nothing else. -/
theorem load_spec (s : Session σ ν) (story : Story) (preserve : Bool) :
    OnlyVariables (s.cleared story preserve) (s.load story preserve) := by
  rw [load_eq]
  exact (executeAll_onlyVariables _ _ fun _ => declared_of_mem_initializers).trans
    (publish_onlyVariables _ _)

@[simp] theorem load_navigation (s : Session σ ν) (story : Story) (preserve : Bool) :
    (s.load story preserve).navigation = .reset (story.firstPage?.map (·.id)) := by
  obtain ⟨_, _, _, heq⟩ := load_spec s story preserve
  rw [heq]
  rfl

@[simp] theorem load_story (s : Session σ ν) (story : Story) (preserve : Bool) :
    (s.load story preserve).story = some story := by
  obtain ⟨_, _, _, heq⟩ := load_spec s story preserve
  rw [heq]
  rfl

@[simp] theorem load_settings (s : Session σ ν) (story : Story) (preserve : Bool) :
    (s.load story preserve).settings = s.settings := by
  obtain ⟨_, _, _, heq⟩ := load_spec s story preserve
  rw [heq]
  rfl

end Session

end Storybook
