/-
# `Storybook.Proofs.Session.Published` — a host that listens knows the page and the variables

A host that takes every event of a session from its beginning, and knows when a story is
loaded, can tell at any time where the session is.

| of the session | what its events tell |
| :-- | :-- |
| the current page | each turn leaves the page that the one before reached, the last reaches it |
| the variables | what a load carries over, and after that every value written |

Both are kept by every change of a session (`Change.linked`, `Change.mirrors`).  A load is
special for the page alone: it is another page at once, and says so only after its first
statements have run; these publish nothing about pages in between (`turns_executeAll`).
-/
import Storybook.Proofs.Session.Reload
import Storybook.Proofs.Session.Request

namespace Storybook

/-! ## What events tell -/

namespace Event

/-- The changes of page that events tell of. -/
def turns (events : List Event) : List (Option Int64 × Option Int64) := events.filterMap turn?

/-- The variables after everything written that events tell of. -/
def replay (bindings : Variables) (events : List Event) : Variables :=
  events.foldl (fun bindings event =>
    match event.write? with
    | some (name, value) => bindings.insert name value
    | none => bindings) bindings

/-- Whether changes of page lead from one page to another, each of them leaving the page that
the one before has reached. -/
def Linked (first : Option Int64) (turns : List (Option Int64 × Option Int64))
    (last : Option Int64) : Prop :=
  turns.map Prod.fst ++ [last] = first :: turns.map Prod.snd

theorem turns_concat_of_none {event : Event} (h : event.turn? = none) (events : List Event) :
    turns (events ++ [event]) = turns events := by
  rw [turns, List.filterMap_append, List.filterMap_cons_none h]
  exact List.append_nil _

theorem turns_concat_pageChanged (events : List Event) (left reached : Option Int64) :
    turns (events ++ [.pageChanged left reached]) = turns events ++ [(left, reached)] :=
  List.filterMap_append

theorem Linked.concat {first last next : Option Int64}
    {turns : List (Option Int64 × Option Int64)} (h : Linked first turns last) :
    Linked first (turns ++ [(last, next)]) next := by
  unfold Linked at h ⊢
  rw [List.map_append, List.map_append, List.map_singleton, List.map_singleton, h]
  rfl

theorem replay_concat_of_none {event : Event} (h : event.write? = none) (bindings : Variables)
    (events : List Event) : replay bindings (events ++ [event]) = replay bindings events := by
  rw [replay, List.foldl_append, List.foldl_cons, h]
  rfl

theorem replay_concat_variableChanged (bindings : Variables) (events : List Event)
    (name : String) (value : Value) :
    replay bindings (events ++ [.variableChanged name value]) =
      (replay bindings events).insert name value :=
  List.foldl_append

end Event

namespace Session

open Event (turns replay)

variable {σ ν : Type}

/-! ## The page -/

/-- Whether the events of a session lead to its current page. -/
def Linked (s : Session σ ν) : Prop := Event.Linked none (turns s.published) s.navigation.current

theorem Change.linked {s s' : Session σ ν} (h : Change s s') (hs : s.Linked) : s'.Linked := by
  cases h with
  | aside => exact hs
  | tell hturn _ =>
    show Event.Linked none (turns (s.published ++ [_])) s.navigation.current
    rw [Event.turns_concat_of_none hturn]
    exact hs
  | write name value =>
    show Event.Linked none (turns (s.published ++ [_])) s.navigation.current
    rw [Event.turns_concat_of_none rfl]
    exact hs
  | @turn page _ =>
    show Event.Linked none (turns (s.published ++ [_])) (some page)
    rw [Event.turns_concat_pageChanged]
    exact hs.concat
  | @back navigation _ =>
    show Event.Linked none (turns (s.published ++ [_])) navigation.current
    rw [Event.turns_concat_pageChanged]
    exact hs.concat

section Load

variable [WordSource σ] [RenderNode ν]

/-- Statements that give variables their first values publish nothing about pages. -/
theorem turns_execute (s : Session σ ν) {statement : Statement}
    (h : statement.declared?.isSome) :
    turns (s.execute statement).published = turns s.published := by
  cases statement with
  | init name value => exact Event.turns_concat_of_none rfl _
  | set name value => exact Event.turns_concat_of_none rfl _
  | _ => simp [Statement.declared?] at h

theorem turns_executeAll (s : Session σ ν) {statements : List Statement}
    (h : ∀ statement ∈ statements, statement.declared?.isSome) :
    turns (s.executeAll statements).published = turns s.published := by
  induction statements generalizing s with
  | nil => rfl
  | cons statement rest ih =>
    obtain ⟨hfirst, hrest⟩ := List.forall_mem_cons.mp h
    exact (ih (s.execute statement) hrest).trans (turns_execute s hfirst)

theorem Linked.load {s : Session σ ν} (hs : s.Linked) (story : Story) (preserve : Bool) :
    (s.load story preserve).Linked := by
  have hfirst : turns ((s.cleared story preserve).executeAll (initializers story)).published =
      turns s.published :=
    turns_executeAll _ fun _ => declared_of_mem_initializers
  unfold Linked
  rw [load_navigation, load_eq]
  show Event.Linked none (turns (Session.published _ ++ [_])) _
  rw [Event.turns_concat_pageChanged, hfirst]
  exact hs.concat

theorem Linked.perform {s : Session σ ν} (hs : s.Linked) (request : Request ν) :
    (s.perform request).Linked := by
  cases h : request.opening? s.settings with
  | none => exact (perform_changes s h).keeps (P := Linked) Change.linked hs
  | some opening =>
    rw [perform_of_opening s h]
    exact hs.load opening.1 opening.2

theorem Linked.run {s : Session σ ν} (hs : s.Linked) (requests : List (Request ν)) :
    (s.run requests).Linked :=
  run_induction (P := Linked) requests hs fun _ ht request _ => ht.perform request

end Load

/-! ## The variables -/

/-- Whether the variables of a session are some earlier ones after what its events tell, apart
from the first ones of them. -/
def Mirrors (earlier : List Event) (bindings : Variables) (s : Session σ ν) : Prop :=
  ∃ events, s.published = earlier ++ events ∧ s.bindings = replay bindings events

variable {earlier : List Event} {bindings : Variables}

theorem mirrors_self (s : Session σ ν) : s.Mirrors s.published s.bindings :=
  ⟨[], (List.append_nil _).symm, rfl⟩

/-- An event that tells of no variable. -/
theorem Mirrors.publish {s : Session σ ν} (hs : s.Mirrors earlier bindings) {event : Event}
    (h : event.write? = none) : (s.publish event).Mirrors earlier bindings := by
  obtain ⟨events, hpublished, hbindings⟩ := hs
  refine ⟨events ++ [event], ?_, ?_⟩
  · rw [← List.append_assoc, ← hpublished]
    rfl
  · rw [Event.replay_concat_of_none h]
    exact hbindings

theorem Mirrors.setVariable {s : Session σ ν} (hs : s.Mirrors earlier bindings) (name : String)
    (value : Value) : (s.setVariable name value).Mirrors earlier bindings := by
  obtain ⟨events, hpublished, hbindings⟩ := hs
  refine ⟨events ++ [.variableChanged name value], ?_, ?_⟩
  · rw [← List.append_assoc, ← hpublished]
    rfl
  · rw [Event.replay_concat_variableChanged, ← hbindings]
    rfl

theorem Change.mirrors {s s' : Session σ ν} (h : Change s s') (hs : s.Mirrors earlier bindings) :
    s'.Mirrors earlier bindings := by
  cases h with
  | aside => exact hs
  | tell _ hwrite => exact hs.publish hwrite
  | write name value => exact hs.setVariable name value
  | turn => exact Mirrors.publish (s := { s with navigation := _ }) hs rfl
  | back => exact Mirrors.publish (s := { s with navigation := _ }) hs rfl

/-- The variables that loading a story leaves: the ones that it does not declare, if they are
preserved. -/
def carried (s : Session σ ν) (story : Story) (preserve : Bool) : Variables :=
  s.bindings.filter fun name _ => preserve && !story.declared.contains name

theorem bindings_cleared [RenderNode ν] (s : Session σ ν) (story : Story) (preserve : Bool) :
    (s.cleared story preserve).bindings = s.carried story preserve := by
  have hkeep (name : String) : (preserve && !story.declared.contains name) =
      decide (preserve = true ∧ name ∉ story.declared) := by
    cases preserve <;> simp
  refine Table.ext_find? fun name => ?_
  rw [find?_bindings_cleared, carried, Table.find?_filter, hkeep]
  by_cases h : preserve = true ∧ name ∉ story.declared
  · rw [if_pos h, decide_eq_true h]
    cases s.bindings.find? name <;> rfl
  · rw [if_neg h, decide_eq_false h]
    cases s.bindings.find? name <;> rfl

section Run

variable [WordSource σ] [RenderNode ν]

/-- What a load carries over and what it publishes give the variables after it. -/
theorem mirrors_load (s : Session σ ν) (story : Story) (preserve : Bool) :
    (s.load story preserve).Mirrors s.published (s.carried story preserve) := by
  have hcleared : (s.cleared story preserve).Mirrors s.published (s.carried story preserve) := by
    rw [← bindings_cleared]
    exact mirrors_self (s.cleared story preserve)
  have hfirst := (executeAll_changes (s.cleared story preserve) (initializers story)).keeps
    (P := Mirrors s.published (s.carried story preserve)) Change.mirrors hcleared
  rw [load_eq]
  exact hfirst.publish rfl

/-- As long as no story is loaded. -/
theorem Mirrors.run {s : Session σ ν} (hs : s.Mirrors earlier bindings)
    (requests : List (Request ν))
    (h : ∀ request ∈ requests, request.opening? s.settings = none) :
    (s.run requests).Mirrors earlier bindings := by
  induction requests generalizing s with
  | nil => exact hs
  | cons request rest ih =>
    obtain ⟨hrequest, hrest⟩ := List.forall_mem_cons.mp h
    have hnext : (s.perform request).Mirrors earlier bindings :=
      (perform_changes s hrequest).keeps (P := Mirrors earlier bindings) Change.mirrors hs
    refine ih hnext ?_
    rw [settings_perform]
    exact hrest

/-- The events of a session determine its page and its variables: every change of page leaves
the page that the one before it reached, none at first, and the last one reaches the current
page; and the variables are those that the last load carried over, after all that has been
written since it began. -/
theorem published_determines_session (settings : Settings) (nodes : Table ν) (source : σ)
    (requests : List (Request ν)) :
    let fresh := new settings nodes source
    let s := fresh.run requests
    let turns := s.published.filterMap Event.turn?
    turns.map Prod.fst ++ [s.navigation.current] = none :: turns.map Prod.snd ∧
      (∀ earlier opening later story preserve, requests = earlier ++ opening :: later →
        opening.opening? settings.runtime = some (story, preserve) →
        (∀ request ∈ later, request.opening? settings.runtime = none) →
          ∃ events, s.published = (fresh.run earlier).published ++ events ∧
            s.bindings = replay ((fresh.run earlier).carried story preserve) events) ∧
      ((∀ request ∈ requests, request.opening? settings.runtime = none) →
        s.bindings = replay ∅ s.published) := by
  intro fresh s turns
  have hlinked : fresh.Linked := rfl
  refine ⟨hlinked.run requests, ?_, ?_⟩
  · intro earlier opening later story preserve heq hopening hlater
    have hload : (fresh.run earlier).perform opening = (fresh.run earlier).load story preserve := by
      refine perform_of_opening _ ?_
      rw [settings_run]
      exact hopening
    have hrun : s = ((fresh.run earlier).load story preserve).run later := by
      show fresh.run requests = _
      rw [heq, run_append, ← hload]
      rfl
    rw [hrun]
    refine (mirrors_load (fresh.run earlier) story preserve).run later ?_
    rw [load_settings, settings_run]
    exact hlater
  · intro hnone
    obtain ⟨events, hpublished, hbindings⟩ := (mirrors_self fresh).run requests hnone
    rw [hbindings, hpublished]
    rfl

/-- A story that begins with the bonus of its reader. -/
def bonusStory : Story := ⟨"Bonus", [⟨1, [], [], none⟩], [.init "score" (.var "bonus")]⟩

/-- The bonus is carried over, the old score is not. -/
theorem published_determines_bonus :
    let fresh : Session WordScript SceneNode := new {} ∅ ⟨[]⟩
    let earlier : List (Request SceneNode) :=
      [.setVariable "bonus" (.string "gold"), .setVariable "score" (.string "none")]
    let later : List (Request SceneNode) := [.goToPage 2, .execute [.set "luck" (.var "score")]]
    let s := fresh.run (earlier ++ .openStory bonusStory :: later)
    s.published.filterMap Event.turn? = [(none, some 1), (some 1, some 2)] ∧
      s.navigation.current = some 2 ∧ (s.bindings.find? "luck").map Value.display = some "gold" ∧
      ∃ events, s.published = (fresh.run earlier).published ++ events ∧
        s.bindings = replay ((fresh.run earlier).carried bonusStory true) events := by
  intro fresh earlier later s
  obtain ⟨-, hbindings, -⟩ := published_determines_session {} ∅ (⟨[]⟩ : WordScript)
    (earlier ++ .openStory bonusStory :: later)
  have hlater : ∀ request ∈ later, request.opening? {} = none := by
    intro request hmem
    rcases List.mem_cons.mp hmem with rfl | hmem
    · rfl
    · rw [List.mem_singleton.mp hmem]
      rfl
  refine ⟨by decide, by decide, by decide +kernel, ?_⟩
  exact hbindings earlier (.openStory bonusStory) later bonusStory true rfl rfl hlater

end Run

end Session

end Storybook
