/-
# `Storybook.Proofs.Session.Request` — what a host can ask of a session

A host plays a session by *requests*.  Whatever it asks for, what becomes of the page and of
the variables is put together from a few changes (`Session.Change`).

| change | what it does | what it publishes |
| :-- | :-- | :-- |
| `aside` | moves agents and nodes, draws random words | nothing |
| `tell` | nothing | something about neither the page nor a variable |
| `write` | gives a variable a value | that it does |
| `turn` | turns to a page that may be turned to | that it does |
| `back` | goes back | that it does |

`execute_changes` says so of every statement and `perform_changes` of every request that loads
no story; the others are loads (`perform_of_opening`).  A law about the page or the variables
thus has one case for each change and one for loading, and `run_induction` carries it through
whole runs.
-/
import Mathlib.Logic.Relation
import Storybook.Proofs.Session.Loading

namespace Storybook

/-! ## Events -/

/-- The page that is left and the one that is reached, if an event tells of them. -/
def Event.turn? : Event → Option (Option Int64 × Option Int64)
  | .pageChanged left reached => some (left, reached)
  | _ => none

/-- The variable and its value, if an event tells of them. -/
def Event.write? : Event → Option (String × Value)
  | .variableChanged name value => some (name, value)
  | _ => none

/-! ## Requests -/

/-- What the host of a session over nodes `ν` can ask for. -/
inductive Request (ν : Type) where
  | load (story : Story) (preserve : Bool)
  | openStory (story : Story)
  | goToPage (page : Int64)
  | goBack
  | enterPage
  | execute (statements : List Statement)
  | dispatch (gesture : Gesture) (agent : Agent)
  | dispatchById (gesture : Gesture) (id : String)
  | setVariable (name : String) (value : Value)
  | evaluate (expression : Expression)
  | tick (elapsed : Float)
  /-- The host has other nodes. -/
  | arrange (nodes : Table ν)

/-- The story that a request loads, and whether variables are preserved. -/
def Request.opening? {ν : Type} (settings : RuntimeSettings) : Request ν → Option (Story × Bool)
  | .load story preserve => some (story, preserve)
  | .openStory story => some (story, settings.preserveExternal)
  | _ => none

namespace Session

variable {σ ν : Type}

section Requests

variable [WordSource σ] [RenderNode ν]

/-- The session after a request. -/
def perform (s : Session σ ν) : Request ν → Session σ ν
  | .load story preserve => s.load story preserve
  | .openStory story => s.openStory story
  | .goToPage page => (s.goToPage page).1
  | .goBack => s.goBack.1
  | .enterPage => s.enterPage
  | .execute statements => s.executeAll statements
  | .dispatch gesture agent => (s.dispatch gesture agent).1
  | .dispatchById gesture id => (s.dispatchById gesture id).1
  | .setVariable name value => s.setVariable name value
  | .evaluate expression => (s.evaluate expression).2
  | .tick elapsed => s.tick elapsed
  | .arrange nodes => { s with nodes }

/-- The session after some requests. -/
def run (s : Session σ ν) (requests : List (Request ν)) : Session σ ν := requests.foldl perform s

theorem run_append (s : Session σ ν) (earlier later : List (Request ν)) :
    s.run (earlier ++ later) = (s.run earlier).run later :=
  List.foldl_append

/-- What holds at first, and still holds after each request, holds after every run. -/
theorem run_induction {P : Session σ ν → Prop} {s : Session σ ν} (requests : List (Request ν))
    (hs : P s) (hstep : ∀ t, P t → ∀ request ∈ requests, P (t.perform request)) :
    P (s.run requests) := by
  induction requests generalizing s with
  | nil => exact hs
  | cons request rest ih =>
    refine ih (hstep s hs request List.mem_cons_self) ?_
    intro t ht other hother
    exact hstep t ht other (List.mem_cons_of_mem _ hother)

end Requests

/-! ## Changes -/

/-- The changes of a session of which requests and statements are made. -/
inductive Change : Session σ ν → Session σ ν → Prop
  | aside (s : Session σ ν) (positions : Table Point) (engine : Engine Unit) (nodes : Table ν)
      (source : σ) : Change s { s with positions, engine, nodes, source }
  | tell (s : Session σ ν) {event : Event} : event.turn? = none → event.write? = none →
      Change s (s.publish event)
  | write (s : Session σ ν) (name : String) (value : Value) : Change s (s.setVariable name value)
  | turn (s : Session σ ν) {page : Int64} : s.allows page = true →
      Change s ({ s with navigation := s.navigation.goTo page }.publish
        (.pageChanged s.navigation.current (some page)))
  | back (s : Session σ ν) {navigation : Navigation} : s.navigation.back? = some navigation →
      Change s ({ s with navigation }.publish
        (.pageChanged s.navigation.current navigation.current))

/-- The second session is the first one after some changes. -/
def Changes (s s' : Session σ ν) : Prop := Relation.ReflTransGen Change s s'

namespace Changes

variable {s s' s'' : Session σ ν}

theorem refl (s : Session σ ν) : Changes s s := Relation.ReflTransGen.refl

theorem single (h : Change s s') : Changes s s' := Relation.ReflTransGen.single h

theorem trans (h : Changes s s') (h' : Changes s' s'') : Changes s s'' :=
  Relation.ReflTransGen.trans h h'

/-- What every change keeps holds still after some changes. -/
theorem keeps {P : Session σ ν → Prop} (h : Changes s s')
    (hstep : ∀ {t t' : Session σ ν}, Change t t' → P t → P t') (hs : P s) : P s' := by
  induction h with
  | refl => exact hs
  | tail _ hchange ih => exact hstep hchange ih

end Changes

theorem goToPage_changes (s : Session σ ν) (page : Int64) : Changes s (s.goToPage page).1 := by
  unfold goToPage
  split
  · next hallows => exact .single (.turn s hallows)
  · exact .refl s

theorem goBack_changes (s : Session σ ν) : Changes s s.goBack.1 := by
  unfold goBack
  split
  · next hback => exact .single (.back s hback)
  · exact .refl s

section Statements

variable [WordSource σ]

theorem evaluate_changes (s : Session σ ν) (e : Expression) : Changes s (s.evaluate e).2 :=
  .single (.aside s s.positions s.engine s.nodes _)

/-- A value is evaluated and then given to a variable. -/
theorem write_changes (s : Session σ ν) (e : Expression) (name : String) (value : Value) :
    Changes s ((s.evaluate e).2.setVariable name value) :=
  (evaluate_changes s e).trans (.single (.write _ name value))

theorem tweenTargets_changes (s : Session σ ν) (properties : List (String × Expression)) :
    Changes s (s.tweenTargets properties).2 := by
  induction properties generalizing s with
  | nil => exact .refl s
  | cons property rest ih => exact (evaluate_changes s property.2).trans (ih _)

variable [RenderNode ν]

omit [WordSource σ] in
theorem moveAgent_changes (s : Session σ ν) (target : String) (x y : Float)
    (options : TweenOptions) : Changes s (s.moveAgent target x y options) := by
  unfold moveAgent
  split
  · split
    · next engine _ => exact .single (.aside s _ engine s.nodes s.source)
    · exact .refl s
  · exact .refl s

/-- Every statement is made of changes. -/
theorem execute_changes (s : Session σ ν) (statement : Statement) :
    Changes s (s.execute statement) := by
  cases statement with
  | init name value => exact write_changes s value name _
  | set name value => exact write_changes s value name _
  | add name amount => exact write_changes s amount name _
  | subtract name amount => exact write_changes s amount name _
  | goToPage page => exact goToPage_changes s page
  | goBack => exact goBack_changes s
  | move target x y options =>
    have hx := evaluate_changes s x
    have hy := evaluate_changes (s.evaluate x).2 y
    exact (hx.trans hy).trans (moveAgent_changes _ target _ _ options)
  | tween target properties options =>
    have htargets := tweenTargets_changes s properties.entries
    refine htargets.trans ?_
    simp only [execute]
    split
    · next engine _ => exact .single (.aside _ _ engine _ _)
    · exact .refl _
  | animate target animation =>
    simp only [execute]
    split
    · next engine nodes _ => exact .single (.aside s s.positions engine nodes s.source)
    · exact .refl s
  | stopAnimation target => exact .single (.aside s s.positions _ _ s.source)
  | playSound | stopSound | stopMusic | music | wait | timer => exact .single (.tell s rfl rfl)
  | unknown => exact .refl s

theorem executeAll_changes (s : Session σ ν) (statements : List Statement) :
    Changes s (s.executeAll statements) := by
  induction statements generalizing s with
  | nil => exact .refl s
  | cons statement rest ih => exact (execute_changes s statement).trans (ih _)

theorem dispatch_changes (s : Session σ ν) (gesture : Gesture) (agent : Agent) :
    Changes s (s.dispatch gesture agent).1 := by
  unfold dispatch
  split
  · next handler _ => exact executeAll_changes s handler.statements
  · exact .refl s

/-! ## What a request does -/

/-- A request that loads no story is made of changes. -/
theorem perform_changes (s : Session σ ν) {request : Request ν}
    (h : request.opening? s.settings = none) : Changes s (s.perform request) := by
  cases request with
  | load | openStory => exact nomatch h
  | goToPage page => exact goToPage_changes s page
  | goBack => exact goBack_changes s
  | enterPage =>
    show Changes s s.enterPage
    unfold enterPage
    split
    · next page _ => exact executeAll_changes s page.statements
    · exact .refl s
  | execute statements => exact executeAll_changes s statements
  | dispatch gesture agent => exact dispatch_changes s gesture agent
  | dispatchById gesture id =>
    show Changes s (s.dispatchById gesture id).1
    unfold dispatchById
    split
    · next agent _ => exact dispatch_changes s gesture agent
    · exact .refl s
  | setVariable name value => exact .single (.write s name value)
  | evaluate e => exact evaluate_changes s e
  | tick elapsed => exact .single (.aside s s.positions _ _ s.source)
  | arrange nodes => exact .single (.aside s s.positions s.engine nodes s.source)

/-- Any other request loads a story. -/
theorem perform_of_opening (s : Session σ ν) {request : Request ν} {story : Story}
    {preserve : Bool} (h : request.opening? s.settings = some (story, preserve)) :
    s.perform request = s.load story preserve := by
  cases request <;> cases h <;> rfl

end Statements

/-! ## What nothing but loading touches -/

theorem Change.settings {s s' : Session σ ν} (h : Change s s') : s'.settings = s.settings := by
  cases h <;> rfl

theorem Change.story {s s' : Session σ ν} (h : Change s s') : s'.story = s.story := by
  cases h <;> rfl

theorem Changes.settings {s s' : Session σ ν} (h : Changes s s') : s'.settings = s.settings :=
  h.keeps (P := fun t => t.settings = s.settings) (fun hstep ht => hstep.settings.trans ht) rfl

theorem Changes.story {s s' : Session σ ν} (h : Changes s s') : s'.story = s.story :=
  h.keeps (P := fun t => t.story = s.story) (fun hstep ht => hstep.story.trans ht) rfl

variable [WordSource σ] [RenderNode ν]

@[simp] theorem settings_perform (s : Session σ ν) (request : Request ν) :
    (s.perform request).settings = s.settings := by
  cases h : request.opening? s.settings with
  | none => exact (perform_changes s h).settings
  | some opening => rw [perform_of_opening s h, load_settings]

@[simp] theorem settings_run (s : Session σ ν) (requests : List (Request ν)) :
    (s.run requests).settings = s.settings :=
  run_induction (P := fun t => t.settings = s.settings) requests rfl fun t ht request _ =>
    (settings_perform t request).trans ht

end Session

end Storybook
