/-
# `Storybook.Proofs.Session.History` — which pages a history can hold

The history of a session has no page twice in a row, since the page that is left is not
remembered again if it was remembered last; and a session without a current page has no
history, since only a current page is ever remembered (`Navigation.WellFormed`).

Where only pages of the story may be turned to, the current page and the history hold nothing
else.  This needs no look at what is run: pages come into a navigation by turning to them, and
loading another story empties it (`Session.Navigated`).
-/
import Mathlib.Data.List.Chain
import Storybook.Proofs.Session.Request

namespace Storybook

/-! ## Navigation -/

namespace Navigation

/-- The current page and the pages to go back to. -/
def pages (nav : Navigation) : List Int64 := nav.current.toList ++ nav.history

/-- No page follows itself in the history, and there is none without a current page. -/
structure WellFormed (nav : Navigation) : Prop where
  distinct : nav.history.IsChain (· ≠ ·)
  rooted : nav.current = none → nav.history = []

theorem wellFormed_reset (page : Option Int64) : (reset page).WellFormed where
  distinct := .nil
  rooted _ := rfl

theorem isChain_remember {history : List Int64} (h : history.IsChain (· ≠ ·)) (left : Int64) :
    (remember history left).IsChain (· ≠ ·) := by
  unfold remember
  split
  · exact h
  · next hlast =>
    refine h.append (List.isChain_singleton left) ?_
    intro last hmem page hpage
    cases hpage
    rintro rfl
    exact hlast hmem

theorem WellFormed.goTo {nav : Navigation} (h : nav.WellFormed) (page : Int64) :
    (nav.goTo page).WellFormed := by
  refine ⟨?_, fun hnone => nomatch hnone⟩
  unfold Navigation.goTo
  cases hcur : nav.current with
  | none => exact h.distinct
  | some here => exact isChain_remember h.distinct here

theorem WellFormed.back {nav nav' : Navigation} (h : nav.WellFormed)
    (hback : nav.back? = some nav') : nav'.WellFormed := by
  obtain ⟨previous, -, rfl⟩ := Option.map_eq_some_iff.mp hback
  exact ⟨h.distinct.dropLast, fun hnone => nomatch hnone⟩

theorem mem_remember {history : List Int64} {left page : Int64}
    (h : page ∈ remember history left) : page = left ∨ page ∈ history := by
  unfold remember at h
  split at h
  · exact .inr h
  · rcases List.mem_append.mp h with hold | hleft
    · exact .inr hold
    · exact .inl (List.mem_singleton.mp hleft)

theorem mem_pages_goTo {nav : Navigation} {page other : Int64}
    (h : other ∈ (nav.goTo page).pages) : other = page ∨ other ∈ nav.pages := by
  unfold Navigation.goTo pages at h
  rcases List.mem_append.mp h with hcurrent | hhistory
  · exact .inl (List.mem_singleton.mp hcurrent)
  · refine .inr (List.mem_append.mpr ?_)
    cases hcur : nav.current with
    | none =>
      rw [hcur] at hhistory
      exact .inr hhistory
    | some here =>
      rw [hcur] at hhistory
      rcases mem_remember hhistory with rfl | hold
      · exact .inl (List.mem_singleton_self other)
      · exact .inr hold

theorem mem_pages_back {nav nav' : Navigation} {page : Int64} (hback : nav.back? = some nav')
    (h : page ∈ nav'.pages) : page ∈ nav.pages := by
  obtain ⟨previous, hlast, rfl⟩ := Option.map_eq_some_iff.mp hback
  refine List.mem_append_right _ ?_
  rcases List.mem_append.mp h with hcurrent | hhistory
  · obtain rfl : page = previous := List.mem_singleton.mp hcurrent
    exact List.mem_of_getLast? hlast
  · exact List.dropLast_subset _ hhistory

end Navigation

theorem Story.hasPage_iff (story : Story) (id : Int64) :
    story.hasPage id = true ↔ id ∈ story.pages.map Page.id := by
  unfold hasPage page?
  rw [List.find?_isSome, List.mem_map]
  simp

/-! ## Sessions -/

namespace Session

variable {σ ν : Type}

/-- The navigation of a session is well formed, and its pages are pages of the story if only
those may be turned to. -/
structure Navigated (s : Session σ ν) : Prop where
  wellFormed : s.navigation.WellFormed
  inStory : s.settings.strictNavigation = true → ∀ page ∈ s.navigation.pages,
    ∃ story, s.story = some story ∧ story.hasPage page = true

theorem hasPage_of_allows {s : Session σ ν} {page : Int64} (h : s.allows page = true)
    (hstrict : s.settings.strictNavigation = true) :
    ∃ story, s.story = some story ∧ story.hasPage page = true := by
  rw [allows, hstrict, Bool.not_true, Bool.false_or] at h
  obtain ⟨story, hstory, hpage⟩ := Option.any_eq_true _ _ |>.mp h
  exact ⟨story, hstory, hpage⟩

theorem Change.navigated {s s' : Session σ ν} (h : Change s s') (hs : s.Navigated) :
    s'.Navigated := by
  obtain ⟨hwf, hin⟩ := hs
  cases h with
  | aside | tell | write => exact ⟨hwf, hin⟩
  | @turn page hallows =>
    refine ⟨hwf.goTo page, ?_⟩
    intro hstrict other hmem
    rcases Navigation.mem_pages_goTo hmem with rfl | hold
    · exact hasPage_of_allows hallows hstrict
    · exact hin hstrict other hold
  | back hback =>
    refine ⟨hwf.back hback, ?_⟩
    intro hstrict other hmem
    exact hin hstrict other (Navigation.mem_pages_back hback hmem)

section Run

variable [WordSource σ] [RenderNode ν]

/-- A loaded story is open at its first page. -/
theorem navigated_load (s : Session σ ν) (story : Story) (preserve : Bool) :
    (s.load story preserve).Navigated where
  wellFormed := by
    rw [load_navigation]
    exact Navigation.wellFormed_reset _
  inStory := by
    intro _ page hmem
    rw [load_navigation] at hmem
    refine ⟨story, load_story s story preserve, (story.hasPage_iff page).mpr ?_⟩
    rw [Navigation.pages, Navigation.reset, List.append_nil, Option.mem_toList] at hmem
    obtain ⟨first, hfirst, rfl⟩ := Option.map_eq_some_iff.mp hmem
    exact List.mem_map_of_mem (List.mem_of_mem_head? hfirst)

theorem Navigated.perform {s : Session σ ν} (hs : s.Navigated) (request : Request ν) :
    (s.perform request).Navigated := by
  cases h : request.opening? s.settings with
  | none => exact (perform_changes s h).keeps (P := Navigated) Change.navigated hs
  | some opening =>
    rw [perform_of_opening s h]
    exact navigated_load s opening.1 opening.2

theorem Navigated.run {s : Session σ ν} (hs : s.Navigated) (requests : List (Request ν)) :
    (s.run requests).Navigated :=
  run_induction (P := Navigated) requests hs fun _ ht request _ => ht.perform request

end Run

end Session

/-! ## The story loaded last -/

/-- The story that some requests load last. -/
def Request.lastStory? {ν : Type} (settings : RuntimeSettings) (requests : List (Request ν)) :
    Option Story :=
  ((requests.filterMap (opening? settings)).map (·.1)).getLast?

namespace Session

variable {σ ν : Type} [WordSource σ] [RenderNode ν]

theorem story_perform (s : Session σ ν) (request : Request ν) :
    (s.perform request).story = ((request.opening? s.settings).map (·.1)).or s.story := by
  cases h : request.opening? s.settings with
  | none => exact (perform_changes s h).story
  | some opening => rw [perform_of_opening s h, load_story]; rfl

/-- A session plays the story loaded last. -/
theorem story_run (s : Session σ ν) (requests : List (Request ν)) :
    (s.run requests).story = (Request.lastStory? s.settings requests).or s.story := by
  induction requests generalizing s with
  | nil => rfl
  | cons request rest ih =>
    have hrest := ih (s.perform request)
    rw [settings_perform, story_perform] at hrest
    refine hrest.trans ?_
    unfold Request.lastStory?
    cases h : request.opening? s.settings with
    | none => rw [List.filterMap_cons_none h]; rfl
    | some opening =>
      rw [List.filterMap_cons_some h, List.map_cons, List.getLast?_cons]
      cases ((rest.filterMap (Request.opening? s.settings)).map (·.1)).getLast? <;> rfl

/-- In every run the history has no page twice in a row, and it is empty while there is no
current page.  If only pages of the story may be turned to, the current page and those of the
history are pages of the story loaded last. -/
theorem history_run (settings : Settings) (nodes : Table ν) (source : σ)
    (requests : List (Request ν)) :
    let s := (new settings nodes source).run requests
    s.navigation.history.IsChain (· ≠ ·) ∧
      (s.navigation.current = none → s.navigation.history = []) ∧
      (settings.runtime.strictNavigation = true → ∀ page,
        s.navigation.current = some page ∨ page ∈ s.navigation.history →
          ∃ story, Request.lastStory? settings.runtime requests = some story ∧
            page ∈ story.pages.map Page.id) := by
  intro s
  have hnew : (new settings nodes source).Navigated :=
    ⟨Navigation.wellFormed_reset none, fun _ _ hmem => nomatch hmem⟩
  obtain ⟨⟨hdistinct, hrooted⟩, hin⟩ : s.Navigated := hnew.run requests
  have hstory : s.story = Request.lastStory? settings.runtime requests := by
    refine (story_run (new settings nodes source) requests).trans ?_
    exact Option.or_none
  have hsettings : s.settings = settings.runtime := settings_run (new settings nodes source) _
  refine ⟨hdistinct, hrooted, ?_⟩
  intro hstrict page hpage
  have hmem : page ∈ s.navigation.pages := by
    rcases hpage with hcurrent | hhistory
    · exact List.mem_append_left _ (Option.mem_toList.mpr hcurrent)
    · exact List.mem_append_right _ hhistory
  obtain ⟨story, hs, hhas⟩ := hin (hsettings ▸ hstrict) page hmem
  exact ⟨story, hstory ▸ hs, (story.hasPage_iff page).mp hhas⟩

/-- A story with a button that turns to its second page, to a page that it has not, and to the
second page again. -/
def gateStory : Story where
  title := "Gate"
  pages :=
    [⟨1, [.button ⟨"gate", .string "Open", none, none, none, none,
        [⟨.click, [.goToPage 2, .goToPage 7, .goToPage 2]⟩]⟩], [], none⟩,
      ⟨2, [], [], none⟩]
  statements := []

/-- The page that is not there is not in the history, and the second page is there once. -/
theorem history_run_gate :
    let settings : Settings := { runtime := { strictNavigation := true } }
    let requests : List (Request SceneNode) :=
      [.load gateStory false, .dispatchById .click "gate", .goToPage 1]
    let s := (new settings ∅ (⟨[]⟩ : WordScript)).run requests
    settings.runtime.strictNavigation = true ∧ s.navigation = ⟨some 1, [1, 2]⟩ ∧
      ∃ story, Request.lastStory? settings.runtime requests = some story ∧
        2 ∈ story.pages.map Page.id := by
  intro settings requests s
  have hnavigation : s.navigation = ⟨some 1, [1, 2]⟩ := by decide
  have hmem : (2 : Int64) ∈ s.navigation.history := by rw [hnavigation]; decide
  obtain ⟨-, -, hin⟩ := history_run settings ∅ (⟨[]⟩ : WordScript) requests
  exact ⟨rfl, hnavigation, hin rfl 2 (.inr hmem)⟩

end Session

end Storybook
