/-
# `Storybook.Proofs.Session.Trail` — what going back undoes

A reader who turns pages leaves a *trail*: the pages that were left by those changes of page
that have not been undone.  Going back should follow the trail, so the question is how the
history of a session is related to it.

| | the trail | the history |
| :-- | :-- | :-- |
| another page | the page that is left is added | the same, unless it is on top already |
| the current page again | stays | gets the current page on top, once |
| back | its last page becomes current | the page on top becomes current |

The second row is where they part.  A page that has been turned to again is on top of the
history although it was never left; the first way back then leads from the page to itself
(`Trail.repeated`), and only the next one follows the trail.  The page on top is not pushed a
second time when it is left, so a repetition that is not taken back at once leaves no trace.

`Trail.navigation` says this as one equation, which every turn preserves
(`navigation_toPage`, `back?_navigation`); `goBack_undoes_latest_change` reads the law of
going back off it.
-/
import Mathlib.Data.List.Chain
import Storybook.Proofs.Session.Loading

namespace Storybook

/-- A way to another page. -/
inductive Turn where
  | toPage (page : Int64)
  | back
deriving DecidableEq, Repr

/-! ## The trail of a reader -/

/-- Where a reader is, and the way there. -/
structure Trail where
  current : Option Int64
  /-- The pages that were current before the changes of page not undone yet, the latest one
  first. -/
  left : List Int64
  /-- Whether the reader has turned to the current page while it was current, and has not
  gone back since. -/
  repeated : Bool
deriving DecidableEq, Repr

namespace Trail

/-- The trail of a reader who has just opened a story. -/
def start (page : Option Int64) : Trail := ⟨page, [], false⟩

/-- The trail after turning to a page. -/
def toPage (t : Trail) (page : Int64) : Trail :=
  match t.current with
  | none => { t with current := some page }
  | some here =>
    if here = page then { t with repeated := true } else ⟨some page, here :: t.left, false⟩

theorem toPage_here (here : Int64) (left : List Int64) (repeated : Bool) :
    toPage ⟨some here, left, repeated⟩ here = ⟨some here, left, true⟩ := by
  simp [toPage]

theorem toPage_other {here page : Int64} (h : here ≠ page) (left : List Int64)
    (repeated : Bool) :
    toPage ⟨some here, left, repeated⟩ page = ⟨some page, here :: left, false⟩ := by
  simp [toPage, h]

/-- The trail after going back: a repetition is taken back first. -/
def back (t : Trail) : Trail :=
  if t.repeated then { t with repeated := false }
  else match t.left with
    | [] => t
    | page :: rest => ⟨some page, rest, false⟩

/-- The trail after a turn, where only some pages may be turned to. -/
def turn (allows : Int64 → Bool) (t : Trail) : Turn → Trail
  | .toPage page => if allows page then t.toPage page else t
  | .back => t.back

def follow (allows : Int64 → Bool) (t : Trail) (turns : List Turn) : Trail :=
  turns.foldl (turn allows) t

/-- No change of page on the trail leads from a page to itself, and without a current page
there is no trail. -/
structure WellFormed (t : Trail) : Prop where
  distinct : (t.current.toList ++ t.left).IsChain (· ≠ ·)
  rooted : t.current = none → t.left = [] ∧ t.repeated = false

theorem wellFormed_start (page : Option Int64) : (start page).WellFormed where
  distinct := by cases page <;> simp [start]
  rooted := fun _ => ⟨rfl, rfl⟩

theorem WellFormed.toPage {t : Trail} (h : t.WellFormed) (page : Int64) :
    (t.toPage page).WellFormed := by
  obtain ⟨current, left, repeated⟩ := t
  cases current with
  | none =>
      obtain ⟨hleft, hrep⟩ := h.rooted rfl
      simp only at hleft hrep
      subst hleft hrep
      exact ⟨by simp [Trail.toPage], by simp [Trail.toPage]⟩
  | some here =>
      by_cases heq : here = page
      · rw [← heq, toPage_here]
        exact ⟨h.distinct, by simp⟩
      · rw [toPage_other heq]
        exact ⟨List.isChain_cons_cons.mpr ⟨Ne.symm heq, h.distinct⟩, by simp⟩

theorem WellFormed.back {t : Trail} (h : t.WellFormed) : t.back.WellFormed := by
  obtain ⟨current, left, repeated⟩ := t
  cases repeated with
  | true => exact ⟨h.distinct, fun hnone => ⟨(h.rooted hnone).1, rfl⟩⟩
  | false =>
      cases left with
      | nil => exact h
      | cons page rest =>
          cases current with
          | none => exact absurd (h.rooted rfl).1 (by simp)
          | some here => exact ⟨(List.isChain_cons_cons.mp h.distinct).2, by simp [Trail.back]⟩

/-- The page left last is another one than the current page. -/
theorem head?_left_ne_current {t : Trail} (h : t.WellFormed) (hleft : t.left ≠ []) :
    t.left.head? ≠ t.current := by
  obtain ⟨current, left, repeated⟩ := t
  obtain ⟨page, rest, rfl⟩ : ∃ page rest, left = page :: rest :=
    List.exists_cons_of_ne_nil hleft
  cases current with
  | none => exact absurd (h.rooted rfl).1 (by simp)
  | some here =>
      have hne : here ≠ page := (List.isChain_cons_cons.mp h.distinct).1
      simpa using hne.symm

/-! ## The history that belongs to a trail -/

/-- The current page and the history that a reader with this trail has. -/
def navigation (t : Trail) : Navigation :=
  ⟨t.current, t.left.reverse ++ if t.repeated then t.current.toList else []⟩

/-- Whether or not the current page is on top of the history, it is so after it has been
remembered. -/
theorem remember_navigation {t : Trail} (h : t.WellFormed) {here : Int64}
    (hcur : t.current = some here) :
    Navigation.remember t.navigation.history here = t.left.reverse ++ [here] := by
  obtain ⟨current, left, repeated⟩ := t
  simp only at hcur
  subst hcur
  cases repeated with
  | true => simp [navigation, Navigation.remember]
  | false =>
      have hlast : left.head? ≠ some here := by
        intro hhead
        exact head?_left_ne_current h (by rintro rfl; simp at hhead) hhead
      simp [navigation, Navigation.remember, hlast]

theorem navigation_toPage {t : Trail} (h : t.WellFormed) (page : Int64) :
    t.navigation.goTo page = (t.toPage page).navigation := by
  obtain ⟨current, left, repeated⟩ := t
  cases current with
  | none =>
      obtain ⟨hleft, hrep⟩ := h.rooted rfl
      simp only at hleft hrep
      subst hleft hrep
      rfl
  | some here =>
      have hremember := remember_navigation h rfl
      by_cases heq : here = page
      · rw [← heq, toPage_here]
        simpa [Navigation.goTo, navigation] using hremember
      · rw [toPage_other heq]
        simpa [Navigation.goTo, navigation] using hremember

theorem navigation_back {t : Trail} (h : t.WellFormed) :
    t.navigation.back?.getD t.navigation = t.back.navigation := by
  obtain ⟨current, left, repeated⟩ := t
  cases repeated with
  | true =>
      cases current with
      | none => exact absurd (h.rooted rfl).2 (by simp)
      | some here => simp [navigation, Navigation.back?, Trail.back]
  | false =>
      cases left with
      | nil => simp [navigation, Navigation.back?, Trail.back]
      | cons page rest => simp [navigation, Navigation.back?, Trail.back]

/-- Where going back on a trail with a history leads to. -/
theorem current_back {t : Trail} (hist : t.navigation.history ≠ []) :
    t.back.current = if t.repeated then t.current else t.left.head? := by
  obtain ⟨current, left, repeated⟩ := t
  cases repeated with
  | true => rfl
  | false =>
      cases left with
      | nil => exact absurd rfl hist
      | cons page rest => rfl

end Trail

/-! ## Turning the pages of a session -/

namespace Session

variable {σ ν : Type}

def turn (s : Session σ ν) : Turn → Session σ ν
  | .toPage page => (s.goToPage page).1
  | .back => s.goBack.1

def turnAll (s : Session σ ν) (turns : List Turn) : Session σ ν := turns.foldl turn s

/-- Turning pages does not change which pages may be turned to. -/
theorem allows_turn (s : Session σ ν) (t : Turn) : (s.turn t).allows = s.allows := by
  cases t with
  | toPage page =>
      simp only [turn, goToPage]
      split <;> rfl
  | back =>
      simp only [turn, goBack]
      split <;> rfl

theorem goToPage_navigation (s : Session σ ν) (page : Int64) :
    (s.goToPage page).1.navigation =
      if s.allows page then s.navigation.goTo page else s.navigation := by
  unfold goToPage
  split <;> rfl

theorem goBack_navigation (s : Session σ ν) :
    s.goBack.1.navigation = s.navigation.back?.getD s.navigation := by
  unfold goBack
  split <;> simp_all [publish]

theorem turn_navigation {s : Session σ ν} {t : Trail} (hs : s.navigation = t.navigation)
    (ht : t.WellFormed) (step : Turn) :
    (s.turn step).navigation = (t.turn s.allows step).navigation ∧
      (t.turn s.allows step).WellFormed := by
  cases step with
  | toPage page =>
      rw [turn, goToPage_navigation, hs, Trail.turn, Trail.navigation_toPage ht]
      split
      · exact ⟨rfl, ht.toPage page⟩
      · exact ⟨rfl, ht⟩
  | back =>
      rw [turn, goBack_navigation, hs, Trail.turn, Trail.navigation_back ht]
      exact ⟨rfl, ht.back⟩

/-- Turn by turn, a session goes where the trail of its reader goes. -/
theorem turnAll_navigation : ∀ (turns : List Turn) {s : Session σ ν} {t : Trail},
    s.navigation = t.navigation → t.WellFormed →
      (s.turnAll turns).navigation = (t.follow s.allows turns).navigation ∧
        (t.follow s.allows turns).WellFormed
  | [], _, _, hs, ht => ⟨hs, ht⟩
  | step :: rest, s, t, hs, ht => by
      obtain ⟨hs', ht'⟩ := turn_navigation hs ht step
      have hrest := turnAll_navigation rest hs' ht'
      rw [allows_turn] at hrest
      exact hrest

/-- The trail of a reader who opens a story and makes some turns. -/
def trail (s : Session σ ν) (story : Story) (turns : List Turn) : Trail :=
  (Trail.start (story.firstPage?.map (·.id))).follow
    (fun page => !s.settings.strictNavigation || story.hasPage page) turns

section Law

variable [WordSource σ] [RenderNode ν]

theorem load_turnAll_navigation (s : Session σ ν) (story : Story) (preserve : Bool)
    (turns : List Turn) :
    ((s.load story preserve).turnAll turns).navigation = (s.trail story turns).navigation ∧
      (s.trail story turns).WellFormed := by
  have hstart : (s.load story preserve).navigation =
      (Trail.start (story.firstPage?.map (·.id))).navigation := load_navigation s story preserve
  have hrun := turnAll_navigation turns hstart (Trail.wellFormed_start _)
  have hallows : (s.load story preserve).allows =
      fun page => !s.settings.strictNavigation || story.hasPage page := by
    funext page
    simp [allows]
  rw [hallows] at hrun
  exact hrun

/-- Going back, where there is a history, makes the page current that was current before the
latest change of page not undone yet, and so changes the page; but a repetition of the current
page is taken back first, and that does not change it. -/
theorem goBack_undoes_latest_change (s : Session σ ν) (story : Story) (preserve : Bool)
    (turns : List Turn)
    (hist : ((s.load story preserve).turnAll turns).navigation.history ≠ []) :
    let played := (s.load story preserve).turnAll turns
    let trail := s.trail story turns
    played.navigation.current = trail.current ∧
      played.goBack.1.navigation.current =
        (if trail.repeated then trail.current else trail.left.head?) ∧
      (played.goBack.1.navigation.current ≠ played.navigation.current ↔
        trail.repeated = false) := by
  intro played trail
  obtain ⟨hnav, hwf⟩ : played.navigation = trail.navigation ∧ trail.WellFormed :=
    load_turnAll_navigation s story preserve turns
  have hhist : trail.navigation.history ≠ [] := hnav ▸ hist
  have hback : played.goBack.1.navigation.current =
      if trail.repeated then trail.current else trail.left.head? := by
    rw [goBack_navigation, hnav, Trail.navigation_back hwf]
    exact Trail.current_back hhist
  refine ⟨congrArg Navigation.current hnav, hback, ?_⟩
  rw [hback, hnav]
  show _ ≠ trail.current ↔ _
  cases hrep : trail.repeated with
  | true => simp
  | false =>
      have hleft : trail.left ≠ [] := by
        intro hnil
        exact hhist (by simp [Trail.navigation, hnil, hrep])
      simpa using Trail.head?_left_ne_current hwf hleft

def twoPages : Story := ⟨"Two pages", [⟨1, [], [], none⟩, ⟨2, [], [], none⟩], []⟩

/-- A repetition that is left behind does not stand in the way back. -/
theorem goBack_after_left_repetition :
    let fresh : Session WordScript SceneNode := .new {} ∅ ⟨[]⟩
    let played := (fresh.load twoPages true).turnAll [.toPage 2, .toPage 2, .toPage 1]
    played.navigation.history ≠ [] ∧ played.goBack.1.navigation.current = some 2 := by
  intro fresh played
  have hist : played.navigation.history ≠ [] := by decide
  have hlaw := goBack_undoes_latest_change fresh twoPages true
    [.toPage 2, .toPage 2, .toPage 1] hist
  exact ⟨hist, hlaw.2.1.trans (by decide)⟩

/-- After turning to the second page twice the page left last is the first one, but going back
stays at the second. -/
theorem goBack_stays_at_repeated_page :
    let fresh : Session WordScript SceneNode := .new {} ∅ ⟨[]⟩
    let turns := [.toPage 2, .toPage 2]
    let played := (fresh.load twoPages true).turnAll turns
    played.navigation.history ≠ [] ∧ (fresh.trail twoPages turns).left.head? = some 1 ∧
      played.goBack.1.navigation.current = some 2 ∧ played.navigation.current = some 2 := by
  decide

end Law

end Session

end Storybook
