/-
# `Storybook.Proofs.Session.PageOrder` — reading a story from its first page to its last

A reader who always turns to the next page, and then goes all the way back, meets the pages of a
story in order and in reverse, if no two pages share an id:

| after | current page | history |
| :-- | :-- | :-- |
| loading | the first one | nothing |
| `k` pages on | the one behind `k` others | the ids of those `k`, in order |
| and then `j` pages back | the one behind `k - j` others | the ids of those `k - j` |

So the number of pages in front of the current one tells everything (`Session.IsOn`).  A step on
adds one to it (`IsOn.goToNext`) and a step back takes one off (`IsOn.goBack`).  That the ids differ
is needed on the way on: a page is found by its id, and the page that is left is remembered only if
it was not remembered last.  Which pages may be turned to does not matter, as the next page is
always one of the story.
-/
import Mathlib.Data.List.Nodup
import Mathlib.Logic.Function.Iterate
import Storybook.Proofs.Session.Trail

namespace Storybook

/-! ## Navigation along the pages of a story -/

namespace Story

def pageIds (story : Story) : List Int64 := story.pages.map (·.id)

/-- On a page behind so many others, which are the way back. -/
def navigationAt (story : Story) (before : Nat) : Navigation :=
  ⟨story.pageIds[before]?, story.pageIds.take before⟩

variable {story : Story} {before : Nat}

theorem length_pageIds : story.pageIds.length = story.pages.length := List.length_map _

theorem getElem?_pageIds (h : before < story.pages.length) :
    story.pageIds[before]? = some story.pages[before].id := by
  rw [pageIds, List.getElem?_map, List.getElem?_eq_getElem h]
  rfl

theorem take_succ_pageIds (h : before < story.pages.length) :
    story.pageIds.take (before + 1) = story.pageIds.take before ++ [story.pages[before].id] := by
  rw [List.take_add_one, getElem?_pageIds h]
  rfl

theorem navigationAt_eq (h : before < story.pages.length) :
    story.navigationAt before = ⟨some story.pages[before].id, story.pageIds.take before⟩ := by
  rw [navigationAt, getElem?_pageIds h]

/-- A page is the first one with its id. -/
theorem id_ne_of_lt (hids : story.pageIds.Nodup) {i : Nat} (hi : i < before)
    (h : before < story.pages.length) : story.pages[i].id ≠ story.pages[before].id := by
  intro heq
  have hget : story.pageIds[i]? = story.pageIds[before]? := by
    rw [getElem?_pageIds h, getElem?_pageIds (hi.trans h), heq]
  exact hi.ne ((List.getElem?_inj (length_pageIds ▸ hi.trans h) hids).mp hget)

theorem page?_id (hids : story.pageIds.Nodup) (h : before < story.pages.length) :
    story.page? story.pages[before].id = some story.pages[before] := by
  refine List.find?_eq_some_iff_getElem.mpr ⟨beq_self_eq_true _, before, h, rfl, fun i hi => ?_⟩
  simpa using id_ne_of_lt hids hi h

theorem findIdx?_id (hids : story.pageIds.Nodup) (h : before < story.pages.length) :
    story.pages.findIdx? (·.id == story.pages[before].id) = some before := by
  refine List.findIdx?_eq_some_iff_getElem.mpr ⟨h, beq_self_eq_true _, fun i hi => ?_⟩
  simpa using id_ne_of_lt hids hi h

/-- The page that is left is not among those before it, so it is remembered. -/
theorem goTo_navigationAt (hids : story.pageIds.Nodup) (h : before + 1 < story.pages.length) :
    (story.navigationAt before).goTo story.pages[before + 1].id =
      story.navigationAt (before + 1) := by
  have hlt := Nat.lt_of_succ_lt h
  have hnew : (story.pageIds.take before).getLast? ≠ some story.pages[before].id := by
    intro hlast
    have htake : (story.pageIds.take before ++ [story.pages[before].id]).Nodup :=
      take_succ_pageIds hlt ▸ hids.sublist (List.take_sublist _ _)
    exact (List.nodup_append.mp htake).2.2 _ (List.mem_of_getLast? hlast) _
      (List.mem_singleton_self _) rfl
  rw [navigationAt_eq hlt, navigationAt_eq h, take_succ_pageIds hlt]
  exact congrArg (Navigation.mk _) (if_neg hnew)

theorem back?_navigationAt_succ (h : before < story.pages.length) :
    (story.navigationAt (before + 1)).back? = some (story.navigationAt before) := by
  unfold Navigation.back?
  rw [navigationAt_eq h, navigationAt, take_succ_pageIds h, List.getLast?_concat,
    List.dropLast_concat]
  rfl

theorem back?_navigationAt_zero : (story.navigationAt 0).back? = none := rfl

end Story

/-! ## Sessions along the pages of a story -/

namespace Session

variable {σ ν : Type}

/-- Turns to the next page of the story, if there is one; tells whether a page is turned. -/
def goToNext (s : Session σ ν) : Session σ ν × Bool :=
  match s.nextPage? with
  | some page => s.goToPage page
  | none => (s, false)

/-- The session after so many turns to the next page. -/
def readOn (s : Session σ ν) (count : Nat) : Session σ ν := (fun s => s.goToNext.1)^[count] s

/-- The session after going back so many times. -/
def readBack (s : Session σ ν) (count : Nat) : Session σ ν := (fun s => s.goBack.1)^[count] s

/-- Whether a session plays a story and is on its page behind so many others. -/
structure IsOn (story : Story) (before : Nat) (s : Session σ ν) : Prop where
  story_eq : s.story = some story
  lt_length : before < story.pages.length
  navigation_eq : s.navigation = story.navigationAt before

variable {story : Story} {before count : Nat} {s : Session σ ν}

theorem goToPage_story (s : Session σ ν) (page : Int64) : (s.goToPage page).1.story = s.story := by
  unfold goToPage
  split <;> rfl

theorem goBack_story (s : Session σ ν) : s.goBack.1.story = s.story := by
  unfold goBack
  split <;> rfl

/-- Going back tells whether there is a way back. -/
theorem goBack_told (s : Session σ ν) : s.goBack.2 = s.navigation.back?.isSome := by
  unfold goBack
  split <;> simp_all

theorem allows_of_hasPage (hstory : s.story = some story) {page : Int64}
    (h : story.hasPage page = true) : s.allows page = true := by
  unfold allows
  rw [hstory, Option.any_some, h, Bool.or_true]

namespace IsOn

theorem current (h : IsOn story before s) : s.navigation.current = story.pageIds[before]? := by
  rw [h.navigation_eq]
  rfl

/-- The current page is the one behind so many others. -/
theorem currentPage? (hids : story.pageIds.Nodup) (h : IsOn story before s) :
    s.currentPage? = story.pages[before]? := by
  unfold Session.currentPage?
  rw [h.current, h.story_eq, Story.getElem?_pageIds h.lt_length,
    List.getElem?_eq_getElem h.lt_length]
  exact Story.page?_id hids h.lt_length

theorem nextPage? (hids : story.pageIds.Nodup) (h : IsOn story before s) :
    s.nextPage? = story.pageIds[before + 1]? := by
  unfold Session.nextPage?
  rw [h.current, h.story_eq, Story.getElem?_pageIds h.lt_length]
  simp only [Option.bind_eq_bind, Option.bind_some, Story.findIdx?_id hids h.lt_length]
  rw [Story.pageIds, List.getElem?_map]
  exact Option.map_eq_bind.symm

/-- A step on: the page is turned, whatever the settings, as it is one of the story. -/
theorem goToNext (hids : story.pageIds.Nodup) (h : IsOn story before s)
    (hnext : before + 1 < story.pages.length) :
    IsOn story (before + 1) s.goToNext.1 ∧ s.goToNext.2 = true := by
  have hstep : s.goToNext = s.goToPage story.pages[before + 1].id := by
    unfold Session.goToNext
    rw [h.nextPage? hids, Story.getElem?_pageIds hnext]
  have hpage : story.hasPage story.pages[before + 1].id = true := by
    rw [Story.hasPage, Story.page?_id hids hnext]
    rfl
  have hallows := allows_of_hasPage h.story_eq hpage
  rw [hstep]
  refine ⟨⟨(goToPage_story s _).trans h.story_eq, hnext, ?_⟩, ?_⟩
  · rw [goToPage_navigation, if_pos hallows, h.navigation_eq]
    exact Story.goTo_navigationAt hids hnext
  · unfold goToPage
    rw [if_pos hallows]

/-- On the last page there is no step on. -/
theorem goToNext_last (hids : story.pageIds.Nodup) (h : IsOn story before s)
    (hlast : before + 1 = story.pages.length) : s.nextPage? = none ∧ s.goToNext = (s, false) := by
  have hnone : s.nextPage? = none := by
    rw [h.nextPage? hids, List.getElem?_eq_none]
    rw [Story.length_pageIds, hlast]
  refine ⟨hnone, ?_⟩
  unfold Session.goToNext
  rw [hnone]

/-- A step back. -/
theorem goBack (h : IsOn story (before + 1) s) :
    IsOn story before s.goBack.1 ∧ s.goBack.2 = true := by
  have hlt := Nat.lt_of_succ_lt h.lt_length
  have hback : s.navigation.back? = some (story.navigationAt before) := by
    rw [h.navigation_eq, Story.back?_navigationAt_succ hlt]
  refine ⟨⟨(goBack_story s).trans h.story_eq, hlt, ?_⟩, ?_⟩
  · rw [goBack_navigation, hback]
    rfl
  · rw [goBack_told, hback]
    rfl

theorem goToNext_told (hids : story.pageIds.Nodup) (h : IsOn story before s) :
    s.goToNext.2 = true ↔ before + 1 < story.pages.length := by
  constructor
  · intro htold
    refine lt_of_le_of_ne h.lt_length fun hlast => ?_
    rw [(h.goToNext_last hids hlast).2] at htold
    exact nomatch htold
  · exact fun hnext => (h.goToNext hids hnext).2

theorem goBack_told (h : IsOn story before s) : s.goBack.2 = true ↔ 0 < before := by
  cases before with
  | zero =>
    rw [Session.goBack_told, h.navigation_eq, Story.back?_navigationAt_zero]
    exact iff_of_false Bool.false_ne_true (Nat.lt_irrefl 0)
  | succ before => exact iff_of_true h.goBack.2 (Nat.succ_pos before)

/-! ### Many steps -/

theorem readOn (hids : story.pageIds.Nodup) (h : IsOn story before s)
    (hlt : before + count < story.pages.length) : IsOn story (before + count) (s.readOn count) := by
  induction count with
  | zero => exact h
  | succ count ih =>
    unfold Session.readOn at *
    rw [Function.iterate_succ_apply']
    exact ((ih (Nat.lt_of_succ_lt hlt)).goToNext hids hlt).1

theorem readBack (h : IsOn story (before + count) s) : IsOn story before (s.readBack count) := by
  induction count generalizing s with
  | zero => exact h
  | succ count ih => exact ih h.goBack.1

end IsOn

theorem isOn_load [WordSource σ] [RenderNode ν] (s : Session σ ν) (story : Story) (preserve : Bool)
    (hpages : story.pages ≠ []) : IsOn story 0 (s.load story preserve) where
  story_eq := load_story s story preserve
  lt_length := List.length_pos_iff.mpr hpages
  navigation_eq := by
    rw [load_navigation, Story.navigationAt, Story.pageIds, List.getElem?_map, Story.firstPage?,
      List.head?_eq_getElem?]
    rfl

/-! ## From the first page to the last and back -/

theorem map_range_eq {α : Type} {l : List α} {f : Nat → Option α} {count : Nat}
    (hcount : l.length = count) (h : ∀ k < count, f k = l[k]?) :
    (List.range count).map f = l.map some := by
  subst hcount
  refine List.ext_getElem (by simp) fun k hk hk' => ?_
  have hlt : k < l.length := List.length_map some ▸ hk'
  rw [List.getElem_map, List.getElem_map, List.getElem_range, h k hlt,
    List.getElem?_eq_getElem hlt]

section Law

variable [WordSource σ] [RenderNode ν]

/-- A loaded story with pages whose ids differ, read on to the next page as long as there is one,
shows all of its pages in order; at each page the way back holds the ids of those before it, and
only the last page has none behind it.  Going back from there as often as the history is long
shows the pages in reverse, down to the first one without a way back. -/
theorem readOn_readBack (s : Session σ ν) (story : Story) (preserve : Bool)
    (hpages : story.pages ≠ []) (hids : story.pageIds.Nodup) :
    let count := story.pages.length
    let loaded := s.load story preserve
    let atEnd := loaded.readOn (count - 1)
    (List.range count).map (fun k => (loaded.readOn k).currentPage?) = story.pages.map some ∧
      (∀ k < count,
        (loaded.readOn k).navigation = ⟨story.pageIds[k]?, story.pageIds.take k⟩ ∧
          (loaded.readOn k).nextPage? = story.pageIds[k + 1]? ∧
          ((loaded.readOn k).goToNext.2 = true ↔ k + 1 < count)) ∧
      atEnd.nextPage? = none ∧ atEnd.navigation.history.length = count - 1 ∧
      (List.range count).map (fun k => (atEnd.readBack k).currentPage?) =
        story.pages.reverse.map some ∧
      (∀ k < count,
        (atEnd.readBack k).navigation =
            ⟨story.pageIds[count - 1 - k]?, story.pageIds.take (count - 1 - k)⟩ ∧
          ((atEnd.readBack k).goBack.2 = true ↔ k < count - 1)) ∧
      (atEnd.readBack atEnd.navigation.history.length).navigation =
        .reset (story.firstPage?.map (·.id)) := by
  intro count loaded atEnd
  have hpos : 0 < count := List.length_pos_iff.mpr hpages
  have hstart : IsOn story 0 loaded := isOn_load s story preserve hpages
  have hforth (k : Nat) (hk : k < count) : IsOn story k (loaded.readOn k) := by
    have h : IsOn story (0 + k) (loaded.readOn k) :=
      hstart.readOn hids ((Nat.zero_add k).symm ▸ hk)
    rwa [Nat.zero_add] at h
  have hend : IsOn story (count - 1) atEnd := hforth _ (Nat.sub_one_lt_of_lt hpos)
  have hback (k : Nat) (hk : k < count) : IsOn story (count - 1 - k) (atEnd.readBack k) := by
    refine IsOn.readBack ?_
    rwa [Nat.sub_add_cancel (Nat.le_sub_one_of_lt hk)]
  have hlength : atEnd.navigation.history.length = count - 1 := by
    rw [hend.navigation_eq, Story.navigationAt, List.length_take, Story.length_pageIds]
    exact Nat.min_eq_left (Nat.sub_le _ _)
  refine ⟨?_, fun k hk => ⟨(hforth k hk).navigation_eq, (hforth k hk).nextPage? hids, ?_⟩, ?_,
    hlength, ?_, fun k hk => ⟨(hback k hk).navigation_eq, ?_⟩, ?_⟩
  · exact map_range_eq rfl fun k hk => (hforth k hk).currentPage? hids
  · exact (hforth k hk).goToNext_told hids
  · exact (hend.goToNext_last hids (Nat.sub_add_cancel hpos)).1
  · refine map_range_eq List.length_reverse fun k hk => ?_
    rw [(hback k hk).currentPage? hids, List.getElem?_reverse hk]
  · rw [(hback k hk).goBack_told]
    exact Nat.sub_pos_iff_lt
  · rw [hlength, (hback _ (Nat.sub_one_lt_of_lt hpos)).navigation_eq, Nat.sub_self,
      ← hstart.navigation_eq]
    exact load_navigation s story preserve

/-- A story of three pages whose ids are in no order. -/
def threePages : Story :=
  ⟨"Three pages", [⟨7, [], [], none⟩, ⟨-2, [], [], none⟩, ⟨4, [], [], none⟩], []⟩

/-- The second page on the way on, and the way back from the last one, where only pages of the
story may be turned to. -/
theorem readOn_readBack_threePages :
    let strict : Settings := { runtime := { strictNavigation := true } }
    let fresh : Session WordScript SceneNode := .new strict ∅ ⟨[]⟩
    let loaded := fresh.load threePages true
    threePages.pages ≠ [] ∧ threePages.pageIds.Nodup ∧
      (loaded.readOn 1).navigation = ⟨some (-2), [7]⟩ ∧
      (loaded.readOn 2).nextPage? = none ∧
      ((loaded.readOn 2).readBack 2).navigation = ⟨some 7, []⟩ := by
  intro strict fresh loaded
  have hpages : threePages.pages ≠ [] := List.cons_ne_nil _ _
  have hids : threePages.pageIds.Nodup := by decide
  obtain ⟨-, hforth, hend, -, -, hback, -⟩ :=
    readOn_readBack fresh threePages true hpages hids
  exact ⟨hpages, hids, (hforth 1 (by decide)).1, hend, (hback 2 (by decide)).1⟩

end Law

end Session

end Storybook
