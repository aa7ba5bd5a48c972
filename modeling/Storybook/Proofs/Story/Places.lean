/-
# `Storybook.Proofs.Story.Places` — the places where statements stand

A story is made of pieces, and pieces are made of pieces:

| piece | what stands in it |
| :-- | :-- |
| a story | its statements, then its pages |
| a page | its statements, then its agents |
| a button | its handlers |
| a choice | its agents, then those for the other case |
| a loop | its agents |
| a wait among agents | its actions, then its agents |
| a timer among agents | its actions |
| a handler | its statements |
| a wait or a timer among statements | its actions |
| any other agent or statement | nothing |

A *place* is the way down to a piece: which piece in the story, which one in that, and so on.  The
walk through the statements of a story goes to every place where a statement stands, and to each of
them once (`tour_allStatements`).  It is enough to show this for the pieces of a piece, one after
the other (`Tour.append`), and to go down from a piece to those in it (`Tour.inside`).
-/
import Mathlib.Data.List.Nodup
import Storybook.Story.Traversal

namespace Storybook

/-- A piece of a story. -/
inductive Piece where
  | story (story : Story)
  | page (page : Page)
  | agent (agent : Agent)
  | handler (handler : Handler)
  | statement (statement : Statement)

namespace Piece

/-! ## Places -/

/-- The pieces that stand in a piece, without those inside them. -/
def pieces : Piece → List Piece
  | story s => s.statements.map statement ++ s.pages.map page
  | page p => p.statements.map statement ++ p.agents.map agent
  | agent (.button a) => a.handlers.map handler
  | agent (.choice _ agents elseAgents) => agents.map agent ++ elseAgents.map agent
  | agent (.forEach _ _ agents) => agents.map agent
  | agent (.wait _ agents actions) => actions.map statement ++ agents.map agent
  | agent (.timer _ _ actions) => actions.map statement
  | agent (.text _) | agent (.image _) | agent (.video _) => []
  | handler h => h.statements.map statement
  | statement (.wait _ actions) | statement (.timer _ _ actions) => actions.map statement
  | statement _ => []

/-- The piece at a place, which is given by the numbers of the pieces on the way down to it. -/
def at? : Piece → List Nat → Option Piece
  | piece, [] => some piece
  | piece, i :: place => piece.pieces[i]?.bind fun child => child.at? place

/-- The piece at a place in one of several pieces. -/
def among? (pieces : List Piece) (place : Nat × List Nat) : Option Piece :=
  pieces[place.1]?.bind fun child => child.at? place.2

/-- A place behind some pieces. -/
def later (count : Nat) (place : Nat × List Nat) : Nat × List Nat := (count + place.1, place.2)

theorem later_injective (count : Nat) : (later count).Injective := by
  rintro ⟨i, place⟩ ⟨j, place'⟩ heq
  obtain ⟨hij, rfl⟩ := Prod.mk.inj heq
  obtain rfl : i = j := Nat.add_left_cancel hij
  rfl

theorem exists_later {count : Nat} {place : Nat × List Nat} (h : count ≤ place.1) :
    ∃ before, later count before = place := by
  obtain ⟨i, rest⟩ := place
  obtain ⟨j, rfl⟩ := Nat.exists_eq_add_of_le h
  exact ⟨(j, rest), rfl⟩

variable {ps qs : List Piece} {place : Nat × List Nat}

theorem lt_length_of_among? {piece : Piece} (h : among? ps place = some piece) :
    place.1 < ps.length := by
  refine Nat.lt_of_not_le fun hle => ?_
  rw [among?, List.getElem?_eq_none hle] at h
  cases h

theorem among?_append_left (h : place.1 < ps.length) :
    among? (ps ++ qs) place = among? ps place := by
  rw [among?, among?, List.getElem?_append_left h]

theorem among?_append_later : among? (ps ++ qs) (later ps.length place) = among? qs place := by
  rw [among?, later, List.getElem?_append_right (Nat.le_add_right _ _), Nat.add_sub_cancel_left]
  rfl

end Piece

open Piece

/-! ## Tours -/

/-- Whether some statements are those that stand at places, each place taken once. -/
def Tour {π : Type} (find : π → Option Piece) (statements : List Statement) : Prop :=
  ∃ places : List π, places.Nodup ∧ places.map find = statements.map (some ∘ statement) ∧
    ∀ place s, find place = some (.statement s) → place ∈ places

namespace Tour

variable {π ρ : Type} {l m : List Statement}

/-- The same tour with other names for the places. -/
theorem image {find : π → Option Piece} {find' : ρ → Option Piece} (h : Tour find l) (f : π → ρ)
    (hinj : f.Injective) (hfind : ∀ place, find' (f place) = find place)
    (hall : ∀ place s, find' place = some (.statement s) → ∃ before, f before = place) :
    Tour find' l := by
  obtain ⟨places, hnodup, hmap, hmem⟩ := h
  refine ⟨places.map f, hnodup.map hinj, ?_, ?_⟩
  · rw [List.map_map, ← hmap]
    exact List.map_congr_left fun place _ => hfind place
  · intro place s hs
    obtain ⟨before, rfl⟩ := hall place s hs
    exact List.mem_map_of_mem (hmem before s ((hfind before).symm.trans hs))

theorem nil : Tour (among? []) [] :=
  ⟨[], .nil, rfl, fun _ _ hs => nomatch hs⟩

theorem single {piece : Piece} (h : Tour piece.at? l) : Tour (among? [piece]) l := by
  refine h.image (fun place => (0, place)) (fun _ _ heq => (Prod.mk.inj heq).2) (fun _ => rfl) ?_
  rintro ⟨i, place⟩ s hs
  cases i with
  | zero => exact ⟨place, rfl⟩
  | succ i => cases hs

theorem lt_length_of_mem {ps : List Piece} {places : List (Nat × List Nat)}
    (hmap : places.map (among? ps) = l.map (some ∘ statement)) :
    ∀ place ∈ places, place.1 < ps.length := by
  intro place hplace
  have hfound : among? ps place ∈ l.map (some ∘ statement) := hmap ▸ List.mem_map_of_mem hplace
  obtain ⟨s, -, hs⟩ := List.mem_map.mp hfound
  exact lt_length_of_among? hs.symm

/-- A tour of some pieces and one of the pieces behind them make a tour of all. -/
theorem append {ps qs : List Piece} (h : Tour (among? ps) l) (h' : Tour (among? qs) m) :
    Tour (among? (ps ++ qs)) (l ++ m) := by
  obtain ⟨places, hnodup, hmap, hmem⟩ := h
  obtain ⟨places', hnodup', hmap', hmem'⟩ := h'
  have hlt := lt_length_of_mem hmap
  refine ⟨places ++ places'.map (later ps.length), ?_, ?_, ?_⟩
  · refine List.nodup_append.mpr ⟨hnodup, hnodup'.map (later_injective _), ?_⟩
    rintro place hplace _ hother rfl
    obtain ⟨before, -, rfl⟩ := List.mem_map.mp hother
    exact absurd (hlt _ hplace) (Nat.not_lt.mpr (Nat.le_add_right _ _))
  · have hleft : places.map (among? (ps ++ qs)) = places.map (among? ps) :=
      List.map_congr_left fun place hplace => among?_append_left (hlt place hplace)
    have hright : (places'.map (later ps.length)).map (among? (ps ++ qs)) =
        places'.map (among? qs) := by
      rw [List.map_map]
      exact List.map_congr_left fun place _ => among?_append_later
    rw [List.map_append, List.map_append, hleft, hright, hmap, hmap']
  · intro place s hs
    by_cases hplace : place.1 < ps.length
    · rw [among?_append_left hplace] at hs
      exact List.mem_append_left _ (hmem place s hs)
    · obtain ⟨before, rfl⟩ := exists_later (Nat.not_lt.mp hplace)
      rw [among?_append_later] at hs
      exact List.mem_append_right _ (List.mem_map_of_mem (hmem' before s hs))

theorem cons {piece : Piece} {ps : List Piece} (h : Tour piece.at? l) (h' : Tour (among? ps) m) :
    Tour (among? (piece :: ps)) (l ++ m) :=
  h.single.append h'

theorem cons_injective :
    (fun place : Nat × List Nat => place.1 :: place.2).Injective := by
  rintro ⟨i, place⟩ ⟨j, place'⟩ heq
  obtain ⟨rfl, rfl⟩ := List.cons.inj heq
  rfl

/-- What stands in a piece that is no statement stands inside it. -/
theorem inside {piece : Piece} (h : Tour (among? piece.pieces) l)
    (hpiece : ∀ s, piece ≠ .statement s) : Tour piece.at? l := by
  refine h.image _ cons_injective (fun _ => rfl) ?_
  intro place s hs
  cases place with
  | nil => exact absurd (Option.some.inj hs) (hpiece s)
  | cons i place => exact ⟨(i, place), rfl⟩

/-- A statement is met before those inside it. -/
theorem statement {s : Statement} (h : Tour (among? (Piece.statement s).pieces) l) :
    Tour (Piece.statement s).at? (s :: l) := by
  obtain ⟨places, hnodup, hmap, hmem⟩ := h
  refine ⟨[] :: places.map (fun place => place.1 :: place.2), ?_, ?_, ?_⟩
  · refine List.nodup_cons.mpr ⟨?_, hnodup.map cons_injective⟩
    intro hnil
    obtain ⟨place, -, hplace⟩ := List.mem_map.mp hnil
    cases hplace
  · rw [List.map_cons, List.map_map, List.map_cons, ← hmap]
    rfl
  · intro place t ht
    cases place with
    | nil => exact List.mem_cons_self
    | cons i place =>
      exact List.mem_cons_of_mem _ (List.mem_map_of_mem (hmem (i, place) t ht))

/-- A tour of pieces of one sort, from the tours of each of them. -/
theorem flatMap {α : Type} {piece : α → Piece} {walk : α → List Statement} {xs : List α}
    (h : ∀ x ∈ xs, Tour (piece x).at? (walk x)) :
    Tour (among? (xs.map piece)) (xs.flatMap walk) := by
  induction xs with
  | nil => exact nil
  | cons x rest ih =>
    obtain ⟨hx, hrest⟩ := List.forall_mem_cons.mp h
    exact hx.cons (ih hrest)

end Tour

/-! ## Tours of the walks through a story -/

mutual

/-- The walk through a statement is a tour of it. -/
theorem tour_subtree : (s : Statement) → Tour (statement s).at? s.subtree
  | .wait _ actions | .timer _ _ actions => .statement (tour_subtrees actions)
  | .init .. | .set .. | .add .. | .subtract .. | .goToPage _ | .goBack | .move .. | .tween ..
  | .animate .. | .stopAnimation _ | .playSound .. | .stopSound _ | .stopMusic | .music ..
  | .unknown => .statement .nil

theorem tour_subtrees : (l : List Statement) →
    Tour (among? (l.map statement)) (Statement.subtrees l)
  | [] => .nil
  | s :: rest => (tour_subtree s).cons (tour_subtrees rest)

end

theorem tour_handler (h : Handler) : Tour (handler h).at? (Statement.subtrees h.statements) :=
  .inside (tour_subtrees h.statements) fun _ heq => nomatch heq

mutual

/-- The walk through the statements of an agent is a tour of it. -/
theorem tour_statements : (a : Agent) → Tour (agent a).at? a.statements
  | .button a => .inside (.flatMap fun h (_ : h ∈ a.handlers) => tour_handler h)
      fun _ heq => nomatch heq
  | .choice _ agents elseAgents =>
    .inside ((tour_statementsOf agents).append (tour_statementsOf elseAgents))
      fun _ heq => nomatch heq
  | .forEach _ _ agents => .inside (tour_statementsOf agents) fun _ heq => nomatch heq
  | .wait _ agents actions =>
    .inside ((tour_subtrees actions).append (tour_statementsOf agents)) fun _ heq => nomatch heq
  | .timer _ _ actions => .inside (tour_subtrees actions) fun _ heq => nomatch heq
  | .text _ | .image _ | .video _ => .inside .nil fun _ heq => nomatch heq

theorem tour_statementsOf : (l : List Agent) →
    Tour (among? (l.map agent)) (Agent.statementsOf l)
  | [] => .nil
  | a :: rest => (tour_statements a).cons (tour_statementsOf rest)

end

theorem tour_page (p : Page) :
    Tour (page p).at? (Statement.subtrees p.statements ++ Agent.statementsOf p.agents) :=
  .inside ((tour_subtrees p.statements).append (tour_statementsOf p.agents))
    fun _ heq => nomatch heq

theorem tour_story (s : Story) : Tour (story s).at? s.allStatements :=
  .inside ((tour_subtrees s.statements).append (.flatMap fun p _ => tour_page p))
    fun _ heq => nomatch heq

theorem Tour.mem_iff {π : Type} {find : π → Option Piece} {l : List Statement} (h : Tour find l)
    (s : Statement) : s ∈ l ↔ ∃ place, find place = some (.statement s) := by
  obtain ⟨places, -, hmap, hmem⟩ := h
  constructor
  · intro hs
    have hfound : some (Piece.statement s) ∈ places.map find :=
      hmap ▸ List.mem_map_of_mem (f := some ∘ Piece.statement) hs
    obtain ⟨place, -, hplace⟩ := List.mem_map.mp hfound
    exact ⟨place, hplace⟩
  · rintro ⟨place, hplace⟩
    have hfound : find place ∈ l.map (some ∘ Piece.statement) :=
      hmap ▸ List.mem_map_of_mem (hmem place s hplace)
    rw [hplace] at hfound
    obtain ⟨t, ht, heq⟩ := List.mem_map.mp hfound
    exact Piece.statement.inj (Option.some.inj heq) ▸ ht

/-- The walk through the statements of a story meets what stands at each place, once at each; and
the variables of the story are those that an `init` or a `set` at some place writes. -/
theorem Story.tour_allStatements (story : Story) :
    Tour (Piece.story story).at? story.allStatements ∧
      ∀ name, name ∈ story.declared ↔ ∃ place value,
        (Piece.story story).at? place = some (.statement (.init name value)) ∨
          (Piece.story story).at? place = some (.statement (.set name value)) := by
  have htour := tour_story story
  refine ⟨htour, fun name => ?_⟩
  rw [declared, List.mem_filterMap]
  constructor
  · rintro ⟨s, hs, hname⟩
    obtain ⟨place, hplace⟩ := (htour.mem_iff s).mp hs
    cases s with
    | init other value =>
      obtain rfl : other = name := Option.some.inj hname
      exact ⟨place, value, .inl hplace⟩
    | set other value =>
      obtain rfl : other = name := Option.some.inj hname
      exact ⟨place, value, .inr hplace⟩
    | _ => cases hname
  · rintro ⟨place, value, hplace | hplace⟩
    · exact ⟨_, (htour.mem_iff _).mpr ⟨place, hplace⟩, rfl⟩
    · exact ⟨_, (htour.mem_iff _).mpr ⟨place, hplace⟩, rfl⟩

end Storybook
