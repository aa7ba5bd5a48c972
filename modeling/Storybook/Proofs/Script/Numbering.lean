/-
# `Storybook.Proofs.Script.Numbering` — the ids of the agents of a script

Assembly takes ids from a source while it goes through the tree; a visit of the story goes through
lists of agents that assembly has split off from the statements.  Both come by the agents in the
same order, so the ids that the visit meets are those of what the script draws, one after the other:

| the script gives | the agent has |
| :-- | :-- |
| an id | this id |
| none | the next id of the source |

`IdSource.idsOf` is this list for any source.  `Assembly.Gives before drawn m names` says of a step
of assembly that it takes just the ids of `drawn`, in order, and that the ids `names v` of its value
are those `before` and these.  From a counter, the `n`-th agent without an id gets its kind and `n`
(`getElem?_idsOf_counter`), and numbers can be told from the ids (`numberedId_inj`).
-/
import Storybook.Proofs.Script.Assembled
import Storybook.Proofs.Script.Site

namespace Storybook

/-! ## The ids of a story -/

namespace Agent

/-- The ids of some agents and of those inside them, in the order of the walk. -/
def ids (agents : List Agent) : List String := (subtrees agents).filterMap id?

theorem ids_append (agents others : List Agent) :
    ids (agents ++ others) = ids agents ++ ids others := by
  unfold ids
  rw [subtrees_append, List.filterMap_append]

theorem ids_of_id? {agent : Agent} {id : String} (h : agent.id? = some id) :
    ids [agent] = [id] := by
  cases agent with
  | text | button | image | video =>
    cases h
    rfl
  | choice | forEach | wait | timer => exact nomatch h

theorem ids_choice (condition : Expression) (agents elseAgents : List Agent) :
    ids [choice condition agents elseAgents] = ids agents ++ ids elseAgents := by
  show (subtrees agents ++ subtrees elseAgents ++ []).filterMap id? = _
  rw [List.append_nil, List.filterMap_append]
  rfl

theorem ids_forEach (name : String) (range : Expression) (agents : List Agent) :
    ids [forEach name range agents] = ids agents := by
  show (subtrees agents ++ []).filterMap id? = _
  rw [List.append_nil]
  rfl

theorem ids_wait (duration : UInt64) (agents : List Agent) (actions : List Statement) :
    ids [wait duration agents actions] = ids agents := by
  show (subtrees agents ++ []).filterMap id? = _
  rw [List.append_nil]
  rfl

end Agent

/-- The ids that a visit of a story meets, in its order. -/
def Story.ids (story : Story) : List String := story.agents.filterMap Agent.id?

theorem Story.ids_eq (story : Story) :
    story.ids = story.pages.flatMap fun page => Agent.ids page.agents := by
  unfold ids agents
  rw [List.filterMap_flatMap]
  rfl

/-- The ids are those of the agents that are drawn, one each. -/
theorem Story.map_id?_drawn (story : Story) :
    story.drawn.map Agent.id? = story.ids.map some := by
  unfold drawn ids
  generalize story.agents = agents
  induction agents with
  | nil => rfl
  | cons agent rest ih =>
    rw [List.filter_cons, List.filterMap_cons, Agent.isDrawn]
    cases hid : agent.id? with
    | none => exact ih
    | some id =>
      rw [Option.isSome_some, if_pos rfl, List.map_cons, List.map_cons, hid, ih]

theorem Story.DrawnAs.map_kind {drawn : List Script.Drawn} {story : Story}
    (h : story.DrawnAs drawn) : story.drawn.map Agent.kind = drawn.map (·.kind) := by
  unfold Story.DrawnAs at h
  generalize story.drawn = agents at h ⊢
  induction h with
  | nil => rfl
  | cons hagent _ ih => rw [List.map_cons, List.map_cons, hagent.1, ih]

namespace Script

/-! ## Ids from a source -/

namespace IdSource

variable {ι : Type} [IdSource ι]

/-- The id of what a script draws, and the source after it. -/
def idOf (ids : ι) (d : Drawn) : String × ι :=
  match d.name with
  | some name => (name, ids)
  | none => next d.kind ids

def idsOf : ι → List Drawn → List String × ι
  | ids, [] => ([], ids)
  | ids, d :: rest =>
    let (first, ids) := idOf ids d
    let (others, ids) := idsOf ids rest
    (first :: others, ids)

theorem idsOf_append (ids : ι) (drawn more : List Drawn) :
    idsOf ids (drawn ++ more) =
      ((idsOf ids drawn).1 ++ (idsOf (idsOf ids drawn).2 more).1,
        (idsOf (idsOf ids drawn).2 more).2) := by
  induction drawn generalizing ids with
  | nil => rfl
  | cons d rest ih =>
    simp only [List.cons_append, idsOf, ih]

end IdSource

open IdSource (idOf idsOf)

theorem agentId_eq {ι : Type} [IdSource ι] (kind : String) (name : Option String) (ids : ι) :
    agentId kind name ids = .ok (idOf ids ⟨kind, name⟩) := by
  cases name with
  | none => rfl
  | some name => rfl

/-! ## Ids along a run of assembly -/

namespace Assembly

variable {ι α β : Type} [IdSource ι]

/-- Whether a step takes the ids of what is drawn, in order, and its value has the ids before it and
these. -/
def Gives (before : List String) (drawn : List Drawn) (m : Assembly ι α)
    (names : α → List String) : Prop :=
  ∀ ids v last, m ids = .ok (v, last) →
    names v = before ++ (idsOf ids drawn).1 ∧ last = (idsOf ids drawn).2

namespace Gives

variable {before : List String} {drawn more : List Drawn} {m : Assembly ι α}
  {f : α → Assembly ι β} {names : α → List String} {others : β → List String}

theorem pure {v : α} (h : names v = before) :
    Gives before [] (Pure.pure v : Assembly ι α) names := by
  intro ids _ _ hout
  cases hout
  exact ⟨h.trans (List.append_nil _).symm, rfl⟩

theorem bind (hm : Gives before drawn m names) (hf : ∀ v, Gives (names v) more (f v) others) :
    Gives before (drawn ++ more) (m >>= f) others := by
  intro ids w last hout
  have hrun : (m >>= f) ids = m ids >>= fun r => f r.1 r.2 := rfl
  rw [hrun] at hout
  cases hfirst : m ids with
  | error e => rw [hfirst] at hout; exact nomatch hout
  | ok r =>
    obtain ⟨v, next⟩ := r
    rw [hfirst] at hout
    obtain ⟨hnames, rfl⟩ := hm ids v next hfirst
    obtain ⟨hothers, hlast⟩ := hf v _ w last hout
    rw [IdSource.idsOf_append, hothers, hnames, List.append_assoc]
    exact ⟨rfl, hlast⟩

theorem map {g : α → β} (hm : Gives before drawn m names) (hg : ∀ v, others (g v) = names v) :
    Gives before drawn (m >>= fun v => Pure.pure (g v)) others := by
  have h := hm.bind fun v => pure (hg v)
  rwa [List.append_nil] at h

theorem stop (position : Position) (f : Fault) :
    Gives before drawn (Script.stop position f : Assembly ι α) names :=
  fun _ _ _ hout => nomatch hout

/-- Nothing comes after a fault. -/
theorem stopped (position : Position) (problem : Fault) :
    Gives before drawn (Script.stop position problem >>= f) others :=
  fun _ _ _ hout => nomatch hout

/-- What takes no ids. -/
theorem checked {c : Checked α} (hf : ∀ v, c = .ok v → Gives before drawn (f v) others) :
    Gives before drawn (monadLift c >>= f) others := by
  intro ids w last hout
  cases c with
  | ok value => exact hf value rfl ids w last hout
  | error e => exact nomatch hout

/-- The ids of a step do not hang on those before it. -/
theorem after (before : List String) (h : Gives [] drawn m names) :
    Gives before drawn m fun v => before ++ names v := by
  intro ids v last hout
  obtain ⟨hnames, hlast⟩ := h ids v last hout
  exact ⟨congrArg (before ++ ·) hnames, hlast⟩

theorem agentId (kind : String) (name : Option String) :
    Gives [] [⟨kind, name⟩] (Script.agentId kind name : Assembly ι String) fun id => [id] := by
  intro ids id last hout
  have hid := Except.ok.inj ((agentId_eq kind name ids).symm.trans hout)
  show [id] = [(idOf ids ⟨kind, name⟩).1] ∧ last = (idOf ids ⟨kind, name⟩).2
  rw [hid]
  exact ⟨rfl, rfl⟩

end Gives

/-- An agent that is drawn, once its id is known. -/
theorem gives_look (kind : String) (allowed : List String) {attributes : List (Located Attribute)}
    {f : Look → String → Assembly ι Agent}
    (hf : ∀ look id, Gives [id] [] (f look id) fun agent => Agent.ids [agent]) :
    Gives [] [⟨kind, writtenId attributes⟩]
      (do
        let look ← Look.collect kind allowed [] {} attributes
        let id ← agentId kind look.id
        f look id) fun agent => Agent.ids [agent] := by
  refine Gives.checked fun look hlook => ?_
  rw [← Look.id_of_collect_empty hlook]
  exact (Gives.agentId kind look.id).bind fun id => hf look id

mutual

theorem assembleAgent_gives (position : Position) : (node : Node) →
    Gives [] node.drawn (assembleAgent position node : Assembly ι Agent) fun agent =>
      Agent.ids [agent]
  | .text _ _ => gives_look "text" textAttributes fun _ _ => .pure (Agent.ids_of_id? rfl)
  | .button _ _ handlers =>
    gives_look "button" buttonAttributes fun _ id =>
      (assembleHandlers_gives [id] handlers).map fun _ => Agent.ids_of_id? rfl
  | .image _ _ => gives_look "image" imageAttributes fun _ _ => .pure (Agent.ids_of_id? rfl)
  | .video _ _ => gives_look "video" videoAttributes fun _ _ => .pure (Agent.ids_of_id? rfl)
  | .choice condition items elseItems =>
    (assembleAgents_gives items).bind fun agents =>
      ((assembleAgents_gives elseItems).after (Agent.ids agents)).map fun elseAgents =>
        Agent.ids_choice (withPlaceholders condition) agents elseAgents
  | .forEach name range items =>
    (assembleAgents_gives items).map fun agents =>
      Agent.ids_forEach name (withPlaceholders range) agents
  | .wait delay items =>
    (assembleBlock_gives false {} items).map fun b =>
      Agent.ids_wait delay.milliseconds b.agents b.statements
  | .timer _ _ items => (assembleStatements_gives [] items).map fun _ => rfl
  | .page .. | .autoAdvance _ | .statement _ => .stop _ _

theorem assembleStatement_gives (before : List String) : (command : Command) →
    Gives before [] (assembleStatement command : Assembly ι Statement) fun _ => before
  | .init .. | .set .. | .add .. | .subtract .. | .goToPage _ | .goBack | .stopAnimation _
  | .playSound .. | .stopSound _ | .stopMusic => .pure rfl
  | .move .. | .animate .. | .music .. => .checked fun _ _ => .pure rfl
  | .tween .. => .checked fun _ _ => .checked fun _ _ => .pure rfl
  | .wait _ body | .timer _ _ body => (assembleStatements_gives before body).map fun _ => rfl

theorem assembleAgents_gives : (items : List (Located Node)) →
    Gives [] (Node.allDrawn items) (assembleAgents items : Assembly ι (List Agent)) Agent.ids
  | [] => .pure rfl
  | ⟨position, node⟩ :: rest => by
    rw [assembleAgents]
    split
    · refine (assembleAgent_gives position node).bind fun agent => ?_
      exact ((assembleAgents_gives rest).after (Agent.ids [agent])).map fun agents =>
        Agent.ids_append [agent] agents
    · exact .stopped position _

theorem assembleStatements_gives (before : List String) : (items : List (Located Node)) →
    Gives before [] (assembleStatements items : Assembly ι (List Statement)) fun _ => before
  | [] => .pure rfl
  | ⟨position, node⟩ :: rest => by
    have hrest (s : Statement) : Gives before []
        (do pure (s :: (← assembleStatements rest)) : Assembly ι (List Statement))
        fun _ => before :=
      (assembleStatements_gives before rest).map fun _ => rfl
    cases node with
    | statement command => exact (assembleStatement_gives before command).bind hrest
    | _ => exact .stopped position _

theorem assembleBlock_gives (inPage : Bool) (done : Block) : (items : List (Located Node)) →
    Gives (Agent.ids done.agents) (Node.allDrawn items)
      (assembleBlock inPage done items : Assembly ι Block) fun b => Agent.ids b.agents
  | [] => .pure rfl
  | ⟨position, node⟩ :: rest => by
    -- The block grows at its end: the ids of its agents so far stand in front of those to come.
    have hrest (b : Block) {before : List String} (hb : Agent.ids b.agents = before) :
        Gives before (Node.allDrawn rest) (assembleBlock inPage b rest : Assembly ι Block)
          fun b => Agent.ids b.agents :=
      hb ▸ assembleBlock_gives inPage b rest
    have hagent : Gives (Agent.ids done.agents) (node.drawn ++ Node.allDrawn rest)
        (do
          let agent ← assembleAgent position node
          let next ← (pure (done.addAgent agent) : Assembly ι Block)
          assembleBlock inPage next rest) fun b => Agent.ids b.agents :=
      ((assembleAgent_gives position node).after (Agent.ids done.agents)).bind fun agent =>
        hrest (done.addAgent agent) (Agent.ids_append done.agents [agent])
    cases node with
    | statement command =>
      exact (assembleStatement_gives (Agent.ids done.agents) command).bind fun statement =>
        hrest (done.addStatement statement) rfl
    | page => exact .stopped position _
    | autoAdvance delay =>
      rw [assembleBlock]
      split
      · exact .stopped position _
      split
      · exact .stopped position _
      · exact hrest { done with autoAdvance := some delay.milliseconds } rfl
    | _ => exact hagent

theorem assembleHandlers_gives (before : List String) : (handlers : List (HandlerNode Node)) →
    Gives before [] (assembleHandlers handlers : Assembly ι (List Handler)) fun _ => before
  | [] => .pure rfl
  | ⟨_, body⟩ :: rest =>
    (assembleStatements_gives before body).bind fun _ =>
      (assembleHandlers_gives before rest).map fun _ => rfl

end

theorem assembleStory_gives (items : List (Located Node)) :
    Gives [] (Node.allDrawn items)
      (assembleStory items : Assembly ι (List Page × List Statement)) fun r =>
        r.1.flatMap fun page => Agent.ids page.agents := by
  induction items with
  | nil => exact .pure rfl
  | cons item rest ih =>
    obtain ⟨position, node⟩ := item
    cases node with
    | page id items =>
      refine (assembleBlock_gives true {} items).bind fun b => ?_
      exact (ih.after (Agent.ids b.agents)).map fun _ => rfl
    | statement command =>
      refine (assembleStatement_gives [] command).bind fun statement => ?_
      exact ih.map fun _ => rfl
    | _ => exact .stop position _

theorem tree_gives (tree : Tree) :
    Gives [] tree.drawn (tree.assemble : Assembly ι Story) Story.ids :=
  (assembleStory_gives tree.items).map fun r => Story.ids_eq ⟨tree.title, r.1, r.2⟩

end Assembly

/-- The story of a script has the agents that the script draws, with the ids of the source. -/
theorem ids_of_compile {ι : Type} [IdSource ι] {ids ids' : ι} {source : String} {story : Story}
    (h : compile ids source = .ok (story, ids')) :
    ∃ tree, Tree.read source = .ok tree ∧ story.DrawnAs tree.drawn ∧
      story.ids = (idsOf ids tree.drawn).1 := by
  obtain ⟨tree, hread, hassemble⟩ := compile_eq_ok_iff.mp h
  have hagree := Assembly.tree_agree (ι := ι) (κ := ι) tree ids ids
  rw [hassemble] at hagree
  cases hagree with
  | ok halike =>
    exact ⟨tree, hread, halike.left, (Assembly.tree_gives tree ids story ids' hassemble).1⟩

/-! ## Numbers as ids -/

/-- The id of an agent of a kind with a number. -/
def numberedId (kind : String) (n : Nat) : String := kind ++ "_" ++ toString n

/-- The digits at the end of an id are those of its number, since an underscore is no digit. -/
theorem takeWhile_numberedId (kind : String) (n : Nat) :
    (numberedId kind n).toList.reverse.takeWhile Char.isDigit = (Nat.toDigits 10 n).reverse := by
  have hdigits : ∀ c ∈ (Nat.toDigits 10 n).reverse, c.isDigit = true := fun c hc =>
    Nat.isDigit_of_mem_toDigits (by decide) (by decide) (List.mem_reverse.mp hc)
  have hid : (numberedId kind n).toList.reverse =
      (Nat.toDigits 10 n).reverse ++ '_' :: kind.toList.reverse := by
    simp [numberedId, Nat.toString_eq_repr]
  rw [hid, List.takeWhile_append_of_pos hdigits]
  exact List.append_nil _

/-- The number can be told from the id, whatever the kind. -/
theorem numberedId_inj {kind kind' : String} {n n' : Nat}
    (h : numberedId kind n = numberedId kind' n') : n = n' := by
  have hdigits : (Nat.toDigits 10 n).reverse = (Nat.toDigits 10 n').reverse := by
    rw [← takeWhile_numberedId kind n, ← takeWhile_numberedId kind' n', h]
  have hvalue := congrArg (fun digits => Nat.ofDigitChars 10 digits 0) (List.reverse_inj.mp hdigits)
  simpa using hvalue

/-- Whether a script leaves the id of an agent open. -/
def Site.isOpen (s : Site) : Bool := s.name.isNone

/-- Whether ids are those of the agents at some sites: the script gives the id, or the agent is the
`n`-th one without an id and has the id with its kind and `n`. -/
structure NumberedAs (sites : List Site) (ids : List String) : Prop where
  length_eq : ids.length = sites.length
  given : ∀ (i : Nat) (s : Site) (name : Located String), sites[i]? = some s →
    s.name = some name → ids[i]? = some name.value
  counted : ∀ (i : Nat) (s : Site), sites[i]? = some s → s.name = none →
    ids[i]? = some (numberedId s.kind ((sites.take (i + 1)).countP Site.isOpen))

theorem length_idsOf {ι : Type} [IdSource ι] (ids : ι) (drawn : List Drawn) :
    (idsOf ids drawn).1.length = drawn.length := by
  induction drawn generalizing ids with
  | nil => rfl
  | cons d rest ih => exact congrArg (· + 1) (ih _)

theorem getElem?_idsOf_counter (n : Nat) (sites : List Site) (i : Nat) :
    (idsOf (⟨n⟩ : IdCounter) (sites.map Site.drawn)).1[i]? =
      sites[i]?.map fun s => (s.name.map (·.value)).getD
        (numberedId s.kind (n + (sites.take (i + 1)).countP Site.isOpen)) := by
  induction sites generalizing n i with
  | nil => rfl
  | cons s rest ih =>
    obtain ⟨position, kind, name⟩ := s
    cases i with
    | zero => cases name <;> rfl
    | succ i =>
      cases name with
      | some name =>
        rw [List.take_succ_cons, List.countP_cons_of_neg Bool.false_ne_true]
        exact ih n i
      | none =>
        rw [List.take_succ_cons, List.countP_cons_of_pos rfl, ← Nat.add_assoc, Nat.add_right_comm]
        exact ih (n + 1) i

/-- A counter that begins with nothing gives the agents their numbers. -/
theorem numberedAs_idsOf (sites : List Site) :
    NumberedAs sites (idsOf (⟨0⟩ : IdCounter) (sites.map Site.drawn)).1 where
  length_eq := by rw [length_idsOf, List.length_map]
  given i s name hs hname := by
    rw [getElem?_idsOf_counter, hs, Option.map_some, hname]
    rfl
  counted i s hs hname := by
    rw [getElem?_idsOf_counter, hs, Option.map_some, hname, Nat.zero_add]
    rfl

/-- There are more open sites up to a later one that is open. -/
theorem countP_isOpen_lt {sites : List Site} {i j : Nat} {s : Site} (hs : sites[j]? = some s)
    (hopen : s.name = none) (hij : i < j) :
    (sites.take (i + 1)).countP Site.isOpen < (sites.take (j + 1)).countP Site.isOpen := by
  have hle : (sites.take (i + 1)).countP Site.isOpen ≤ (sites.take j).countP Site.isOpen :=
    (List.take_sublist_take_left hij).countP_le
  have hs' : s.isOpen = true := congrArg Option.isNone hopen
  have hnext : (sites.take (j + 1)).countP Site.isOpen =
      (sites.take j).countP Site.isOpen + 1 := by
    rw [List.take_add_one, hs, List.countP_append]
    exact congrArg _ (List.countP_cons_of_pos hs')
  omega

/-- No two agents without an id have the same number, so no two of their ids are equal. -/
theorem NumberedAs.eq_of_open {sites : List Site} {ids : List String} (h : NumberedAs sites ids)
    {i j : Nat} {s t : Site} (hs : sites[i]? = some s) (ht : sites[j]? = some t)
    (hs' : s.name = none) (ht' : t.name = none) (hids : ids[i]? = ids[j]?) : i = j := by
  rw [h.counted i s hs hs', h.counted j t ht ht'] at hids
  have hcount := numberedId_inj (Option.some.inj hids)
  rcases Nat.lt_trichotomy i j with hij | hij | hij
  · exact absurd hcount (Nat.ne_of_lt (countP_isOpen_lt ht ht' hij))
  · exact hij
  · exact absurd hcount.symm (Nat.ne_of_lt (countP_isOpen_lt hs hs' hij))

/-- With a counter that begins with nothing, the ids that a visit of the story of a script meets are
those of the agents that the script draws, in the order of its text: agents have the ids that the
script gives, and the `n`-th agent without one has its kind and the number `n`.  So no two of the
ids that come from the counter are equal. -/
theorem numberedAs_of_compile {source : String} {story : Story} {ids' : IdCounter}
    (h : compile (⟨0⟩ : IdCounter) source = .ok (story, ids')) :
    ∃ tree, Tree.read source = .ok tree ∧
      (tree.sites.map (·.position)).Pairwise (· ≤ ·) ∧ (∀ s ∈ tree.sites, s.IsIn source) ∧
      story.drawn.map Agent.kind = tree.sites.map (·.kind) ∧
      story.drawn.map Agent.id? = story.ids.map some ∧ NumberedAs tree.sites story.ids ∧
      ∀ (i j : Nat) (s t : Site), tree.sites[i]? = some s → tree.sites[j]? = some t →
        s.name = none → t.name = none → story.ids[i]? = story.ids[j]? → i = j := by
  obtain ⟨tree, hread, hdrawn, hids⟩ := ids_of_compile h
  have hnumbered : NumberedAs tree.sites story.ids := by
    rw [hids, ← tree.drawn_sites]
    exact numberedAs_idsOf tree.sites
  have hkinds : story.drawn.map Agent.kind = tree.sites.map (·.kind) := by
    rw [hdrawn.map_kind, ← tree.drawn_sites, List.map_map]
    rfl
  obtain ⟨hsorted, hin⟩ := Tree.sites_of_read hread
  exact ⟨tree, hread, hsorted, hin, hkinds, story.map_id?_drawn, hnumbered,
    fun i j s t hs ht hs' ht' hij => hnumbered.eq_of_open hs ht hs' ht' hij⟩

/-- A script with statements between its agents, and agents inside others on both of its pages. -/
def dockScript : String :=
  "fable \"Dock\" do page 1 do text \"a\" if low do button \"b\" #stay " ++
    "else image \"c\" end go back end page 2 do for x in xs do text \"d\" end " ++
    "wait 1s do go back video \"e\" end end end"

theorem numberedAs_of_compile_dock : ∃ story ids' tree,
    compile (⟨0⟩ : IdCounter) dockScript = .ok (story, ids') ∧
      story.ids = ["text_1", "stay", "image_2", "text_3", "video_4"] ∧
      Tree.read dockScript = .ok tree ∧ NumberedAs tree.sites story.ids := by
  have hids : (compile (⟨0⟩ : IdCounter) dockScript).toOption.map (fun result => result.1.ids) =
      some ["text_1", "stay", "image_2", "text_3", "video_4"] := by
    decide +kernel
  obtain ⟨story, ids', hcompile, hseen⟩ := exists_compile_of_map Story.ids hids
  obtain ⟨tree, hread, -, -, -, -, hnumbered, -⟩ := numberedAs_of_compile hcompile
  exact ⟨story, ids', tree, hcompile, hseen, hread, hnumbered⟩

end Script

end Storybook
