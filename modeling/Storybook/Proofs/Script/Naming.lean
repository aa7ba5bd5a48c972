/-
# `Storybook.Proofs.Script.Naming` — the ids of a story and the rest of it

A script says which agents its story draws, and gives some of them ids; the others get theirs
from a source of ids.  Two compilations of a script with different sources fail alike, or make
stories that agree in everything but the ids that the script leaves open (`compile_alike`), so
that any of them tells whether the script has a story.

| | |
| :-- | :-- |
| what a script draws | `Tree.drawn` |
| a story without its ids | `Story.anonymous` |
| what a story draws, in the order of a visit | `Story.drawn` |
| stories that differ in open ids only | `Story.Alike` |
| two runs of assembly | `Assembly.Agree` |
-/
import Mathlib.Data.List.Forall2
import Storybook.Script.Compile
import Storybook.Story.Traversal

namespace Storybook

/-! ## Stories without ids -/

namespace Agent

mutual

/-- An agent without its id and without those of the agents inside it. -/
def anonymous : Agent → Agent
  | text a => text { a with id := "" }
  | button a => button { a with id := "" }
  | image a => image { a with id := "" }
  | video a => video { a with id := "" }
  | choice condition agents elseAgents =>
    choice condition (allAnonymous agents) (allAnonymous elseAgents)
  | forEach name range agents => forEach name range (allAnonymous agents)
  | wait duration agents actions => wait duration (allAnonymous agents) actions
  | timer interval times actions => timer interval times actions

def allAnonymous : List Agent → List Agent
  | [] => []
  | agent :: rest => anonymous agent :: allAnonymous rest

end

theorem kind_anonymous (agent : Agent) : agent.anonymous.kind = agent.kind := by
  cases agent <;> rfl

/-- Whether an agent is drawn; control agents are not. -/
def isDrawn (agent : Agent) : Bool := agent.id?.isSome

/-- The agents that are drawn among some agents and those inside them. -/
def drawn (agents : List Agent) : List Agent := (subtrees agents).filter isDrawn

theorem allAnonymous_append (agents others : List Agent) :
    allAnonymous (agents ++ others) = allAnonymous agents ++ allAnonymous others := by
  induction agents with
  | nil => rfl
  | cons agent rest ih => exact congrArg (anonymous agent :: ·) ih

theorem subtrees_append (agents others : List Agent) :
    subtrees (agents ++ others) = subtrees agents ++ subtrees others := by
  induction agents with
  | nil => rfl
  | cons agent rest ih =>
    show subtree agent ++ subtrees (rest ++ others) = _
    rw [ih, ← List.append_assoc]
    rfl

theorem drawn_append (agents others : List Agent) :
    drawn (agents ++ others) = drawn agents ++ drawn others := by
  unfold drawn
  rw [subtrees_append, List.filter_append]

theorem drawn_singleton {agent : Agent} : drawn [agent] = (subtree agent).filter isDrawn := by
  show (subtree agent ++ []).filter isDrawn = _
  rw [List.append_nil]

theorem drawn_of_id? {agent : Agent} {id : String} (h : agent.id? = some id) :
    drawn [agent] = [agent] := by
  cases agent with
  | text | button | image | video => rfl
  | choice | forEach | wait | timer => exact nomatch h

theorem drawn_choice (condition : Expression) (agents elseAgents : List Agent) :
    drawn [choice condition agents elseAgents] = drawn agents ++ drawn elseAgents := by
  rw [drawn_singleton]
  exact List.filter_append ..

theorem drawn_forEach (name : String) (range : Expression) (agents : List Agent) :
    drawn [forEach name range agents] = drawn agents := drawn_singleton

theorem drawn_wait (duration : UInt64) (agents : List Agent) (actions : List Statement) :
    drawn [wait duration agents actions] = drawn agents := drawn_singleton

end Agent

def Page.anonymous (page : Page) : Page := { page with agents := Agent.allAnonymous page.agents }

namespace Story

def anonymous (story : Story) : Story := { story with pages := story.pages.map Page.anonymous }

/-- The agents of a story that are drawn, in the order of a visit. -/
def drawn (story : Story) : List Agent := story.agents.filter Agent.isDrawn

theorem drawn_cons (title : String) (page : Page) (pages : List Page)
    (statements : List Statement) :
    drawn ⟨title, page :: pages, statements⟩ =
      Agent.drawn page.agents ++ drawn ⟨title, pages, statements⟩ :=
  List.filter_append ..

end Story

namespace Script

/-! ## What a script draws -/

/-- An agent that a script draws: its kind, and its id if the script gives it one. -/
structure Drawn where
  kind : String
  name : Option String
deriving DecidableEq, Repr

/-- Whether an agent is one that a script draws. -/
def Drawn.Describes (d : Drawn) (agent : Agent) : Prop :=
  agent.kind = d.kind ∧ ∀ name ∈ d.name, agent.id? = some name

def Attribute.id? : Attribute → Option String
  | id name => some name
  | _ => none

def writtenId (attributes : List (Located Attribute)) : Option String :=
  attributes.findSome? (·.value.id?)

mutual

/-- What a node draws, itself or inside it. -/
def Node.drawn : Node → List Drawn
  | text _ attributes => [⟨"text", writtenId attributes⟩]
  | button _ attributes _ => [⟨"button", writtenId attributes⟩]
  | image _ attributes => [⟨"image", writtenId attributes⟩]
  | video _ attributes => [⟨"video", writtenId attributes⟩]
  | choice _ items elseItems => Node.allDrawn items ++ Node.allDrawn elseItems
  | page _ items | forEach _ _ items | wait _ items => Node.allDrawn items
  | autoAdvance _ | timer .. | statement _ => []

def Node.allDrawn : List (Located Node) → List Drawn
  | [] => []
  | ⟨_, node⟩ :: rest => Node.drawn node ++ Node.allDrawn rest

end

/-- What a script draws, in the order of its text. -/
def Tree.drawn (tree : Tree) : List Drawn := Node.allDrawn tree.items

end Script

/-! ## Differences in open ids only -/

section

variable {drawn more : List Script.Drawn}

/-- Whether the agents that are drawn among some are those that a script draws, in order. -/
def Agent.DrawnAs (drawn : List Script.Drawn) (agents : List Agent) : Prop :=
  List.Forall₂ Script.Drawn.Describes drawn (Agent.drawn agents)

/-- Whether a story draws what a script draws, in the order of a visit. -/
def Story.DrawnAs (drawn : List Script.Drawn) (story : Story) : Prop :=
  List.Forall₂ Script.Drawn.Describes drawn story.drawn

/-- Whether agents are those of a script and differ only in ids that it leaves open. -/
structure Agent.Alike (drawn : List Script.Drawn) (agents others : List Agent) : Prop where
  same : allAnonymous agents = allAnonymous others
  left : DrawnAs drawn agents
  right : DrawnAs drawn others

/-- Whether stories are those of a script and differ only in ids that it leaves open. -/
structure Story.Alike (drawn : List Script.Drawn) (story other : Story) : Prop where
  same : story.anonymous = other.anonymous
  left : story.DrawnAs drawn
  right : other.DrawnAs drawn

namespace Agent

variable {agents others elseAgents elseOthers : List Agent}

theorem DrawnAs.append (h : DrawnAs drawn agents) (hmore : DrawnAs more elseAgents) :
    DrawnAs (drawn ++ more) (agents ++ elseAgents) := by
  unfold DrawnAs
  rw [drawn_append]
  exact List.rel_append h hmore

theorem DrawnAs.choice (condition : Expression) (h : DrawnAs drawn agents)
    (helse : DrawnAs more elseAgents) :
    DrawnAs (drawn ++ more) [.choice condition agents elseAgents] := by
  unfold DrawnAs
  rw [drawn_choice]
  exact List.rel_append h helse

theorem DrawnAs.forEach (name : String) (range : Expression) (h : DrawnAs drawn agents) :
    DrawnAs drawn [.forEach name range agents] := by
  unfold DrawnAs
  rw [drawn_forEach]
  exact h

theorem DrawnAs.wait (duration : UInt64) (actions : List Statement) (h : DrawnAs drawn agents) :
    DrawnAs drawn [.wait duration agents actions] := by
  unfold DrawnAs
  rw [drawn_wait]
  exact h

theorem DrawnAs.single {kind : String} {name : Option String} {agent : Agent} {id : String}
    (hkind : agent.kind = kind) (hagent : agent.id? = some id) (hid : ∀ n ∈ name, id = n) :
    DrawnAs [⟨kind, name⟩] [agent] := by
  unfold DrawnAs
  rw [drawn_of_id? hagent]
  refine .cons ⟨hkind, ?_⟩ .nil
  intro n hn
  rw [hagent, hid n hn]

namespace Alike

theorem nil : Alike [] [] [] := ⟨rfl, .nil, .nil⟩

theorem append (h : Alike drawn agents others) (hmore : Alike more elseAgents elseOthers) :
    Alike (drawn ++ more) (agents ++ elseAgents) (others ++ elseOthers) where
  same := by rw [allAnonymous_append, allAnonymous_append, h.same, hmore.same]
  left := h.left.append hmore.left
  right := h.right.append hmore.right

theorem choice (condition : Expression) (h : Alike drawn agents others)
    (helse : Alike more elseAgents elseOthers) :
    Alike (drawn ++ more) [.choice condition agents elseAgents]
      [.choice condition others elseOthers] where
  same := by
    show [Agent.choice condition _ _] = [Agent.choice condition _ _]
    rw [h.same, helse.same]
  left := h.left.choice condition helse.left
  right := h.right.choice condition helse.right

theorem forEach (name : String) (range : Expression) (h : Alike drawn agents others) :
    Alike drawn [.forEach name range agents] [.forEach name range others] where
  same := by
    show [Agent.forEach name range _] = [Agent.forEach name range _]
    rw [h.same]
  left := h.left.forEach name range
  right := h.right.forEach name range

theorem wait (duration : UInt64) (actions : List Statement) (h : Alike drawn agents others) :
    Alike drawn [.wait duration agents actions] [.wait duration others actions] where
  same := by
    show [Agent.wait duration _ actions] = [Agent.wait duration _ actions]
    rw [h.same]
  left := h.left.wait duration actions
  right := h.right.wait duration actions

theorem timer (interval : UInt64) (times : Option UInt32) (actions : List Statement) :
    Alike [] [.timer interval times actions] [.timer interval times actions] :=
  ⟨rfl, .nil, .nil⟩

/-- A single agent that is drawn, with an id of its own in both runs. -/
theorem single {kind : String} {name : Option String} {agent other : Agent} {id id' : String}
    (hsame : agent.anonymous = other.anonymous) (hkind : agent.kind = kind)
    (hagent : agent.id? = some id) (hother : other.id? = some id')
    (hid : ∀ n ∈ name, id = n ∧ id' = n) : Alike [⟨kind, name⟩] [agent] [other] where
  same := congrArg (fun agent => [agent]) hsame
  left := .single hkind hagent fun n hn => (hid n hn).1
  right := by
    have hkind' : other.kind = kind := by
      rw [← kind_anonymous, ← hsame, kind_anonymous]
      exact hkind
    exact .single hkind' hother fun n hn => (hid n hn).2

end Alike

end Agent

namespace Story

variable {title : String} {pages others : List Page} {statements : List Statement}

theorem DrawnAs.addPage {page : Page} (h : DrawnAs more ⟨title, pages, statements⟩)
    (hpage : Agent.DrawnAs drawn page.agents) :
    DrawnAs (drawn ++ more) ⟨title, page :: pages, statements⟩ := by
  unfold DrawnAs
  rw [drawn_cons]
  exact List.rel_append hpage h

namespace Alike

theorem nil : Alike [] ⟨title, [], statements⟩ ⟨title, [], statements⟩ := ⟨rfl, .nil, .nil⟩

theorem addPage {agents elseAgents : List Agent} (id : Int64) (actions : List Statement)
    (autoAdvance : Option UInt64) (hagents : Agent.Alike drawn agents elseAgents)
    (h : Alike more ⟨title, pages, statements⟩ ⟨title, others, statements⟩) :
    Alike (drawn ++ more) ⟨title, ⟨id, agents, actions, autoAdvance⟩ :: pages, statements⟩
      ⟨title, ⟨id, elseAgents, actions, autoAdvance⟩ :: others, statements⟩ where
  same := by
    have hpages : pages.map Page.anonymous = others.map Page.anonymous := (Story.mk.inj h.same).2.1
    show Story.mk title (⟨id, _, actions, autoAdvance⟩ :: pages.map Page.anonymous) statements =
      Story.mk title (⟨id, _, actions, autoAdvance⟩ :: others.map Page.anonymous) statements
    rw [hagents.same, hpages]
  left := h.left.addPage hagents.left
  right := h.right.addPage hagents.right

theorem addStatement (statement : Statement)
    (h : Alike drawn ⟨title, pages, statements⟩ ⟨title, others, statements⟩) :
    Alike drawn ⟨title, pages, statement :: statements⟩
      ⟨title, others, statement :: statements⟩ where
  same := by
    have hpages : pages.map Page.anonymous = others.map Page.anonymous := (Story.mk.inj h.same).2.1
    show Story.mk title (pages.map Page.anonymous) _ = Story.mk title (others.map Page.anonymous) _
    rw [hpages]
  left := h.left
  right := h.right

end Alike

end Story

end

namespace Script

/-! ## Two runs -/

/-- Whether two outcomes are the same error, or values in a relation. -/
inductive Agree {ε α β : Type} (R : α → β → Prop) : Except ε α → Except ε β → Prop
  | ok {a : α} {b : β} : R a b → Agree R (.ok a) (.ok b)
  | error (e : ε) : Agree R (.error e) (.error e)

variable {ε α β α' β' : Type} {R : α → β → Prop} {S : α' → β' → Prop}

theorem Agree.bind {m : Except ε α} {m' : Except ε β} {f : α → Except ε α'} {f' : β → Except ε β'}
    (h : Agree R m m') (hf : ∀ a b, R a b → Agree S (f a) (f' b)) :
    Agree S (m >>= f) (m' >>= f') := by
  cases h with
  | ok hab => exact hf _ _ hab
  | error e => exact .error e

/-- Whether two steps of assembly agree, whatever ids their sources have. -/
def Assembly.Agree {ι κ : Type} (R : α → β → Prop) (m : Assembly ι α) (m' : Assembly κ β) : Prop :=
  ∀ ids ids', Script.Agree (fun r r' => R r.1 r'.1) (m ids) (m' ids')

namespace Assembly.Agree

variable {ι κ : Type} {m : Assembly ι α} {m' : Assembly κ β}

theorem pure {a : α} {b : β} (h : R a b) :
    Agree R (Pure.pure a : Assembly ι α) (Pure.pure b : Assembly κ β) :=
  fun _ _ => .ok h

theorem bind {f : α → Assembly ι α'} {f' : β → Assembly κ β'} (h : Agree R m m')
    (hf : ∀ a b, R a b → Agree S (f a) (f' b)) : Agree S (m >>= f) (m' >>= f') :=
  fun ids ids' => (h ids ids').bind fun r r' hr => hf r.1 r'.1 hr r.2 r'.2

theorem stop (position : Position) (f : Fault) :
    Agree R (Script.stop position f : Assembly ι α) (Script.stop position f : Assembly κ β) :=
  fun _ _ => .error _

/-- What takes no ids is the same in both runs. -/
theorem checked (m : Checked α) :
    Agree (fun a b => a = b ∧ m = .ok a) (monadLift m : Assembly ι α)
      (monadLift m : Assembly κ α) := by
  intro ids ids'
  cases m with
  | ok value => exact .ok ⟨rfl, rfl⟩
  | error f => exact .error f

theorem agentId [IdSource ι] [IdSource κ] (kind : String) (name : Option String) :
    Agree (fun id id' => ∀ n ∈ name, id = n ∧ id' = n)
      (Script.agentId kind name : Assembly ι String)
      (Script.agentId kind name : Assembly κ String) := by
  cases name with
  | none => exact fun _ _ => .ok fun _ h => nomatch h
  | some name =>
    refine .pure fun n hn => ?_
    cases hn
    exact ⟨rfl, rfl⟩

end Assembly.Agree

/-! ## The ids of looks -/

theorem Look.id_of_add {look next : Look} {a : Attribute} (h : look.add a = .ok next) :
    next.id = a.id?.or look.id := by
  cases a with
  | animate kind modifiers =>
    rw [Look.add] at h
    cases hspec : animationSpec kind modifiers with
    | ok spec => rw [hspec] at h; cases h; rfl
    | error f => rw [hspec] at h; exact nomatch h
  | id | place | size | color | fontSize | autoplay | looping => cases h; rfl

theorem Attribute.key_of_id? {a : Attribute} {name : String} (h : a.id? = some name) :
    a.key = "#id" := by
  cases a with
  | id => rfl
  | place | size | color | fontSize | autoplay | looping | animate => exact nomatch h

theorem writtenId_cons (a : Located Attribute) (rest : List (Located Attribute)) :
    writtenId (a :: rest) = a.value.id?.or (writtenId rest) := by
  rw [writtenId, List.findSome?_cons]
  cases a.value.id? with
  | none => rfl
  | some name => rfl

/-- No second id is accepted after the first. -/
theorem Look.id_of_collect {kind : String} {allowed seen : List String} {look done : Look}
    {attributes : List (Located Attribute)} (hseen : look.id.isSome → "#id" ∈ seen)
    (h : Look.collect kind allowed seen look attributes = .ok done) :
    done.id = look.id.or (writtenId attributes) := by
  induction attributes generalizing seen look with
  | nil =>
    cases h
    exact Option.or_none.symm
  | cons a rest ih =>
    rw [Look.collect] at h
    split at h
    · exact nomatch h
    split at h
    · exact nomatch h
    next hfirst =>
    cases hadd : look.add a.value with
    | error f => rw [hadd] at h; exact nomatch h
    | ok next =>
      rw [hadd] at h
      have hnext := Look.id_of_add hadd
      have hmore : next.id.isSome → "#id" ∈ a.value.key :: seen := by
        intro hsome
        cases hid : a.value.id? with
        | none =>
          rw [hnext, hid, Option.none_or] at hsome
          exact List.mem_cons_of_mem _ (hseen hsome)
        | some name => exact Attribute.key_of_id? hid ▸ List.mem_cons_self
      rw [ih hmore h, hnext, writtenId_cons]
      cases hid : a.value.id? with
      | none => rw [Option.none_or, Option.none_or]
      | some name =>
        have hnone : look.id = none := by
          rw [← Option.not_isSome_iff_eq_none]
          intro hsome
          rw [Attribute.key_of_id? hid] at hfirst
          exact hfirst (List.contains_iff_mem.mpr (hseen hsome))
        rw [hnone]
        rfl

/-- The id of an agent that is drawn is the one of its attributes, if they give one. -/
theorem Look.id_of_collect_empty {kind : String} {allowed : List String} {look : Look}
    {attributes : List (Located Attribute)}
    (h : Look.collect kind allowed [] {} attributes = .ok look) :
    look.id = writtenId attributes := by
  have hseen : ({} : Look).id.isSome → "#id" ∈ ([] : List String) :=
    fun hsome => absurd hsome Bool.false_ne_true
  exact Look.id_of_collect hseen h

/-! ## Two runs over a tree -/

/-- Whether two blocks have agents that are alike and the same statements and delay. -/
structure Block.Alike (drawn : List Drawn) (b b' : Block) : Prop where
  agents : Agent.Alike drawn b.agents b'.agents
  statements : b.statements = b'.statements
  autoAdvance : b.autoAdvance = b'.autoAdvance

theorem Block.Alike.addAgent {drawn more : List Drawn} {b b' : Block} {agent other : Agent}
    (hb : Block.Alike drawn b b') (h : Agent.Alike more [agent] [other]) :
    Block.Alike (drawn ++ more) (b.addAgent agent) (b'.addAgent other) :=
  ⟨hb.agents.append h, hb.statements, hb.autoAdvance⟩

theorem Block.Alike.addStatement {drawn : List Drawn} {b b' : Block} (hb : Block.Alike drawn b b')
    (statement : Statement) :
    Block.Alike drawn (b.addStatement statement) (b'.addStatement statement) :=
  ⟨hb.agents, congrArg (· ++ [statement]) hb.statements, hb.autoAdvance⟩

namespace Assembly

variable {ι κ : Type} [IdSource ι] [IdSource κ]

/-- Both runs fail at an attribute, or they go on with the same look and with the id of the
attributes if those give one. -/
theorem agree_look (kind : String) (allowed : List String) {attributes : List (Located Attribute)}
    {f : Look → String → Assembly ι Agent} {f' : Look → String → Assembly κ Agent}
    {R : Agent → Agent → Prop}
    (hf : ∀ look id id', (∀ n ∈ writtenId attributes, id = n ∧ id' = n) →
      Agree R (f look id) (f' look id')) :
    Agree R
      (do
        let look ← Look.collect kind allowed [] {} attributes
        let id ← agentId kind look.id
        f look id)
      (do
        let look ← Look.collect kind allowed [] {} attributes
        let id ← agentId kind look.id
        f' look id) := by
  refine (Agree.checked _).bind ?_
  rintro look _ ⟨rfl, hcollect⟩
  refine (Agree.agentId kind look.id).bind fun id id' hid => hf look id id' ?_
  rw [← Look.id_of_collect_empty hcollect]
  exact hid

mutual

theorem assembleAgent_agree (position : Position) : (node : Node) →
    Agree (fun agent other => Agent.Alike node.drawn [agent] [other])
      (assembleAgent position node : Assembly ι Agent)
      (assembleAgent position node : Assembly κ Agent)
  | .text _ _ =>
    agree_look "text" textAttributes fun _ _ _ hid => .pure (.single rfl rfl rfl rfl hid)
  | .button _ _ handlers => by
    refine agree_look "button" buttonAttributes fun look id id' hid => ?_
    refine (assembleHandlers_agree handlers).bind ?_
    rintro h _ rfl
    exact .pure (.single rfl rfl rfl rfl hid)
  | .image _ _ =>
    agree_look "image" imageAttributes fun _ _ _ hid => .pure (.single rfl rfl rfl rfl hid)
  | .video _ _ =>
    agree_look "video" videoAttributes fun _ _ _ hid => .pure (.single rfl rfl rfl rfl hid)
  | .choice condition items elseItems =>
    (assembleAgents_agree items).bind fun _ _ h =>
      (assembleAgents_agree elseItems).bind fun _ _ helse => .pure (h.choice _ helse)
  | .forEach name range items =>
    (assembleAgents_agree items).bind fun _ _ h => .pure (h.forEach name _)
  | .wait delay items => by
    refine (assembleBlock_agree false items ⟨.nil, rfl, rfl⟩).bind fun b b' h => .pure ?_
    rw [← h.statements]
    exact h.agents.wait _ _
  | .timer interval times items => by
    refine (assembleStatements_agree items).bind ?_
    rintro actions _ rfl
    exact .pure (.timer _ _ _)
  | .page .. | .autoAdvance _ | .statement _ => .stop _ _

theorem assembleStatement_agree : (command : Command) →
    Agree Eq (assembleStatement command : Assembly ι Statement)
      (assembleStatement command : Assembly κ Statement)
  | .init .. | .set .. | .add .. | .subtract .. | .goToPage _ | .goBack | .stopAnimation _
  | .playSound .. | .stopSound _ | .stopMusic => .pure rfl
  | .move .. => (Agree.checked _).bind fun _ _ h => .pure (h.1 ▸ rfl)
  | .tween .. => (Agree.checked _).bind fun _ _ h =>
    (Agree.checked _).bind fun _ _ h' => .pure (h.1 ▸ h'.1 ▸ rfl)
  | .animate .. => (Agree.checked _).bind fun _ _ h => .pure (h.1 ▸ rfl)
  | .music .. => (Agree.checked _).bind fun _ _ h => .pure (h.1 ▸ rfl)
  | .wait _ body => (assembleStatements_agree body).bind fun _ _ h => .pure (h ▸ rfl)
  | .timer _ _ body => (assembleStatements_agree body).bind fun _ _ h => .pure (h ▸ rfl)

theorem assembleAgents_agree : (items : List (Located Node)) →
    Agree (Agent.Alike (Node.allDrawn items))
      (assembleAgents items : Assembly ι (List Agent))
      (assembleAgents items : Assembly κ (List Agent))
  | [] => .pure .nil
  | ⟨position, node⟩ :: rest => by
    rw [assembleAgents, assembleAgents]
    split
    · refine (assembleAgent_agree position node).bind fun agent other h => ?_
      exact (assembleAgents_agree rest).bind fun _ _ hrest => .pure (h.append hrest)
    · exact (Agree.stop (R := fun _ _ => False) _ _).bind fun _ _ h => h.elim

theorem assembleStatements_agree : (items : List (Located Node)) →
    Agree Eq (assembleStatements items : Assembly ι (List Statement))
      (assembleStatements items : Assembly κ (List Statement))
  | [] => .pure rfl
  | ⟨position, node⟩ :: rest => by
    have hrest (s s' : Statement) (h : s = s') : Agree Eq
        (do pure (s :: (← assembleStatements rest)) : Assembly ι (List Statement))
        (do pure (s' :: (← assembleStatements rest)) : Assembly κ (List Statement)) :=
      (assembleStatements_agree rest).bind fun _ _ hl => .pure (h ▸ hl ▸ rfl)
    cases node with
    | statement command => exact (assembleStatement_agree command).bind hrest
    | _ => exact (Agree.stop _ _).bind hrest

theorem assembleBlock_agree (inPage : Bool) : (items : List (Located Node)) →
    {drawn : List Drawn} → {done done' : Block} → Block.Alike drawn done done' →
      Agree (Block.Alike (drawn ++ Node.allDrawn items))
        (assembleBlock inPage done items : Assembly ι Block)
        (assembleBlock inPage done' items : Assembly κ Block)
  | [], drawn, _, _, h => .pure (by rw [Node.allDrawn, List.append_nil]; exact h)
  | ⟨position, node⟩ :: rest, drawn, done, done', h => by
    -- The blocks grow at their ends: what they draw so far is `drawn`, in front of the rest.
    have hrest (b b' : Block) (hb : Block.Alike (drawn ++ node.drawn) b b') :
        Agree (Block.Alike (drawn ++ Node.allDrawn (⟨position, node⟩ :: rest)))
          (assembleBlock inPage b rest : Assembly ι Block)
          (assembleBlock inPage b' rest : Assembly κ Block) := by
      rw [Node.allDrawn, ← List.append_assoc]
      exact assembleBlock_agree inPage rest hb
    have hagent : Agree (Block.Alike (drawn ++ Node.allDrawn (⟨position, node⟩ :: rest)))
        (do
          let agent ← assembleAgent position node
          let next ← (pure (done.addAgent agent) : Assembly ι Block)
          assembleBlock inPage next rest)
        (do
          let agent ← assembleAgent position node
          let next ← (pure (done'.addAgent agent) : Assembly κ Block)
          assembleBlock inPage next rest) :=
      (assembleAgent_agree position node).bind fun agent other hagent =>
        Agree.bind (R := Block.Alike (drawn ++ node.drawn)) (.pure (h.addAgent hagent)) hrest
    cases node with
    | statement command =>
      refine (assembleStatement_agree command).bind ?_
      rintro statement _ rfl
      have h : Block.Alike (drawn ++ []) done done' := (List.append_nil drawn).symm ▸ h
      exact Agree.bind (.pure (h.addStatement statement)) hrest
    | page => exact Agree.bind (.stop _ _) hrest
    | autoAdvance delay =>
      have h : Block.Alike (drawn ++ []) done done' := (List.append_nil drawn).symm ▸ h
      rw [assembleBlock, assembleBlock, h.autoAdvance]
      split
      · exact Agree.bind (.stop _ _) hrest
      split
      · exact Agree.bind (.stop _ _) hrest
      · exact Agree.bind (.pure ⟨h.agents, h.statements, rfl⟩) hrest
    | _ => exact hagent

theorem assembleHandlers_agree : (handlers : List (HandlerNode Node)) →
    Agree Eq (assembleHandlers handlers : Assembly ι (List Handler))
      (assembleHandlers handlers : Assembly κ (List Handler))
  | [] => .pure rfl
  | ⟨_, body⟩ :: rest =>
    (assembleStatements_agree body).bind fun _ _ h =>
      (assembleHandlers_agree rest).bind fun _ _ hrest => .pure (h ▸ hrest ▸ rfl)

end

theorem assembleStory_agree (title : String) (items : List (Located Node)) :
    Agree (fun r r' => r.2 = r'.2 ∧
        Story.Alike (Node.allDrawn items) ⟨title, r.1, r.2⟩ ⟨title, r'.1, r.2⟩)
      (assembleStory items : Assembly ι (List Page × List Statement))
      (assembleStory items : Assembly κ (List Page × List Statement)) := by
  induction items with
  | nil => exact .pure ⟨rfl, .nil⟩
  | cons item rest ih =>
    obtain ⟨position, node⟩ := item
    cases node with
    | page id items =>
      refine (assembleBlock_agree true items ⟨.nil, rfl, rfl⟩).bind fun b b' hb => ?_
      refine ih.bind ?_
      rintro ⟨pages, statements⟩ ⟨pages', _⟩ ⟨rfl, hstory⟩
      refine .pure ⟨rfl, ?_⟩
      rw [← hb.statements, ← hb.autoAdvance]
      exact hstory.addPage id _ _ hb.agents
    | statement command =>
      refine (assembleStatement_agree command).bind ?_
      rintro statement _ rfl
      refine ih.bind ?_
      rintro ⟨pages, statements⟩ ⟨pages', _⟩ ⟨rfl, hstory⟩
      exact .pure ⟨rfl, hstory.addStatement statement⟩
    | _ => exact .stop _ _

/-- Two sources of ids give a tree the same fault, or stories that are alike. -/
theorem tree_agree (tree : Tree) :
    Agree (Story.Alike tree.drawn) (tree.assemble : Assembly ι Story)
      (tree.assemble : Assembly κ Story) := by
  refine (assembleStory_agree tree.title tree.items).bind ?_
  rintro ⟨pages, statements⟩ ⟨pages', _⟩ ⟨rfl, hstory⟩
  exact .pure hstory

end Assembly

/-! ## Two runs over a script -/

/-- Two compilations of a script find the same problem at the same place, or make stories that
are alike. -/
theorem compile_agree {ι κ : Type} [IdSource ι] [IdSource κ] (ids : ι) (ids' : κ)
    (source : String) :
    Agree (fun r r' => ∃ tree, Tree.read source = .ok tree ∧ Story.Alike tree.drawn r.1 r'.1)
      (compile ids source) (compile ids' source) := by
  unfold compile
  cases Tree.read source with
  | error e => exact .error _
  | ok tree =>
    have h := Assembly.tree_agree tree ids ids'
    dsimp only
    generalize tree.assemble ids = out, tree.assemble ids' = out' at h ⊢
    cases h with
    | ok hstory => exact .ok ⟨tree, rfl, hstory⟩
    | error f => exact .error (Diagnostic.ofFault f)

/-- What a check of a script reports is the problem of any of its compilations. -/
theorem validate_eq {ι : Type} [IdSource ι] (ids : ι) (source : String) :
    validate source = match compile ids source with
      | .ok _ => ⟨none⟩
      | .error d => ⟨some d.display⟩ := by
  have h := compile_agree (⟨0⟩ : IdCounter) ids source
  unfold validate compileNumbered
  generalize compile (⟨0⟩ : IdCounter) source = numbered, compile ids source = other at h ⊢
  cases h with
  | ok _ => rfl
  | error _ => rfl

/-- Which source of ids is used shows nowhere but in open ids: two compilations of a script
fail with the same message at the same line and column, or make stories that are the same
without ids, both with the ids that the script gives.  So a check of a script finds it valid
if and only if it has a story, and reports the problem of the compilation if it has none. -/
theorem compile_alike {ι κ : Type} [IdSource ι] [IdSource κ] (ids : ι) (ids' : κ)
    (source : String) :
    Agree (fun r r' => ∃ tree, Tree.read source = .ok tree ∧ Story.Alike tree.drawn r.1 r'.1)
        (compile ids source) (compile ids' source) ∧
      ((validate source).isValid = true ↔ ∃ result, compile ids source = .ok result) ∧
      ∀ d, compile ids source = .error d → (validate source).error = some d.display := by
  refine ⟨compile_agree ids ids' source, ?_, ?_⟩
  · rw [validate_eq ids source]
    cases compile ids source with
    | ok result => exact ⟨fun _ => ⟨result, rfl⟩, fun _ => rfl⟩
    | error d => exact ⟨fun h => (nomatch h), fun ⟨_, h⟩ => (nomatch h)⟩
  · intro d h
    rw [validate_eq ids source, h]

end Script

end Storybook
