/-
# `Storybook.Proofs.Script.Assembled` — what becomes of the parts of a written tree

Assembly of a tree that a script can write (`Tree.Written`) comes to a story whose parts are
those of the tree, or to a fault at a position of the tree.  `Makes pos m Q` is the judgement
about a step of assembly, and `Checked.Makes` the one about a step without ids:

| | |
| :-- | :-- |
| value | meets `Q` |
| fault | repeats something or is an attribute of another kind, at a position with `pos` |

The remaining faults say that a node or an option stands where it may not; a written tree has
none of those (`fault_of_read`).
-/
import Storybook.Proofs.Script.WrittenTree
import Storybook.Proofs.Story.Parts
import Storybook.Script.Compile

namespace Storybook.Script

/-- The kinds of agents that have attributes, with the attributes that they take. -/
def drawnKinds : List (String × List String) :=
  [("text", textAttributes), ("button", buttonAttributes), ("image", imageAttributes),
    ("video", videoAttributes)]

/-- The faults that scripts can have. -/
inductive Fault.IsOfScript : Fault → Prop
  | attribute (a : Attribute) : IsOfScript (.duplicate a.key)
  | modifier (m : Modifier) : IsOfScript (.duplicate m.key)
  | autoAdvance : IsOfScript (.duplicate "auto_advance")
  | property (name : String) : IsOfScript (.duplicateProperty name)
  | notTaken {kind : String} {taken : List String} (a : Attribute) :
    (kind, taken) ∈ drawnKinds → a.key ∉ taken → IsOfScript (.notAttribute a.key kind)

/-! ## The judgements -/

/-- Whether a checked value meets a condition, and a fault is one of scripts. -/
def Checked.Makes (pos : Position → Prop) (m : Checked α) (Q : α → Prop) : Prop :=
  match m with
  | .ok value => Q value
  | .error f => f.Meets pos Fault.IsOfScript

/-- Whether the values of a step of assembly meet a condition, and its faults are ones of
scripts. -/
def Assembly.Makes (pos : Position → Prop) (m : Assembly ι α) (Q : α → Prop) : Prop :=
  ∀ ids, Checked.Makes pos (m ids) fun result => Q result.1

variable {pos : Position → Prop} {α β : Type} {Q : α → Prop} {S : β → Prop}

theorem Checked.Makes.bind {m : Checked α} {f : α → Checked β} (hm : Checked.Makes pos m Q)
    (hf : ∀ v, Q v → Checked.Makes pos (f v) S) : Checked.Makes pos (m >>= f) S := by
  cases m with
  | ok value => exact hf value hm
  | error fault => exact hm

namespace Assembly.Makes

variable {ι : Type} {m : Assembly ι α}

theorem pure {value : α} (h : Q value) : Makes pos (Pure.pure value : Assembly ι α) Q :=
  fun _ => h

theorem bind {f : α → Assembly ι β} (hm : Makes pos m Q) (hf : ∀ v, Q v → Makes pos (f v) S) :
    Makes pos (m >>= f) S :=
  fun ids => (hm ids).bind fun result hresult => hf result.1 hresult result.2

theorem stop {position : Position} {f : Fault} (hp : pos position) (hf : f.IsOfScript) :
    Makes pos (Script.stop position f : Assembly ι α) Q :=
  fun _ => ⟨hp, hf⟩

/-- A checked value as a step of assembly. -/
theorem checked {m : Checked α} (h : Checked.Makes pos m Q) :
    Makes pos (monadLift m : Assembly ι α) Q :=
  fun _ => h.bind fun _ hv => hv

theorem agentId [IdSource ι] (kind : String) (id : Option String) :
    Makes pos (Script.agentId kind id : Assembly ι String) fun _ => True := by
  cases id with
  | some id => exact pure trivial
  | none => exact fun _ => trivial

end Assembly.Makes

/-! ## Options -/

/-- Going through options keeps what every single one keeps. -/
theorem collect_makes {key : β → String} {add : α → Located β → Checked α}
    {seen : List String} {done : α} {items : List (Located β)}
    (hkey : ∀ b, (Fault.duplicate (key b)).IsOfScript) (hdone : Q done)
    (hpos : ∀ i ∈ items, pos i.position)
    (hadd : ∀ i ∈ items, ∀ a, Q a → Checked.Makes pos (add a i) Q) :
    Checked.Makes pos (collect key add seen done items) Q := by
  induction items generalizing seen done with
  | nil => exact hdone
  | cons item rest ih =>
    obtain ⟨hhere, hpos⟩ := List.forall_mem_cons.mp hpos
    obtain ⟨hitem, hadd⟩ := List.forall_mem_cons.mp hadd
    rw [collect]
    split
    · exact ⟨hhere, hkey item.value⟩
    · exact (hitem done hdone).bind fun next hnext => ih hnext hpos hadd

theorem animationSpec_makes (kind : String) {modifiers : List (Located Modifier)}
    (h : ∀ m ∈ modifiers, m.Meets pos Modifier.IsOfAnimation) :
    Checked.Makes pos (animationSpec kind modifiers) fun _ => True := by
  refine collect_makes .modifier trivial (fun m hm => (h m hm).1) fun m hm spec _ => ?_
  have hkind := (h m hm).2
  cases hvalue : m.value <;> rw [hvalue] at hkind
  case duration | cycles => exact trivial
  all_goals exact hkind.elim

theorem tweenOptions_makes {modifiers : List (Located Modifier)}
    (h : ∀ m ∈ modifiers, m.Meets pos Modifier.IsOfTween) :
    Checked.Makes pos (tweenOptions modifiers) fun _ => True := by
  refine collect_makes .modifier trivial (fun m hm => (h m hm).1) fun m hm options _ => ?_
  have hkind := (h m hm).2
  cases hvalue : m.value <;> rw [hvalue] at hkind
  case duration | easing => exact trivial
  all_goals exact hkind.elim

variable {num : Float → Prop}

theorem musicOptions_makes {modifiers : List (Located Modifier)}
    (h : ∀ m ∈ modifiers, m.Meets pos (Modifier.IsOfMusic num)) :
    Checked.Makes pos (musicOptions modifiers) fun options => ∀ x ∈ options.volume, num x := by
  refine collect_makes .modifier (fun _ hx => nomatch hx) (fun m hm => (h m hm).1)
    fun m hm options ho => ?_
  have hkind := (h m hm).2
  cases hvalue : m.value <;> rw [hvalue] at hkind
  case looping => exact ho
  case volume x =>
    intro y hy
    cases hy
    exact hkind
  all_goals exact hkind.elim

/-! ## Attributes -/

/-- Whether the numbers of a look are of a kind. -/
structure Look.Has (num : Float → Prop) (look : Look) : Prop where
  position : ∀ p ∈ look.position, num p.x ∧ num p.y
  size : ∀ p ∈ look.size, num p.x ∧ num p.y
  fontSize : ∀ x ∈ look.fontSize, num x

theorem Look.add_makes {look : Look} {a : Attribute} (hlook : look.Has num)
    (ha : a.Written num pos) : Checked.Makes pos (look.add a) (Look.Has num) := by
  obtain ⟨hposition, hsize, hfont⟩ := hlook
  cases a with
  | place p =>
    refine ⟨fun p' hp => ?_, hsize, hfont⟩
    cases hp
    exact ha
  | size p =>
    refine ⟨hposition, fun p' hp => ?_, hfont⟩
    cases hp
    exact ha
  | fontSize x =>
    refine ⟨hposition, hsize, fun x' hx => ?_⟩
    cases hx
    exact ha
  | animate kind modifiers =>
    exact (animationSpec_makes kind ha).bind fun _ _ => ⟨hposition, hsize, hfont⟩
  | id | color | autoplay | looping => exact ⟨hposition, hsize, hfont⟩

theorem Look.collect_makes {kind : String} {allowed : List String}
    (hkind : (kind, allowed) ∈ drawnKinds) {seen : List String}
    {look : Look} {attributes : List (Located Attribute)} (hlook : look.Has num)
    (h : ∀ a ∈ attributes, a.Meets pos (Attribute.Written num pos)) :
    Checked.Makes pos (Look.collect kind allowed seen look attributes) (Look.Has num) := by
  induction attributes generalizing seen look with
  | nil => exact hlook
  | cons a rest ih =>
    obtain ⟨⟨hpos, ha⟩, hrest⟩ := List.forall_mem_cons.mp h
    rw [Look.collect]
    split
    · next hallowed =>
      refine ⟨hpos, .notTaken a.value hkind ?_⟩
      simpa using hallowed
    · split
      · exact ⟨hpos, .attribute a.value⟩
      · exact (Look.add_makes hlook ha).bind fun next hnext => ih hnext hrest

/-- The look of an agent, from nothing. -/
theorem Look.collect_makes_empty {kind : String} {allowed : List String}
    (hkind : (kind, allowed) ∈ drawnKinds) {attributes : List (Located Attribute)}
    (h : ∀ a ∈ attributes, a.Meets pos (Attribute.Written num pos)) :
    Checked.Makes pos (Look.collect kind allowed [] {} attributes) (Look.Has num) :=
  Look.collect_makes hkind
    ⟨fun _ hp => (nomatch hp), fun _ hp => (nomatch hp), fun _ hx => (nomatch hx)⟩ h

/-! ## Nodes -/

namespace Node.Written

theorem command {k : BlockKind} {c : Command} (h : Node.Written num pos k (.statement c)) :
    c.Written num pos ∧ (k.hasAgents = true → c.isScheduled = false) := by
  cases h with
  | statement _ hatOnce hc => exact ⟨hc, hatOnce⟩

theorem isAgent_of_agents {node : Node} (h : Node.Written num pos .agents node) :
    node.isAgent = true := by
  cases h with
  | statement hk => exact nomatch hk
  | _ => rfl

theorem eq_of_statements {node : Node} (h : Node.Written num pos .statements node) :
    ∃ c : Command, node = .statement c ∧ c.Written num pos := by
  cases h with
  | statement _ _ hc => exact ⟨_, rfl, hc⟩
  | text _ hk | button _ hk | image _ hk | video _ hk | choice hk | forEach hk | wait _ hk
  | timer _ _ hk => exact nomatch hk

theorem eq_of_story {node : Node} (h : Node.Written num pos .story node) :
    (∃ id items, node = .page id items ∧ (∀ i ∈ items, pos i.position) ∧
      ∀ i ∈ items, i.value.Written num pos .page) ∨
    ∃ c : Command, node = .statement c ∧ c.Written num pos := by
  cases h with
  | page hpos hitems => exact .inl ⟨_, _, rfl, hpos, hitems⟩
  | statement _ _ hc => exact .inr ⟨_, rfl, hc⟩
  | text _ hk | button _ hk | image _ hk | video _ hk | choice hk | forEach hk | wait _ hk
  | timer _ _ hk => exact nomatch hk

end Node.Written

/-- Whether the parts of written trees become parts of a kind. -/
structure Admits (q : Parts) (num : Float → Prop) : Prop where
  number : ∀ x, num x → q.number x
  name : ∀ name, isVariableName name = true → q.name name
  expression : ∀ e, Written num (maxNesting - 1) e → q.expression (withPlaceholders e)
  label : ∀ content, q.label (interpolated content)

/-- Whether the parts of a block are of a kind. -/
structure Block.Has (q : Parts) (b : Block) : Prop where
  agents : ∀ a ∈ b.agents, a.Has q
  statements : ∀ s ∈ b.statements, s.HasAtOnce q

theorem Block.has_empty {q : Parts} : ({} : Block).Has q :=
  ⟨fun _ h => absurd h List.not_mem_nil, fun _ h => absurd h List.not_mem_nil⟩

theorem Block.Has.addAgent {q : Parts} {b : Block} {agent : Agent} (hb : b.Has q)
    (h : agent.Has q) : (b.addAgent agent).Has q :=
  ⟨List.forall_mem_append.mpr ⟨hb.agents, List.forall_mem_singleton.mpr h⟩, hb.statements⟩

theorem Block.Has.addStatement {q : Parts} {b : Block} {statement : Statement} (hb : b.Has q)
    (h : statement.HasAtOnce q) : (b.addStatement statement).Has q :=
  ⟨hb.agents, List.forall_mem_append.mpr ⟨hb.statements, List.forall_mem_singleton.mpr h⟩⟩

theorem propertyTable_makes {q : Parts} (hq : Admits q num) {done : Table Expression}
    {properties : List (Located Property)} (hdone : ∀ e ∈ done.entries, q.expression e.2)
    (h : ∀ p ∈ properties, p.Meets pos fun p => Written num (maxNesting - 1) p.value) :
    Checked.Makes pos (propertyTable done properties) fun t =>
      t.isEmpty = (done.isEmpty && properties.isEmpty) ∧ ∀ e ∈ t.entries, q.expression e.2 := by
  induction properties generalizing done with
  | nil => exact ⟨(Bool.and_true _).symm, hdone⟩
  | cons p rest ih =>
    obtain ⟨⟨hpos, hp⟩, hrest⟩ := List.forall_mem_cons.mp h
    rw [propertyTable]
    split
    · exact ⟨hpos, .property p.value.name⟩
    · have hnext := @ih (done.insert p.value.name (withPlaceholders p.value.value))
        (fun e he => ?_) hrest
      · rw [Table.isEmpty_insert, Bool.false_and] at hnext
        rw [List.isEmpty_cons, Bool.and_false]
        exact hnext
      · rcases Table.mem_insertEntry he with rfl | he
        · exact hq.expression _ hp
        · exact hdone e he

namespace Assembly

variable {ι : Type} [IdSource ι] {q : Parts}

theorem makes_look (hq : Admits q num) (kind : String) (allowed : List String)
    (hkind : (kind, allowed) ∈ drawnKinds) (id : Look → Option String)
    {attributes : List (Located Attribute)} {f : Look → String → Assembly ι Agent}
    {P : Agent → Prop} (h : ∀ a ∈ attributes, a.Meets pos (Attribute.Written num pos))
    (hf : ∀ look id, (∀ p ∈ look.position, p.Has q) → (∀ p ∈ look.size, p.Has q) →
      (∀ x ∈ look.fontSize, q.number x) → Makes pos (f look id) P) :
    Makes pos (do
      let look ← Look.collect kind allowed [] {} attributes
      let id ← agentId kind (id look)
      f look id) P := by
  refine Makes.bind (.checked (Look.collect_makes_empty hkind h)) fun look hlook => ?_
  refine (Makes.agentId _ _).bind fun id _ => ?_
  have hpoint (p : Point) (hp : num p.x ∧ num p.y) : p.Has q :=
    ⟨hq.number _ hp.1, hq.number _ hp.2⟩
  exact hf look id (fun p hp => hpoint p (hlook.position p hp))
    (fun p hp => hpoint p (hlook.size p hp)) fun x hx => hq.number x (hlook.fontSize x hx)

mutual

theorem assembleAgent_makes (hq : Admits q num) (position : Position) : (node : Node) →
    {k : BlockKind} → node.Written num pos k → node.isAgent = true →
      Makes pos (assembleAgent position node : Assembly ι Agent) (Agent.Has q)
  | .text content attributes, _, .text _ _ ha, _ =>
    makes_look hq "text" textAttributes (by simp [drawnKinds]) Look.id ha fun _ _ hp _ hx =>
      .pure ⟨hq.label content, hp, hx⟩
  | .button label attributes handlers, _, .button _ _ ha hpos hitems, _ => by
    refine makes_look hq "button" buttonAttributes (by simp [drawnKinds]) Look.id ha
      fun _ _ hp hs _ => ?_
    exact (assembleHandlers_makes hq handlers hpos hitems).bind fun _ hh =>
      .pure ⟨hq.label label, hp, hs, hh⟩
  | .image _ attributes, _, .image _ _ ha, _ =>
    makes_look hq "image" imageAttributes (by simp [drawnKinds]) Look.id ha
      fun _ _ hp hs _ => .pure ⟨hp, hs⟩
  | .video _ attributes, _, .video _ _ ha, _ =>
    makes_look hq "video" videoAttributes (by simp [drawnKinds]) Look.id ha
      fun _ _ hp hs _ => .pure ⟨hp, hs⟩
  | .choice _ items elseItems, _, .choice _ hcondition hpos hitems hpos' hitems', _ => by
    refine (assembleAgents_makes hq items hpos hitems).bind fun _ hagents => ?_
    refine (assembleAgents_makes hq elseItems hpos' hitems').bind fun _ helse => .pure ?_
    exact ⟨hq.expression _ hcondition, (Agent.allHave_iff q).mpr hagents,
      (Agent.allHave_iff q).mpr helse⟩
  | .forEach _ _ items, _, .forEach _ hname hrange hpos hitems, _ => by
    refine (assembleAgents_makes hq items hpos hitems).bind fun _ hagents => .pure ?_
    exact ⟨hq.name _ hname, hq.expression _ hrange, (Agent.allHave_iff q).mpr hagents⟩
  | .wait _ items, _, .wait _ _ hpos hitems, _ => by
    refine (assembleBlock_makes hq false items rfl Block.has_empty hpos hitems).bind
      fun _ hb => .pure ?_
    exact ⟨(Agent.allHave_iff q).mpr hb.agents, hb.statements⟩
  | .timer _ _ items, _, .timer _ _ _ hpos hitems, _ => by
    refine (assembleStatements_makes hq items hpos hitems).bind fun _ hs => .pure ?_
    exact (Statement.allHave_iff q).mpr hs
  | .page .., _, _, h | .autoAdvance _, _, _, h | .statement _, _, _, h => nomatch h

theorem assembleStatement_makes (hq : Admits q num) : (command : Command) →
    command.Written num pos →
      Makes pos (assembleStatement command : Assembly ι Statement) fun s =>
        s.Has q ∧ s.isScheduled = command.isScheduled
  | .init .., .init hname he => .pure ⟨⟨hq.name _ hname, hq.expression _ he⟩, rfl⟩
  | .set .., .set hname he => .pure ⟨⟨hq.name _ hname, hq.expression _ he⟩, rfl⟩
  | .add .., .add hname he => .pure ⟨⟨hq.name _ hname, hq.expression _ he⟩, rfl⟩
  | .subtract .., .subtract hname he => .pure ⟨⟨hq.name _ hname, hq.expression _ he⟩, rfl⟩
  | .goToPage _, _ | .goBack, _ | .stopAnimation _, _ | .stopSound _, _ | .stopMusic, _ =>
    .pure ⟨trivial, rfl⟩
  | .move .., .move _ hx hy hm => by
    refine (Makes.checked (tweenOptions_makes hm)).bind fun _ _ => .pure ⟨?_, rfl⟩
    exact ⟨hq.expression _ hx, hq.expression _ hy⟩
  | .tween _ properties _, .tween _ hne hp hm => by
    have hnone : ∀ e ∈ (Table.empty : Table Expression).entries, q.expression e.2 :=
      fun _ he => absurd he List.not_mem_nil
    refine (Makes.checked (propertyTable_makes hq hnone hp)).bind fun t ht => ?_
    refine (Makes.checked (tweenOptions_makes hm)).bind fun _ _ => .pure ⟨⟨?_, ht.2⟩, rfl⟩
    have hempty : properties.isEmpty = false := List.isEmpty_eq_false_iff.mpr hne
    rw [ht.1, hempty, Bool.and_false]
  | .animate .., .animate _ _ hm =>
    (Makes.checked (animationSpec_makes _ hm)).bind fun _ _ => .pure ⟨trivial, rfl⟩
  | .playSound .., .playSound _ hv => .pure ⟨fun x hx => hq.number x (hv x hx), rfl⟩
  | .music .., .music _ hm =>
    (Makes.checked (musicOptions_makes hm)).bind fun _ ho =>
      .pure ⟨fun x hx => hq.number x (ho x hx), rfl⟩
  | .wait _ body, .wait _ hpos hbody => by
    refine (assembleStatements_makes hq body hpos hbody).bind fun _ hs => .pure ⟨?_, rfl⟩
    exact (Statement.allHave_iff q).mpr hs
  | .timer _ _ body, .timer _ _ hpos hbody => by
    refine (assembleStatements_makes hq body hpos hbody).bind fun _ hs => .pure ⟨?_, rfl⟩
    exact (Statement.allHave_iff q).mpr hs

theorem assembleAgents_makes (hq : Admits q num) : (items : List (Located Node)) →
    (∀ i ∈ items, pos i.position) → (∀ i ∈ items, i.value.Written num pos .agents) →
      Makes pos (assembleAgents items : Assembly ι (List Agent)) fun l => ∀ a ∈ l, Agent.Has q a
  | [], _, _ => .pure fun _ h => nomatch h
  | ⟨position, node⟩ :: rest, hpos, h => by
    obtain ⟨-, hpos⟩ := List.forall_mem_cons.mp hpos
    obtain ⟨hnode, hrest⟩ := List.forall_mem_cons.mp h
    rw [assembleAgents, if_pos hnode.isAgent_of_agents]
    refine (assembleAgent_makes hq position node hnode hnode.isAgent_of_agents).bind fun a ha => ?_
    refine (assembleAgents_makes hq rest hpos hrest).bind fun l hl => .pure ?_
    exact List.forall_mem_cons.mpr ⟨ha, hl⟩

theorem assembleStatements_makes (hq : Admits q num) : (items : List (Located Node)) →
    (∀ i ∈ items, pos i.position) → (∀ i ∈ items, i.value.Written num pos .statements) →
      Makes pos (assembleStatements items : Assembly ι (List Statement)) fun l =>
        ∀ s ∈ l, Statement.Has q s
  | [], _, _ => .pure fun _ h => nomatch h
  | ⟨position, node⟩ :: rest, hpos, h => by
    obtain ⟨-, hrestPos⟩ := List.forall_mem_cons.mp hpos
    obtain ⟨hnode, hrest⟩ := List.forall_mem_cons.mp h
    obtain ⟨command, rfl, hc⟩ := hnode.eq_of_statements
    refine (assembleStatement_makes hq command hc).bind fun s hs => ?_
    refine (assembleStatements_makes hq rest hrestPos hrest).bind fun l hl => .pure ?_
    exact List.forall_mem_cons.mpr ⟨hs.1, hl⟩

theorem assembleBlock_makes (hq : Admits q num) (inPage : Bool) : (items : List (Located Node)) →
    {k : BlockKind} → {done : Block} → (k = if inPage then .page else .mixed) → done.Has q →
      (∀ i ∈ items, pos i.position) → (∀ i ∈ items, i.value.Written num pos k) →
        Makes pos (assembleBlock inPage done items : Assembly ι Block) (Block.Has q)
  | [], _, _, _, hdone, _, _ => .pure hdone
  | ⟨position, node⟩ :: rest, k, done, hk, hdone, hpos, h => by
    obtain ⟨hhere, hpos⟩ := List.forall_mem_cons.mp hpos
    obtain ⟨hnode, hitems⟩ := List.forall_mem_cons.mp h
    have hrest (done : Block) (hdone : done.Has q) :
        Makes pos (assembleBlock inPage done rest : Assembly ι Block) (Block.Has q) :=
      assembleBlock_makes hq inPage rest hk hdone hpos hitems
    have hagent (h : node.isAgent = true) : Makes pos (do
        let agent ← assembleAgent position node
        let next ← (pure (done.addAgent agent) : Assembly ι Block)
        assembleBlock inPage next rest) (Block.Has q) :=
      (assembleAgent_makes hq position node hnode h).bind fun a ha =>
        Makes.bind (.pure (hdone.addAgent ha)) hrest
    cases node with
    | statement command =>
      obtain ⟨hc, hatOnce⟩ := hnode.command
      refine (assembleStatement_makes hq command hc).bind fun s hs => ?_
      have hagents : k.hasAgents = true := by
        subst hk
        cases inPage <;> rfl
      exact Makes.bind (.pure (hdone.addStatement ⟨hs.1, hs.2.trans (hatOnce hagents)⟩)) hrest
    | page =>
      cases hnode
      cases inPage <;> cases hk
    | autoAdvance delay =>
      cases hnode
      cases inPage with
      | false => cases hk
      | true =>
        rw [assembleBlock, Bool.not_true, if_neg Bool.false_ne_true]
        split
        · exact Makes.bind (.stop hhere .autoAdvance) hrest
        · exact hrest _ ⟨hdone.agents, hdone.statements⟩
    | _ => exact hagent rfl

theorem assembleHandlers_makes (hq : Admits q num) : (handlers : List (HandlerNode Node)) →
    (∀ h ∈ handlers, ∀ i ∈ h.body, pos i.position) →
    (∀ h ∈ handlers, ∀ i ∈ h.body, i.value.Written num pos .statements) →
      Makes pos (assembleHandlers handlers : Assembly ι (List Handler)) fun l =>
        ∀ h ∈ l, Statement.AllHave q h.statements
  | [], _, _ => .pure fun _ h => nomatch h
  | ⟨gesture, body⟩ :: rest, hpos, h => by
    obtain ⟨hbodyPos, hpos⟩ := List.forall_mem_cons.mp hpos
    obtain ⟨hbody, hrest⟩ := List.forall_mem_cons.mp h
    refine (assembleStatements_makes hq body hbodyPos hbody).bind fun s hs => ?_
    refine (assembleHandlers_makes hq rest hpos hrest).bind fun l hl => .pure ?_
    exact List.forall_mem_cons.mpr ⟨(Statement.allHave_iff q).mpr hs, hl⟩

end

theorem assembleStory_makes (hq : Admits q num) (items : List (Located Node))
    (h : ∀ i ∈ items, i.Meets pos (Node.Written num pos .story)) :
    Makes pos (assembleStory items : Assembly ι (List Page × List Statement)) fun r =>
      (∀ page ∈ r.1, page.Has q) ∧ ∀ s ∈ r.2, Statement.Has q s := by
  induction items with
  | nil => exact .pure ⟨fun _ h => (nomatch h), fun _ h => (nomatch h)⟩
  | cons item rest ih =>
    obtain ⟨position, node⟩ := item
    obtain ⟨⟨-, hnode⟩, hrest⟩ := List.forall_mem_cons.mp h
    obtain ⟨id, items, rfl, hpos, hitems⟩ | ⟨command, rfl, hc⟩ := hnode.eq_of_story
    · refine (assembleBlock_makes hq true items rfl Block.has_empty hpos hitems).bind
        fun b hb => ?_
      refine (ih hrest).bind fun r hr => .pure ⟨?_, hr.2⟩
      exact List.forall_mem_cons.mpr ⟨⟨hb.agents, hb.statements⟩, hr.1⟩
    · refine (assembleStatement_makes hq command hc).bind fun s hs => ?_
      refine (ih hrest).bind fun r hr => .pure ⟨hr.1, ?_⟩
      exact List.forall_mem_cons.mpr ⟨hs.1, hr.2⟩

/-- A tree that a script can write becomes a story with the parts of the tree, or fails for
something that scripts can have wrong, and where the script has it. -/
theorem tree_makes (hq : Admits q num) {tree : Tree} (h : tree.Written num pos) :
    Makes pos (tree.assemble : Assembly ι Story) (Story.Has q) :=
  (assembleStory_makes hq tree.items h).bind fun _ hr => .pure hr

end Assembly

theorem any_admits : Admits .any fun _ => True :=
  ⟨fun _ _ => trivial, fun _ _ => trivial, fun _ _ => trivial, fun _ => trivial⟩

/-- Where the grammar accepts a script and assembly of its tree fails, the script repeats an
attribute, an option, the delay of a page or a property, or it gives an agent an attribute that
agents of its kind do not take.  That a node stands where it may not, or an option in a
statement of another kind, never happens: the grammar has refused such scripts. -/
theorem fault_of_read {ι : Type} [IdSource ι] {source : String} {tree : Tree}
    (hread : Tree.read source = .ok tree) (ids : ι) {f : Located Fault}
    (h : tree.assemble ids = .error f) :
    f.value.IsOfScript ∧ Position.IsOf source f.position := by
  have hwritten : tree.Written (fun _ => True) (Position.IsOf source) :=
    Tree.written_of_read (fun _ _ => trivial) Rule.Yields.anyNumber hread
  have hmakes := Assembly.tree_makes any_admits hwritten ids
  rw [h] at hmakes
  obtain ⟨hpos, hfault⟩ := hmakes
  exact ⟨hfault, hpos⟩

/-- A script that says twice where a text stands. -/
def twiceScript : String := "fable \"Twice\" do page 1 do text \"Here\" at [1, 2] at [3, 4] end end"

theorem fault_of_read_twice : ∃ tree f, Tree.read twiceScript = .ok tree ∧
    tree.assemble (⟨0⟩ : IdCounter) = .error f ∧ f.value = .duplicate "at" ∧
      f.value.IsOfScript ∧ Position.IsOf twiceScript f.position := by
  have hfault : ((Tree.read twiceScript).toOption.bind fun tree =>
      match tree.assemble (⟨0⟩ : IdCounter) with
      | .ok _ => none
      | .error f => some f.value) = some (.duplicate "at") := by
    decide +kernel
  cases hread : Tree.read twiceScript with
  | error e => rw [hread] at hfault; exact nomatch hfault
  | ok tree =>
    rw [hread] at hfault
    cases h : tree.assemble (⟨0⟩ : IdCounter) with
    | ok result =>
      simp only [Except.toOption, Option.bind_some, h] at hfault
      exact nomatch hfault
    | error f =>
      simp only [Except.toOption, Option.bind_some, h] at hfault
      obtain ⟨hscript, hpos⟩ := fault_of_read hread (⟨0⟩ : IdCounter) h
      exact ⟨tree, f, rfl, h, Option.some.inj hfault, hscript, hpos⟩

/-- The parts of a story are those of its script. -/
theorem compile_has {q : Parts} {ι : Type} [IdSource ι] {ids ids' : ι} {source : String}
    {story : Story} (hq : Admits q num) (hneg : ∀ x, num x → num (-x))
    (hnum : Rule.Yields source Rule.number num) (h : compile ids source = .ok (story, ids')) :
    story.Has q := by
  obtain ⟨tree, hread, hassemble⟩ := compile_eq_ok_iff.mp h
  have hmakes := Assembly.tree_makes hq (Tree.written_of_read hneg hnum hread) ids
  rw [hassemble] at hmakes
  exact hmakes

/-- A script of which something is seen in its story is accepted. -/
theorem exists_compile_of_map {α ι : Type} [IdSource ι] {ids : ι} {source : String}
    (see : Story → α) {a : α}
    (h : (compile ids source).toOption.map (fun result => see result.1) = some a) :
    ∃ story ids', compile ids source = .ok (story, ids') ∧ see story = a := by
  obtain ⟨⟨story, ids'⟩, hcompile, hseen⟩ := exists_ok_of_map h
  exact ⟨story, ids', hcompile, hseen⟩

end Storybook.Script
