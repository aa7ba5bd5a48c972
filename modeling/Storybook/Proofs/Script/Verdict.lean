/-
# `Storybook.Proofs.Script.Verdict` — what assembly makes of a script

For the tree of a script, `Tree.faults` lists what is wrong in it, and `Tree.toStory` says what
it stands for.  Assembly does one thing at a time and stops at the first fault; it comes to

* the first of the faults, which no other precedes in the text, if there are any;
* the story that the tree stands for, if there are none.

`Decides m faults Q` is the judgement about a step of assembly; faults are handed on through a
sequence by appending them, so that the proof never compares positions.  That the first fault of
the list is the first in the text is `Tree.faults_sorted`.

Only trees of scripts are considered (`Tree.Written`): in others, a node or an option may stand
where it may not, and assembly has faults for that too.
-/
import Storybook.Proofs.Script.Assembled
import Storybook.Proofs.Script.Story
import Storybook.Proofs.Story.Null

namespace Storybook.Script

variable {α β γ : Type} {Q R : α → Prop} {S : β → Prop} {faults others : List (Located Fault)}

/-! ## The judgement -/

/-- Whether a checked value meets a condition and there are no faults, or it is the first of
them. -/
def Checked.Decides (m : Checked α) (faults : List (Located Fault)) (Q : α → Prop) : Prop :=
  match m with
  | .ok value => faults = [] ∧ Q value
  | .error f => faults.head? = some f

/-- The same of a step of assembly. -/
def Assembly.Decides (m : Assembly ι α) (faults : List (Located Fault)) (Q : α → Prop) : Prop :=
  ∀ ids, Checked.Decides (m ids) faults fun result => Q result.1

namespace Checked.Decides

variable {m : Checked α}

theorem bind {f : α → Checked β} (hm : Decides m faults Q)
    (hf : ∀ v, Q v → Decides (f v) others S) : Decides (m >>= f) (faults ++ others) S := by
  cases m with
  | ok value =>
    obtain ⟨rfl, hvalue⟩ := hm
    exact hf value hvalue
  | error fault =>
    show (faults ++ others).head? = some fault
    rw [List.head?_append, hm]
    rfl

/-- The value of a step is what it comes to. -/
theorem value (h : Decides m faults Q) : Decides m faults (m = .ok ·) := by
  cases m with
  | ok value => exact ⟨h.1, rfl⟩
  | error fault => exact h

theorem mono (h : Decides m faults Q) (hQ : ∀ v, Q v → R v) : Decides m faults R := by
  cases m with
  | ok value => exact ⟨h.1, hQ value h.2⟩
  | error fault => exact h

end Checked.Decides

namespace Assembly.Decides

variable {ι : Type} {m : Assembly ι α} {f : α → Assembly ι β}

theorem pure {value : α} (h : Q value) : Decides (Pure.pure value : Assembly ι α) [] Q :=
  fun _ => ⟨rfl, h⟩

theorem bind (hm : Decides m faults Q) (hf : ∀ v, Q v → Decides (f v) others S) :
    Decides (m >>= f) (faults ++ others) S :=
  fun ids => (hm ids).bind fun result hresult => hf result.1 hresult result.2

/-- A step after which nothing can be wrong. -/
theorem map (hm : Decides m faults Q) (hf : ∀ v, Q v → Decides (f v) [] S) :
    Decides (m >>= f) faults S := by
  have h := hm.bind hf
  rwa [List.append_nil] at h

theorem stop (position : Position) (f : Fault) :
    Decides (Script.stop position f : Assembly ι α) [⟨position, f⟩] Q :=
  fun _ => rfl

theorem checked {m : Checked α} (h : Checked.Decides m faults Q) :
    Decides (monadLift m : Assembly ι α) faults Q := by
  intro ids
  have hm : Checked.Decides (m >>= fun v => (.ok (v, ids) : Checked (α × ι))) (faults ++ [])
      fun result => Q result.1 := h.bind fun v hv => ⟨rfl, hv⟩
  rw [List.append_nil] at hm
  exact hm

theorem agentId [IdSource ι] (kind : String) (id : Option String) :
    Decides (Script.agentId kind id : Assembly ι String) [] fun _ => True := by
  cases id with
  | some id => exact pure trivial
  | none => exact fun _ => ⟨rfl, trivial⟩

end Assembly.Decides

/-! ## Options -/

/-- Going through options finds the first one that is repeated; `seen` holds the keys of those
before. -/
theorem collect_decides {key : β → String} {add : α → Located β → Checked α} {seen : List String}
    {before items : List (Located β)} {done : α}
    (hseen : ∀ i, seen.contains (key i.value) = repeatsKey key before i)
    (hadd : ∀ i ∈ items, ∀ a, ∃ next, add a i = .ok next) :
    Checked.Decides (collect key add seen done items)
      (faultsAlong (fun before i =>
        if repeatsKey key before i then [⟨i.position, .duplicate (key i.value)⟩] else [])
        before items) fun _ => True := by
  induction items generalizing seen before done with
  | nil => exact ⟨rfl, trivial⟩
  | cons i rest ih =>
    obtain ⟨hitem, hrest⟩ := List.forall_mem_cons.mp hadd
    rw [collect, faultsAlong, hseen]
    split
    · exact rfl
    · obtain ⟨next, hnext⟩ := hitem done
      rw [hnext]
      refine ih (fun j => ?_) hrest
      rw [List.contains_cons, hseen, repeatsKey_append]

variable {pos : Position → Prop} {num : Float → Prop}

theorem animationSpec_decides (kind : String) {modifiers : List (Located Modifier)}
    (h : ∀ m ∈ modifiers, m.Meets pos Modifier.IsOfAnimation) :
    Checked.Decides (animationSpec kind modifiers) (modifierFaults modifiers)
      (· = animationOf kind modifiers) := by
  refine (collect_decides (fun _ => rfl) fun m hm spec => ?_).value.mono fun _ => eq_animationOf
  have hkind := (h m hm).2
  cases hvalue : m.value <;> rw [hvalue] at hkind
  case duration | cycles => exact ⟨_, rfl⟩
  all_goals exact hkind.elim

theorem tweenOptions_decides {modifiers : List (Located Modifier)}
    (h : ∀ m ∈ modifiers, m.Meets pos Modifier.IsOfTween) :
    Checked.Decides (tweenOptions modifiers) (modifierFaults modifiers)
      (· = tweenOf modifiers) := by
  refine (collect_decides (fun _ => rfl) fun m hm options => ?_).value.mono fun _ => eq_tweenOf
  have hkind := (h m hm).2
  cases hvalue : m.value <;> rw [hvalue] at hkind
  case duration | easing => exact ⟨_, rfl⟩
  all_goals exact hkind.elim

theorem musicOptions_decides {modifiers : List (Located Modifier)}
    (h : ∀ m ∈ modifiers, m.Meets pos (Modifier.IsOfMusic num)) :
    Checked.Decides (musicOptions modifiers) (modifierFaults modifiers)
      (· = musicOf modifiers) := by
  refine (collect_decides (fun _ => rfl) fun m hm options => ?_).value.mono fun _ => eq_musicOf
  have hkind := (h m hm).2
  cases hvalue : m.value <;> rw [hvalue] at hkind
  case looping | volume => exact ⟨_, rfl⟩
  all_goals exact hkind.elim

/-- Going through properties finds the first one that is repeated; the table holds the names of
those before. -/
theorem propertyTable_decides {before properties : List (Located Property)}
    {done : Table Expression}
    (hdone : ∀ p, done.contains p.value.name = repeatsKey Property.name before p) :
    Checked.Decides (propertyTable done properties)
      (faultsAlong (fun before p =>
        if repeatsKey Property.name before p then
          [⟨p.position, .duplicateProperty p.value.name⟩]
        else []) before properties)
      (· = (properties.map fun p => (p.value.name, withPlaceholders p.value.value)).foldl
        (fun t e => t.insert e.1 e.2) done) := by
  induction properties generalizing before done with
  | nil => exact ⟨rfl, rfl⟩
  | cons p rest ih =>
    rw [propertyTable, faultsAlong, hdone]
    split
    · exact rfl
    · refine ih fun q => ?_
      rw [Table.contains_insert, hdone, repeatsKey_append]

/-! ## Attributes -/

theorem Look.add_decides {look : Look} {a : Attribute} (ha : a.Written num pos) :
    Checked.Decides (look.add a) a.faults fun _ => True := by
  cases a with
  | animate kind modifiers =>
    have hadd : Checked.Decides (look.add (.animate kind modifiers))
        ((Attribute.animate kind modifiers).faults ++ []) fun _ => True :=
      (animationSpec_decides kind ha).bind fun _ _ => ⟨rfl, trivial⟩
    rw [List.append_nil] at hadd
    exact hadd
  | id | place | size | color | fontSize | autoplay | looping => exact ⟨rfl, trivial⟩

theorem Look.collect_decides {kind : String} {allowed seen : List String}
    {before attributes : List (Located Attribute)} {look : Look}
    (hseen : ∀ a, seen.contains a.value.key = repeatsKey Attribute.key before a)
    (h : ∀ a ∈ attributes, a.Meets pos (Attribute.Written num pos)) :
    Checked.Decides (Look.collect kind allowed seen look attributes)
      (faultsAlong (fun before a => attributeFault kind allowed before a ++ a.value.faults)
        before attributes) fun _ => True := by
  induction attributes generalizing seen before look with
  | nil => exact ⟨rfl, trivial⟩
  | cons a rest ih =>
    obtain ⟨⟨-, ha⟩, hrest⟩ := List.forall_mem_cons.mp h
    rw [Look.collect, faultsAlong, attributeFault, hseen]
    split
    · exact rfl
    split
    · exact rfl
    · refine (Look.add_decides ha).bind fun next _ => ih (fun b => ?_) hrest
      rw [List.contains_cons, hseen, repeatsKey_append]

namespace Assembly

variable {ι : Type} [IdSource ι]

/-- The look of an agent and its id, and what is made of both. -/
theorem decides_look (kind : String) (allowed : List String) {attributes : List (Located Attribute)}
    {f : Look → String → Assembly ι Agent} {P : Agent → Prop}
    (h : ∀ a ∈ attributes, a.Meets pos (Attribute.Written num pos))
    (hf : ∀ look id, look.IsOf attributes → Decides (f look id) faults P) :
    Decides (do
      let look ← Look.collect kind allowed [] {} attributes
      let id ← agentId kind look.id
      f look id) (attributeFaults kind allowed attributes ++ faults) P := by
  have hlook : Checked.Decides (Look.collect kind allowed [] {} attributes)
      (attributeFaults kind allowed attributes) fun _ => True :=
    Look.collect_decides (fun _ => rfl) h
  refine (Decides.checked hlook.value).bind fun look hcollect => ?_
  exact (Decides.agentId kind look.id).bind fun id _ =>
    hf look id (Look.isOf_of_collect hcollect)

/-- The same where nothing but the attributes can be wrong. -/
theorem decides_look_only (kind : String) (allowed : List String)
    {attributes : List (Located Attribute)} {make : Look → String → Agent} {P : Agent → Prop}
    (h : ∀ a ∈ attributes, a.Meets pos (Attribute.Written num pos))
    (hmake : ∀ look id, look.IsOf attributes → P (make look id)) :
    Decides (do
      let look ← Look.collect kind allowed [] {} attributes
      let id ← agentId kind look.id
      (pure (make look id) : Assembly ι Agent)) (attributeFaults kind allowed attributes) P := by
  have hlook := decides_look (ι := ι) kind allowed (f := fun look id => pure (make look id)) h
    fun look id hlook => .pure (hmake look id hlook)
  rwa [List.append_nil] at hlook

end Assembly

/-! ## Blocks -/

/-- Only pages hold delays. -/
theorem Node.Written.delay?_eq_none {k : BlockKind} {node : Node} (h : node.Written num pos k)
    (hk : k ≠ .page) : node.delay? = none := by
  cases h with
  | autoAdvance => exact absurd rfl hk
  | _ => rfl

theorem Node.allFaults_of_delay?_eq_none {position : Position} {node : Node}
    (h : node.delay? = none) (before rest : List (Located Node)) :
    allFaults before (⟨position, node⟩ :: rest) =
      node.faults ++ allFaults (before ++ [⟨position, node⟩]) rest := by
  rw [allFaults, repeatsDelay, h]
  rfl

/-- What a node adds to a block. -/
structure Block.Adds (node : Node) (b next : Block) : Prop where
  agents :
    Agent.allAnonymous next.agents = Agent.allAnonymous b.agents ++ node.toAgent?.toList
  statements : next.statements = b.statements ++ node.toStatement?.toList
  autoAdvance : next.autoAdvance = b.autoAdvance.or node.delay?

/-- What items add to a block. -/
structure Block.Gains (items : List (Located Node)) (b next : Block) : Prop where
  agents : Agent.allAnonymous next.agents = Agent.allAnonymous b.agents ++ agentsOf items
  statements : next.statements = b.statements ++ statementsOf items
  autoAdvance : next.autoAdvance = b.autoAdvance.or (said Node.delay? items)

namespace Block

variable {b next last : Block} {node : Node}

theorem Gains.nil (b : Block) : Gains [] b b :=
  ⟨(List.append_nil _).symm, (List.append_nil _).symm, Option.or_none.symm⟩

theorem Adds.gains {position : Position} {rest : List (Located Node)} (h : Adds node b next)
    (hrest : Gains rest next last) : Gains (⟨position, node⟩ :: rest) b last where
  agents := by
    rw [hrest.agents, h.agents, List.append_assoc]
    rfl
  statements := by
    rw [hrest.statements, h.statements, List.append_assoc]
    rfl
  autoAdvance := by rw [hrest.autoAdvance, h.autoAdvance, Option.or_assoc, said_cons]

theorem Adds.agent {agent : Agent} (h : node.toAgent? = some agent.anonymous)
    (hstatement : node.toStatement? = none) (hdelay : node.delay? = none) :
    Adds node b (b.addAgent agent) where
  agents := by
    show Agent.allAnonymous (b.agents ++ [agent]) = _
    rw [Agent.allAnonymous_append, h]
    rfl
  statements := by
    rw [hstatement]
    exact (List.append_nil _).symm
  autoAdvance := by
    rw [hdelay]
    exact Option.or_none.symm

theorem Adds.statement (c : Command) :
    Adds (.statement c) b (b.addStatement c.toStatement) :=
  ⟨(List.append_nil _).symm, rfl, Option.or_none.symm⟩

/-- The first delay of a block. -/
theorem Adds.delay {d : Duration} (h : b.autoAdvance = none) :
    Adds (.autoAdvance d) b { b with autoAdvance := some d.milliseconds } where
  agents := (List.append_nil _).symm
  statements := (List.append_nil _).symm
  autoAdvance := by
    rw [h]
    rfl

end Block

namespace Assembly

variable {ι : Type} [IdSource ι]

mutual

theorem assembleAgent_decides (position : Position) : (node : Node) → {k : BlockKind} →
    node.Written num pos k → node.isAgent = true →
      Decides (assembleAgent position node : Assembly ι Agent) node.faults fun agent =>
        node.toAgent? = some agent.anonymous
  | .text content l, _, .text _ _ ha, _ => by
    refine decides_look_only "text" textAttributes ha fun look id h => ?_
    rw [h.position, h.fontSize, h.color, h.animation]
    rfl
  | .button label l handlers, _, .button _ _ ha hpos hitems, _ => by
    refine decides_look "button" buttonAttributes ha fun look id h => ?_
    refine (assembleHandlers_decides handlers hpos hitems).map fun _ hhandlers => .pure ?_
    rw [h.position, h.size, h.color, h.animation, hhandlers]
    rfl
  | .image src l, _, .image _ _ ha, _ => by
    refine decides_look_only "image" imageAttributes ha fun look id h => ?_
    rw [h.position, h.size, h.animation]
    rfl
  | .video src l, _, .video _ _ ha, _ => by
    refine decides_look_only "video" videoAttributes ha fun look id h => ?_
    rw [h.position, h.size, h.autoplay, h.looping, h.animation]
    rfl
  | .choice _ items elseItems, _, .choice _ _ hpos hitems hpos' hitems', _ => by
    refine (assembleAgents_decides [] items hpos hitems).bind fun agents hagents => ?_
    refine (assembleAgents_decides [] elseItems hpos' hitems').map fun _ helse => .pure ?_
    rw [Node.toAgent?, ← hagents, ← helse]
    rfl
  | .forEach _ _ items, _, .forEach _ _ _ hpos hitems, _ => by
    refine (assembleAgents_decides [] items hpos hitems).map fun _ hagents => .pure ?_
    rw [Node.toAgent?, ← hagents]
    rfl
  | .wait _ items, _, .wait _ _ hpos hitems, _ => by
    have hblock : Decides (assembleBlock false {} items : Assembly ι Block)
        (Node.allFaults [] items) (Block.Gains items {}) :=
      assembleBlock_decides false [] items rfl rfl hpos hitems
    refine hblock.map fun b hb => .pure ?_
    rw [Node.toAgent?, hb.statements, ← List.nil_append (agentsOf items)]
    exact congrArg (fun l => some (Agent.wait _ l _)) hb.agents.symm
  | .timer _ _ items, _, .timer _ _ _ hpos hitems, _ => by
    refine (assembleStatements_decides [] items hpos hitems).map fun _ hs => .pure ?_
    rw [hs]
    rfl
  | .page .., _, _, h | .autoAdvance _, _, _, h | .statement _, _, _, h => nomatch h

theorem assembleStatement_decides : (command : Command) → command.Written num pos →
    Decides (assembleStatement command : Assembly ι Statement) command.faults
      (· = command.toStatement)
  | .init .., _ | .set .., _ | .add .., _ | .subtract .., _ | .goToPage _, _ | .goBack, _
  | .stopAnimation _, _ | .playSound .., _ | .stopSound _, _ | .stopMusic, _ => .pure rfl
  | .move .., .move _ _ _ hm =>
    (Decides.checked (tweenOptions_decides hm)).map fun _ h => .pure (h ▸ rfl)
  | .tween _ properties _, .tween _ _ hp hm => by
    have hempty (p : Located Property) :
        (Table.empty : Table Expression).contains p.value.name =
          repeatsKey Property.name [] p := rfl
    refine Decides.bind (.checked (propertyTable_decides hempty)) fun t ht => ?_
    refine (Decides.checked (tweenOptions_decides hm)).map fun _ h => .pure ?_
    rw [h, ht]
    rfl
  | .animate .., .animate _ _ hm =>
    (Decides.checked (animationSpec_decides _ hm)).map fun _ h => .pure (h ▸ rfl)
  | .music .., .music _ hm =>
    (Decides.checked (musicOptions_decides hm)).map fun _ h => .pure (h ▸ rfl)
  | .wait _ body, .wait _ hpos hbody =>
    (assembleStatements_decides [] body hpos hbody).map fun _ h => .pure (h ▸ rfl)
  | .timer _ _ body, .timer _ _ hpos hbody =>
    (assembleStatements_decides [] body hpos hbody).map fun _ h => .pure (h ▸ rfl)

theorem assembleAgents_decides (before : List (Located Node)) : (items : List (Located Node)) →
    (∀ i ∈ items, pos i.position) → (∀ i ∈ items, i.value.Written num pos .agents) →
      Decides (assembleAgents items : Assembly ι (List Agent)) (Node.allFaults before items)
        fun l => Agent.allAnonymous l = agentsOf items
  | [], _, _ => .pure rfl
  | ⟨position, node⟩ :: rest, hpos, h => by
    obtain ⟨-, hpos⟩ := List.forall_mem_cons.mp hpos
    obtain ⟨hnode, hrest⟩ := List.forall_mem_cons.mp h
    have hagent : node.isAgent = true := hnode.isAgent_of_agents
    rw [assembleAgents, if_pos hagent,
      Node.allFaults_of_delay?_eq_none (hnode.delay?_eq_none (nomatch ·))]
    refine (assembleAgent_decides position node hnode hagent).bind fun agent ha => ?_
    refine (assembleAgents_decides _ rest hpos hrest).map fun l hl => .pure ?_
    rw [agentsOf, ha, ← hl]
    rfl

theorem assembleStatements_decides (before : List (Located Node)) :
    (items : List (Located Node)) → (∀ i ∈ items, pos i.position) →
    (∀ i ∈ items, i.value.Written num pos .statements) →
      Decides (assembleStatements items : Assembly ι (List Statement))
        (Node.allFaults before items) (· = statementsOf items)
  | [], _, _ => .pure rfl
  | ⟨position, node⟩ :: rest, hpos, h => by
    obtain ⟨-, hrestPos⟩ := List.forall_mem_cons.mp hpos
    obtain ⟨hnode, hrest⟩ := List.forall_mem_cons.mp h
    obtain ⟨command, rfl, hc⟩ := hnode.eq_of_statements
    rw [Node.allFaults_of_delay?_eq_none rfl]
    refine (assembleStatement_decides command hc).bind fun s hs => ?_
    refine (assembleStatements_decides _ rest hrestPos hrest).map fun l hl => .pure ?_
    rw [hs, hl]
    rfl

/-- The block so far has a delay if and only if some item before does. -/
theorem assembleBlock_decides (inPage : Bool) (before : List (Located Node)) :
    (items : List (Located Node)) → {k : BlockKind} → {done : Block} →
    (k = if inPage then .page else .mixed) →
    (done.autoAdvance.isSome = before.any (·.value.delay?.isSome)) →
    (∀ i ∈ items, pos i.position) → (∀ i ∈ items, i.value.Written num pos k) →
      Decides (assembleBlock inPage done items : Assembly ι Block) (Node.allFaults before items)
        (Block.Gains items done)
  | [], _, done, _, _, _, _ => .pure (.nil done)
  | ⟨position, node⟩ :: rest, k, done, hk, hdone, hpos, h => by
    obtain ⟨-, hpos⟩ := List.forall_mem_cons.mp hpos
    obtain ⟨hnode, hitems⟩ := List.forall_mem_cons.mp h
    have hrest (next : Block) (hnext : Block.Adds node done next) :
        Decides (assembleBlock inPage next rest : Assembly ι Block)
          (Node.allFaults (before ++ [⟨position, node⟩]) rest)
          (Block.Gains (⟨position, node⟩ :: rest) done) := by
      have hdelay : next.autoAdvance.isSome =
          (before ++ [Located.mk position node]).any (·.value.delay?.isSome) := by
        rw [hnext.autoAdvance, Option.isSome_or, hdone, List.any_append]
        exact congrArg _ (Bool.or_false _).symm
      intro ids
      exact (assembleBlock_decides inPage _ rest hk hdelay hpos hitems ids).mono
        fun _ hgains => hnext.gains hgains
    have hagent (hagent : node.isAgent = true) (hdelay : node.delay? = none)
        (hstatement : node.toStatement? = none) :
        Decides (do
          let agent ← assembleAgent position node
          let next ← (pure (done.addAgent agent) : Assembly ι Block)
          assembleBlock inPage next rest) (Node.allFaults before (⟨position, node⟩ :: rest))
          (Block.Gains (⟨position, node⟩ :: rest) done) := by
      rw [Node.allFaults_of_delay?_eq_none hdelay]
      exact (assembleAgent_decides position node hnode hagent).bind fun agent ha =>
        hrest _ (.agent ha hstatement hdelay)
    cases node with
    | statement command =>
      rw [Node.allFaults_of_delay?_eq_none rfl]
      refine (assembleStatement_decides command hnode.command.1).bind fun s hs => ?_
      subst hs
      exact hrest _ (.statement command)
    | page =>
      cases hnode
      cases inPage <;> cases hk
    | autoAdvance delay =>
      cases hnode
      cases inPage with
      | false => cases hk
      | true =>
        rw [assembleBlock, Bool.not_true, if_neg Bool.false_ne_true, Node.allFaults,
          Node.repeatsDelay, ← hdone]
        cases hadvance : done.autoAdvance with
        | some d => exact Decides.bind (.stop _ _) hrest
        | none => exact hrest _ (.delay hadvance)
    | _ => exact hagent rfl rfl rfl

theorem assembleHandlers_decides : (handlers : List (HandlerNode Node)) →
    (∀ h ∈ handlers, ∀ i ∈ h.body, pos i.position) →
    (∀ h ∈ handlers, ∀ i ∈ h.body, i.value.Written num pos .statements) →
      Decides (assembleHandlers handlers : Assembly ι (List Handler))
        (Node.handlerFaults handlers) (· = handlersOf handlers)
  | [], _, _ => .pure rfl
  | ⟨gesture, body⟩ :: rest, hpos, h => by
    obtain ⟨hbodyPos, hpos⟩ := List.forall_mem_cons.mp hpos
    obtain ⟨hbody, hrest⟩ := List.forall_mem_cons.mp h
    refine (assembleStatements_decides [] body hbodyPos hbody).bind fun s hs => ?_
    refine (assembleHandlers_decides rest hpos hrest).map fun l hl => .pure ?_
    rw [hs, hl]
    rfl

end

theorem assembleStory_decides (before items : List (Located Node))
    (h : ∀ i ∈ items, i.Meets pos (Node.Written num pos .story)) :
    Decides (assembleStory items : Assembly ι (List Page × List Statement))
      (Node.allFaults before items) fun r =>
        r.1.map Page.anonymous = items.filterMap (·.value.toPage?) ∧ r.2 = statementsOf items := by
  induction items generalizing before with
  | nil => exact .pure ⟨rfl, rfl⟩
  | cons item rest ih =>
    obtain ⟨position, node⟩ := item
    obtain ⟨⟨-, hnode⟩, hrest⟩ := List.forall_mem_cons.mp h
    rw [Node.allFaults_of_delay?_eq_none (hnode.delay?_eq_none (nomatch ·))]
    obtain ⟨id, items, rfl, hpos, hitems⟩ | ⟨command, rfl, hc⟩ := hnode.eq_of_story
    · have hblock : Decides (assembleBlock true {} items : Assembly ι Block)
          (Node.allFaults [] items) (Block.Gains items {}) :=
        assembleBlock_decides true [] items rfl rfl hpos hitems
      refine hblock.bind fun b hb => ?_
      refine (ih _ hrest).map fun r hr => .pure ⟨?_, hr.2⟩
      show Page.mk id (Agent.allAnonymous b.agents) b.statements b.autoAdvance ::
        r.1.map Page.anonymous = _
      rw [hb.agents, hb.statements, hb.autoAdvance, hr.1]
      rfl
    · refine (assembleStatement_decides command hc).bind fun s hs => ?_
      refine (ih _ hrest).map fun r hr => .pure ⟨hr.1, ?_⟩
      rw [hs, hr.2]
      rfl

theorem tree_decides {tree : Tree} (h : tree.Written num pos) :
    Decides (tree.assemble : Assembly ι Story) tree.faults fun story =>
      story.anonymous = tree.toStory := by
  refine (assembleStory_decides [] tree.items h).map fun r hr => .pure ?_
  unfold Story.anonymous Tree.toStory
  rw [hr.1, hr.2]

end Assembly

/-- Assembly of the tree of a script fails if and only if something is wrong in the tree; the
fault is then one of those, and no other stands before it.  Otherwise it makes the story that
the tree stands for: every block has the agents of those of its items that are agents and the
statements of those that are statements, in the order of the items, and an agent has its own id
where the script gives one. -/
theorem assemble_of_read {ι : Type} [IdSource ι] {source : String} {tree : Tree}
    (hread : Tree.read source = .ok tree) (ids : ι) :
    ((∃ f, tree.assemble ids = .error f) ↔ tree.faults ≠ []) ∧
      (∀ f, tree.assemble ids = .error f →
        f ∈ tree.faults ∧ ∀ g ∈ tree.faults, f.position ≤ g.position) ∧
      ∀ story ids', tree.assemble ids = .ok (story, ids') →
        story.anonymous = tree.toStory ∧ story.DrawnAs tree.drawn := by
  have hwritten : tree.Written (fun _ => True) (Position.IsOf source) :=
    Tree.written_of_read (fun _ _ => trivial) Rule.Yields.anyNumber hread
  have hdecides := Assembly.tree_decides hwritten ids
  have hagree := Assembly.tree_agree (ι := ι) (κ := ι) tree ids ids
  cases h : tree.assemble ids with
  | ok result =>
    rw [h] at hdecides hagree
    obtain ⟨hnone, hstory⟩ := hdecides
    refine ⟨⟨fun ⟨_, hf⟩ => (nomatch hf), fun hsome => absurd hnone hsome⟩,
      fun _ hf => (nomatch hf), fun story ids' hresult => ?_⟩
    cases hresult
    cases hagree with
    | ok hdrawn => exact ⟨hstory, hdrawn.left⟩
  | error f =>
    rw [h] at hdecides
    have hfirst : tree.faults.head? = some f := hdecides
    obtain ⟨others, hfaults⟩ := List.head?_eq_some_iff.mp hfirst
    have hsorted := Tree.faults_sorted hread
    rw [hfaults] at hsorted ⊢
    refine ⟨⟨fun _ => List.cons_ne_nil _ _, fun _ => ⟨f, rfl⟩⟩, fun g hg => ?_,
      fun _ _ hresult => (nomatch hresult)⟩
    cases hg
    refine ⟨List.mem_cons_self, fun g hg => ?_⟩
    rcases List.mem_cons.mp hg with rfl | hg
    · exact le_refl _
    · exact (List.pairwise_cons.mp hsorted).1 g hg

/-- A script that says twice where a text stands, and twice when its page is turned. -/
def shelfScript : String :=
  "fable \"Shelf\" do page 1 do text \"Books\" at [1, 2] at [3, 4] " ++
    "auto_advance 1s auto_advance 2s end end"

/-- A script with nothing wrong: its text has a placeholder, and its page is turned after seconds. -/
def portScript : String :=
  "fable \"Port\" do page 1 do text \"\x7bboats\x7d boats\" #sign at [1, 2.5] " ++
    "auto_advance 3s set boats to 4 end end"

/-- What its tree stands for. -/
def portStory : Story where
  title := "Port"
  pages :=
    [⟨1, [.text ⟨"", .interpolated [.placeholder "boats", .text " boats"], some ⟨1.0, 2.5⟩,
        none, none, none⟩],
      [.set "boats" (.number 4.0)], some 3000⟩]
  statements := []

/-- Assembly stops at the first of the two faults of one tree, and makes the story of the other. -/
theorem assemble_of_read_shelf :
    (∃ tree f, Tree.read shelfScript = .ok tree ∧
      tree.assemble (⟨0⟩ : IdCounter) = .error f ∧ tree.faults.length = 2 ∧ f ∈ tree.faults ∧
        ∀ g ∈ tree.faults, f.position ≤ g.position) ∧
      ∃ tree story ids', Tree.read portScript = .ok tree ∧
        tree.assemble (⟨0⟩ : IdCounter) = .ok (story, ids') ∧ tree.faults = [] ∧
          story.anonymous = portStory ∧ story.DrawnAs [⟨"text", some "sign"⟩] := by
  constructor
  · have hlength : (Tree.read shelfScript).toOption.map (·.faults.length) = some 2 := by
      decide +kernel
    obtain ⟨tree, hread, htwo⟩ := exists_ok_of_map hlength
    obtain ⟨hfails, hfirst, -⟩ := assemble_of_read hread (⟨0⟩ : IdCounter)
    obtain ⟨f, hf⟩ := hfails.mpr (List.length_pos_iff.mp (htwo ▸ Nat.two_pos))
    exact ⟨tree, f, hread, hf, htwo, hfirst f hf⟩
  · have htree : (Tree.read portScript).toOption.map (fun tree =>
        (tree.faults.length, tree.toStory.toJson, tree.drawn)) =
          some (0, portStory.toJson, [⟨"text", some "sign"⟩]) := by
      decide +kernel
    obtain ⟨tree, hread, hseen⟩ := exists_ok_of_map htree
    obtain ⟨hlength, hpair⟩ := Prod.mk.inj hseen
    obtain ⟨hjson, hdrawn⟩ := Prod.mk.inj hpair
    have hnone : tree.faults = [] := List.length_eq_zero_iff.mp hlength
    have hstory : tree.toStory = portStory := Story.eq_of_toJson_eq (by decide +kernel) hjson
    obtain ⟨hfails, -, hmade⟩ := assemble_of_read hread (⟨0⟩ : IdCounter)
    cases h : tree.assemble (⟨0⟩ : IdCounter) with
    | error f => exact absurd hnone (hfails.mp ⟨f, h⟩)
    | ok result =>
      obtain ⟨hanonymous, hids⟩ := hmade result.1 result.2 h
      exact ⟨tree, result.1, result.2, hread, h, hnone, hanonymous.trans hstory, hdrawn ▸ hids⟩

end Storybook.Script
