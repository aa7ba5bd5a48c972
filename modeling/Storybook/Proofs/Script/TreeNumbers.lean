/-
# `Storybook.Proofs.Script.TreeNumbers` — the numbers in a tree

The numbers that a tree holds are listed in the order of its text: those of its expressions, of
its places and sizes, and its volumes.  Nothing is lost and nothing is added on the way to the
story, so that they tell whether the story is finite.

| | |
| :-- | :-- |
| the numbers of a tree | `Tree.numbers` |
| in a tree that a script can write, each is one that it can write | `Tree.Written.numbers` |
| where nothing is wrong, they are the numbers of the story | `Tree.isFinite_toStory_iff` |

Both need to know what may stand where (`Tree.Written`).  A tree that repeats an attribute holds a
number that its story has no field for; hence the second one asks that nothing is wrong.
-/
import Storybook.Proofs.Script.Verdict
import Storybook.Proofs.Story.Finite

namespace Storybook

namespace Expression

mutual

/-- The numbers in an expression, from left to right. -/
def numbers : Expression → List Float
  | number value => [value]
  | binary _ left right => numbers left ++ numbers right
  | unary _ operand => numbers operand
  | range first last => numbers first ++ numbers last
  | random source => numbers source
  | pickOne options => numbersOf options
  | string _ | boolean _ | var _ | interpolated _ | unknown => []

def numbersOf : List Expression → List Float
  | [] => []
  | expression :: rest => numbers expression ++ numbersOf rest

end

theorem numbersOf_eq_flatMap (l : List Expression) : numbersOf l = l.flatMap numbers := by
  induction l with
  | nil => rfl
  | cons e rest ih => rw [numbersOf, ih, List.flatMap_cons]

end Expression

namespace Script

def Attribute.numbers : Attribute → List Float
  | place p | size p => [p.x, p.y]
  | fontSize value => [value]
  | id _ | color _ | autoplay _ | looping _ | animate .. => []

mutual

/-- The numbers in a node, in the order of its text: those of expressions, places and sizes, and
volumes.  Ids of pages, durations and counts are no numbers of this kind. -/
def Node.numbers : Node → List Float
  | .page _ items | .wait _ items | .timer _ _ items => Node.allNumbers items
  | .autoAdvance _ => []
  | .text _ attributes | .image _ attributes | .video _ attributes =>
    attributes.flatMap (·.value.numbers)
  | .button _ attributes handlers =>
    attributes.flatMap (·.value.numbers) ++ Node.handlerNumbers handlers
  | .choice condition items elseItems =>
    condition.numbers ++ (Node.allNumbers items ++ Node.allNumbers elseItems)
  | .forEach _ range items => range.numbers ++ Node.allNumbers items
  | .statement command => Command.numbers command

def Command.numbers : Command → List Float
  | .init _ value | .set _ value => value.numbers
  | .add _ amount | .subtract _ amount => amount.numbers
  | .move _ x y _ => x.numbers ++ y.numbers
  | .tween _ properties _ => properties.flatMap (·.value.value.numbers)
  | .playSound _ volume => volume.toList
  | .music _ modifiers => modifiers.flatMap (·.value.volume?.toList)
  | .wait _ body | .timer _ _ body => Node.allNumbers body
  | .goToPage _ | .goBack | .animate .. | .stopAnimation _ | .stopSound _ | .stopMusic => []

def Node.allNumbers : List (Located Node) → List Float
  | [] => []
  | ⟨_, node⟩ :: rest => Node.numbers node ++ Node.allNumbers rest

def Node.handlerNumbers : List (HandlerNode Node) → List Float
  | [] => []
  | ⟨_, body⟩ :: rest => Node.allNumbers body ++ Node.handlerNumbers rest

end

def Tree.numbers (tree : Tree) : List Float := Node.allNumbers tree.items

variable {num : Float → Prop} {pos : Position → Prop}

/-! ## The numbers of written trees -/

theorem Written.numbers {room : Nat} {e : Expression} (h : Written num room e) :
    ∀ x ∈ e.numbers, num x := by
  induction h with
  | number hvalue => exact List.forall_mem_singleton.mpr hvalue
  | string | boolean | var => exact nofun
  | binary _ _ _ ihl ihr | range _ _ ihl ihr | random _ _ ihl ihr =>
    exact List.forall_mem_append.mpr ⟨ihl, ihr⟩
  | unary _ _ ih | enclosed _ ih => exact ih
  | pickOne _ ih =>
    rw [Expression.numbers, Expression.numbersOf_eq_flatMap]
    exact List.forall_mem_flatMap.mpr ih

theorem Attribute.Written.numbers {a : Attribute} (h : a.Written num pos) :
    ∀ x ∈ a.numbers, num x := by
  cases a with
  | place p | size p => exact List.forall_mem_cons.mpr ⟨h.1, List.forall_mem_singleton.mpr h.2⟩
  | fontSize value => exact List.forall_mem_singleton.mpr h
  | id | color | autoplay | looping | animate => exact nofun

theorem forall_mem_attributeNumbers {l : List (Located Attribute)}
    (h : ∀ a ∈ l, a.Meets pos (Attribute.Written num pos)) :
    ∀ x ∈ l.flatMap (·.value.numbers), num x :=
  List.forall_mem_flatMap.mpr fun a ha => (h a ha).2.numbers

mutual

theorem Node.Written.numbers : (n : Node) → {k : BlockKind} → n.Written num pos k →
    ∀ x ∈ n.numbers, num x
  | .page _ items, _, .page _ h | .wait _ items, _, .wait _ _ _ h
  | .timer _ _ items, _, .timer _ _ _ _ h => Node.Written.allNumbers items h
  | .autoAdvance _, _, _ => nofun
  | .text .., _, .text _ _ h | .image .., _, .image _ _ h | .video .., _, .video _ _ h =>
    forall_mem_attributeNumbers h
  | .button _ _ handlers, _, .button _ _ h _ hhandlers =>
    List.forall_mem_append.mpr
      ⟨forall_mem_attributeNumbers h, Node.Written.handlerNumbers handlers hhandlers⟩
  | .choice _ items elseItems, _, .choice _ hcondition _ h _ helse =>
    List.forall_mem_append.mpr ⟨Script.Written.numbers hcondition, List.forall_mem_append.mpr
      ⟨Node.Written.allNumbers items h, Node.Written.allNumbers elseItems helse⟩⟩
  | .forEach _ _ items, _, .forEach _ _ hrange _ h =>
    List.forall_mem_append.mpr ⟨Script.Written.numbers hrange, Node.Written.allNumbers items h⟩
  | .statement command, _, .statement _ _ h => Command.Written.numbers command h

theorem Command.Written.numbers : (c : Command) → c.Written num pos → ∀ x ∈ c.numbers, num x
  | .init .., .init _ h | .set .., .set _ h | .add .., .add _ h | .subtract .., .subtract _ h =>
    Script.Written.numbers h
  | .move .., .move _ hx hy _ =>
    List.forall_mem_append.mpr ⟨Script.Written.numbers hx, Script.Written.numbers hy⟩
  | .tween .., .tween _ _ h _ =>
    List.forall_mem_flatMap.mpr fun p hp => Script.Written.numbers (h p hp).2
  | .playSound .., .playSound _ h => fun x hx => h x (Option.mem_toList.mp hx)
  | .music .., .music _ h => by
    refine List.forall_mem_flatMap.mpr fun m hm x hx => ?_
    have hkind := (h m hm).2
    cases hvalue : m.value <;> rw [hvalue] at hx hkind
    case volume value =>
      obtain rfl : x = value := List.mem_singleton.mp hx
      exact hkind
    all_goals exact nomatch hx
  | .wait _ body, .wait _ _ h | .timer _ _ body, .timer _ _ _ h => Node.Written.allNumbers body h
  | .goToPage _, _ | .goBack, _ | .animate .., _ | .stopAnimation _, _ | .stopSound _, _
  | .stopMusic, _ => nofun

theorem Node.Written.allNumbers : (l : List (Located Node)) → {k : BlockKind} →
    (∀ i ∈ l, Node.Written num pos k i.value) → ∀ x ∈ Node.allNumbers l, num x
  | [], _, _ => nofun
  | ⟨_, node⟩ :: rest, _, h =>
    have ⟨hnode, hrest⟩ := List.forall_mem_cons.mp h
    List.forall_mem_append.mpr
      ⟨Node.Written.numbers node hnode, Node.Written.allNumbers rest hrest⟩

theorem Node.Written.handlerNumbers : (l : List (HandlerNode Node)) →
    (∀ h ∈ l, ∀ i ∈ h.body, Node.Written num pos .statements i.value) →
      ∀ x ∈ Node.handlerNumbers l, num x
  | [], _ => nofun
  | ⟨_, body⟩ :: rest, h =>
    have ⟨hbody, hrest⟩ := List.forall_mem_cons.mp h
    List.forall_mem_append.mpr
      ⟨Node.Written.allNumbers body hbody, Node.Written.handlerNumbers rest hrest⟩

end

theorem Tree.Written.numbers {tree : Tree} (h : tree.Written num pos) :
    ∀ x ∈ tree.numbers, num x :=
  Node.Written.allNumbers tree.items fun i hi => (h i hi).2

/-! ## Finite numbers -/

mutual

theorem isFinite_withPlaceholders_iff : (e : Expression) →
    ((withPlaceholders e).isFinite = true ↔ ∀ x ∈ e.numbers, x.isFinite = true)
  | .number value => by simp [withPlaceholders, Expression.isFinite, Expression.numbers]
  | .string text => by
    have htext : (stringExpression text).isFinite = true := by
      unfold stringExpression
      dsimp only
      split <;> rfl
    exact iff_of_true htext nofun
  | .boolean _ | .var _ | .interpolated _ | .unknown => iff_of_true rfl nofun
  | .binary _ left right => Bool.and_eq_true_iff.trans <|
    (and_congr (isFinite_withPlaceholders_iff left) (isFinite_withPlaceholders_iff right)).trans
      List.forall_mem_append.symm
  | .range first last => Bool.and_eq_true_iff.trans <|
    (and_congr (isFinite_withPlaceholders_iff first) (isFinite_withPlaceholders_iff last)).trans
      List.forall_mem_append.symm
  | .unary _ operand => isFinite_withPlaceholders_iff operand
  | .random source => isFinite_withPlaceholders_iff source
  | .pickOne options => areFinite_allWithPlaceholders_iff options

theorem areFinite_allWithPlaceholders_iff : (l : List Expression) →
    (Expression.areFinite (allWithPlaceholders l) = true ↔
      ∀ x ∈ Expression.numbersOf l, x.isFinite = true)
  | [] => iff_of_true rfl nofun
  | e :: rest => Bool.and_eq_true_iff.trans <|
    (and_congr (isFinite_withPlaceholders_iff e) (areFinite_allWithPlaceholders_iff rest)).trans
      List.forall_mem_append.symm

end

theorem Attribute.numbers_finite_iff (a : Attribute) : (∀ x ∈ a.numbers, x.isFinite = true) ↔
    a.place?.all Point.isFinite = true ∧ a.size?.all Point.isFinite = true ∧
      a.fontSize?.all Float.isFinite = true := by
  cases a <;> simp [numbers, place?, size?, fontSize?, Point.isFinite]

theorem attributes_finite_iff {attributes : List (Located Attribute)}
    (h : (attributes.map (·.value.key)).Nodup) :
    (∀ x ∈ attributes.flatMap (·.value.numbers), x.isFinite = true) ↔
      (said Attribute.place? attributes).all Point.isFinite = true ∧
        (said Attribute.size? attributes).all Point.isFinite = true ∧
          (said Attribute.fontSize? attributes).all Float.isFinite = true := by
  rw [all_said_iff Attribute.place?_isSome_iff h, all_said_iff Attribute.size?_isSome_iff h,
    all_said_iff Attribute.fontSize?_isSome_iff h, ← forall₂_and, ← forall₂_and,
    List.forall_mem_flatMap]
  exact forall₂_congr fun a _ => a.value.numbers_finite_iff

/-- A text takes no size. -/
theorem textNumbers_finite_iff {attributes : List (Located Attribute)}
    (h : attributeFaults "text" textAttributes attributes = []) :
    (∀ x ∈ attributes.flatMap (·.value.numbers), x.isFinite = true) ↔
      (said Attribute.place? attributes).all Point.isFinite = true ∧
        (said Attribute.fontSize? attributes).all Float.isFinite = true := by
  rw [attributes_finite_iff (nodup_of_attributeFaults h),
    said_eq_none Attribute.size?_isSome_iff h (by decide)]
  exact and_congr_right fun _ => and_iff_right rfl

/-- Buttons, images and videos take no size of letters. -/
theorem boxNumbers_finite_iff {kind : String} {taken : List String}
    {attributes : List (Located Attribute)} (h : attributeFaults kind taken attributes = [])
    (htaken : "font_size" ∉ taken) :
    (∀ x ∈ attributes.flatMap (·.value.numbers), x.isFinite = true) ↔
      (said Attribute.place? attributes).all Point.isFinite = true ∧
        (said Attribute.size? attributes).all Point.isFinite = true := by
  rw [attributes_finite_iff (nodup_of_attributeFaults h),
    said_eq_none Attribute.fontSize?_isSome_iff h htaken]
  exact and_congr_right fun _ => and_iff_left rfl

theorem volumes_finite_iff {modifiers : List (Located Modifier)}
    (h : modifierFaults modifiers = []) :
    (∀ x ∈ modifiers.flatMap (·.value.volume?.toList), x.isFinite = true) ↔
      (musicOf modifiers).volume.all Float.isFinite = true := by
  have hnodup : (modifiers.map (·.value.key)).Nodup := nodup_of_repeats h
  show _ ↔ (said Modifier.volume? modifiers).all Float.isFinite = true
  rw [all_said_iff Modifier.volume?_isSome_iff hnodup, List.forall_mem_flatMap]
  refine forall₂_congr fun m _ => ?_
  rw [Option.all_eq_true]
  exact forall_congr' fun x => imp_congr_left Option.mem_toList

theorem properties_finite_iff {properties : List (Located Property)}
    (h : propertyFaults properties = []) :
    (∀ x ∈ properties.flatMap (·.value.value.numbers), x.isFinite = true) ↔
      (propertiesOf properties).entries.all (·.2.isFinite) = true := by
  have hnodup : (properties.map (·.value.name)).Nodup := nodup_of_repeats h
  have hnames : ((properties.map fun p => (p.value.name, withPlaceholders p.value.value)).map
      (·.1)).Nodup := by
    rw [List.map_map]
    exact hnodup
  rw [List.all_eq_true, propertiesOf, List.forall_mem_flatMap]
  simp only [Table.mem_ofList hnames, List.forall_mem_map]
  exact forall₂_congr fun p _ => (isFinite_withPlaceholders_iff p.value.value).symm

/-! ### Blocks -/

/-- Whether what a node stands for has finite numbers only. -/
structure Node.StandsFinite (node : Node) : Prop where
  agent : ∀ a ∈ node.toAgent?, a.isFinite = true
  statement : ∀ s ∈ node.toStatement?, s.isFinite = true
  page : ∀ p ∈ node.toPage?, p.isFinite = true

theorem Node.standsFinite_iff_of_agent {node : Node} {a : Agent} (h : node.toAgent? = some a)
    (hstatement : node.toStatement? = none) (hpage : node.toPage? = none) :
    node.StandsFinite ↔ a.isFinite = true := by
  refine ⟨fun hnode => hnode.agent a h, fun ha => ⟨?_, ?_, ?_⟩⟩
  · rw [h]
    exact fun b hb => Option.some.inj hb ▸ ha
  · rw [hstatement]
    exact nofun
  · rw [hpage]
    exact nofun

section Blocks

variable {k : BlockKind} {node : Node} {items : List (Located Node)}

theorem Node.Written.toPage?_eq_none (h : node.Written num pos k) (hk : k ≠ .story) :
    node.toPage? = none := by
  cases h with
  | page => exact absurd rfl hk
  | _ => rfl

theorem Node.Written.toStatement?_eq_none (h : node.Written num pos k)
    (hk : k.hasStatements = false) : node.toStatement? = none := by
  cases h with
  | statement hstatements =>
    rw [hk] at hstatements
    exact nomatch hstatements
  | _ => rfl

theorem Node.Written.toAgent?_eq_none (h : node.Written num pos k) (hk : k.hasAgents = false) :
    node.toAgent? = none := by
  cases h with
  | page | autoAdvance | statement => rfl
  | text _ hagents | button _ hagents | image _ hagents | video _ hagents | choice hagents
  | forEach hagents | wait _ hagents | timer _ _ hagents =>
    rw [hk] at hagents
    exact nomatch hagents

/-- What items stand for, kind by kind. -/
theorem allStandFinite_iff : (∀ i ∈ items, i.value.StandsFinite) ↔
    Agent.areFinite (agentsOf items) = true ∧ Statement.areFinite (statementsOf items) = true ∧
      ∀ p ∈ items.filterMap (·.value.toPage?), p.isFinite = true := by
  rw [agentsOf_eq, statementsOf_eq, Agent.areFinite_eq_all, Statement.areFinite_eq_all,
    List.all_eq_true, List.all_eq_true, List.forall_mem_filterMap, List.forall_mem_filterMap,
    List.forall_mem_filterMap]
  constructor
  · intro h
    exact ⟨fun i hi => (h i hi).agent, fun i hi => (h i hi).statement, fun i hi => (h i hi).page⟩
  · rintro ⟨hagents, hstatements, hpages⟩ i hi
    exact ⟨hagents i hi, hstatements i hi, hpages i hi⟩

/-- Only the block of the story has pages. -/
theorem allStandFinite_iff_of_ne_story (h : ∀ i ∈ items, i.value.Written num pos k)
    (hk : k ≠ .story) : (∀ i ∈ items, i.value.StandsFinite) ↔
      Agent.areFinite (agentsOf items) = true ∧ Statement.areFinite (statementsOf items) = true := by
  rw [allStandFinite_iff]
  refine and_congr_right fun _ => and_iff_left (List.forall_mem_filterMap.mpr fun i hi p hp => ?_)
  rw [(h i hi).toPage?_eq_none hk] at hp
  exact nomatch hp

theorem allStandFinite_iff_of_agents (h : ∀ i ∈ items, i.value.Written num pos .agents) :
    (∀ i ∈ items, i.value.StandsFinite) ↔ Agent.areFinite (agentsOf items) = true := by
  have hnone : statementsOf items = [] := by
    rw [statementsOf_eq]
    exact List.filterMap_eq_nil_iff.mpr fun i hi => (h i hi).toStatement?_eq_none rfl
  rw [allStandFinite_iff_of_ne_story h nofun, hnone]
  exact and_iff_left rfl

theorem allStandFinite_iff_of_statements (h : ∀ i ∈ items, i.value.Written num pos .statements) :
    (∀ i ∈ items, i.value.StandsFinite) ↔ Statement.areFinite (statementsOf items) = true := by
  have hnone : agentsOf items = [] := by
    rw [agentsOf_eq]
    exact List.filterMap_eq_nil_iff.mpr fun i hi => (h i hi).toAgent?_eq_none rfl
  rw [allStandFinite_iff_of_ne_story h nofun, hnone]
  exact and_iff_right rfl

end Blocks

/-! ### Trees -/

mutual

/-- Where nothing is wrong in a node that a script can write, its numbers are those of what it
stands for. -/
theorem Node.numbers_finite_iff : (n : Node) → {k : BlockKind} → n.Written num pos k →
    n.faults = [] → ((∀ x ∈ n.numbers, x.isFinite = true) ↔ n.StandsFinite)
  | .page _ items, _, .page _ h, hnone => by
    rw [Node.numbers, Node.allNumbers_finite_iff items h hnone,
      allStandFinite_iff_of_ne_story h nofun]
    exact ⟨fun hpage => ⟨nofun, nofun, fun p hp =>
        Option.some.inj hp ▸ Bool.and_eq_true_iff.mpr hpage⟩,
      fun hpage => Bool.and_eq_true_iff.mp (hpage.page _ rfl)⟩
  | .autoAdvance _, _, _, _ => iff_of_true nofun ⟨nofun, nofun, nofun⟩
  | .text _ attributes, _, _, hnone => by
    rw [Node.standsFinite_iff_of_agent rfl rfl rfl, Agent.isFinite]
    exact (textNumbers_finite_iff hnone).trans Bool.and_eq_true_iff.symm
  | .image _ attributes, _, _, hnone => by
    rw [Node.standsFinite_iff_of_agent rfl rfl rfl]
    exact (boxNumbers_finite_iff hnone (by decide)).trans Bool.and_eq_true_iff.symm
  | .video _ attributes, _, _, hnone => by
    rw [Node.standsFinite_iff_of_agent rfl rfl rfl]
    exact (boxNumbers_finite_iff hnone (by decide)).trans Bool.and_eq_true_iff.symm
  | .button _ attributes handlers, _, .button _ _ _ _ hhandlers, hnone => by
    obtain ⟨hattributes, hbodies⟩ := List.append_eq_nil_iff.mp hnone
    rw [Node.standsFinite_iff_of_agent rfl rfl rfl, Node.numbers, List.forall_mem_append,
      boxNumbers_finite_iff hattributes (by decide),
      Node.handlerNumbers_finite_iff handlers hhandlers hbodies]
    exact (and_congr_left fun _ => Bool.and_eq_true_iff.symm).trans Bool.and_eq_true_iff.symm
  | .choice condition items elseItems, _, .choice _ _ _ h _ helse, hnone => by
    obtain ⟨hitems, helseItems⟩ := List.append_eq_nil_iff.mp hnone
    rw [Node.standsFinite_iff_of_agent rfl rfl rfl, Node.numbers, List.forall_mem_append,
      List.forall_mem_append, Node.allNumbers_finite_iff items h hitems,
      Node.allNumbers_finite_iff elseItems helse helseItems, allStandFinite_iff_of_agents h,
      allStandFinite_iff_of_agents helse, ← isFinite_withPlaceholders_iff, ← and_assoc]
    exact (and_congr_left fun _ => Bool.and_eq_true_iff.symm).trans Bool.and_eq_true_iff.symm
  | .forEach _ range items, _, .forEach _ _ _ _ h, hnone => by
    rw [Node.standsFinite_iff_of_agent rfl rfl rfl, Node.numbers, List.forall_mem_append,
      Node.allNumbers_finite_iff items h hnone, allStandFinite_iff_of_agents h,
      ← isFinite_withPlaceholders_iff]
    exact Bool.and_eq_true_iff.symm
  | .wait _ items, _, .wait _ _ _ h, hnone => by
    rw [Node.standsFinite_iff_of_agent rfl rfl rfl, Node.numbers,
      Node.allNumbers_finite_iff items h hnone, allStandFinite_iff_of_ne_story h nofun]
    exact Bool.and_eq_true_iff.symm
  | .timer _ _ items, _, .timer _ _ _ _ h, hnone => by
    rw [Node.standsFinite_iff_of_agent rfl rfl rfl, Node.numbers,
      Node.allNumbers_finite_iff items h hnone, allStandFinite_iff_of_statements h]
    rfl
  | .statement command, _, .statement _ _ h, hnone => by
    rw [Node.numbers, Command.numbers_finite_iff command h hnone]
    exact ⟨fun hc => ⟨nofun, fun s hs => Option.some.inj hs ▸ hc, nofun⟩,
      fun hc => hc.statement _ rfl⟩

theorem Command.numbers_finite_iff : (c : Command) → c.Written num pos → c.faults = [] →
    ((∀ x ∈ c.numbers, x.isFinite = true) ↔ c.toStatement.isFinite = true)
  | .init _ value, _, _ | .set _ value, _, _ | .add _ value, _, _ | .subtract _ value, _, _ =>
    (isFinite_withPlaceholders_iff value).symm
  | .move _ x y _, _, _ => List.forall_mem_append.trans <|
    (and_congr (isFinite_withPlaceholders_iff x) (isFinite_withPlaceholders_iff y)).symm.trans
      Bool.and_eq_true_iff.symm
  | .tween .., _, hnone => properties_finite_iff (List.append_eq_nil_iff.mp hnone).1
  | .playSound _ volume, _, _ => by
    rw [Command.toStatement, Statement.isFinite, Option.all_eq_true]
    exact forall_congr' fun x => imp_congr_left Option.mem_toList
  | .music .., _, hnone => volumes_finite_iff hnone
  | .wait _ body, .wait _ _ h, hnone =>
    (Node.allNumbers_finite_iff body h hnone).trans (allStandFinite_iff_of_statements h)
  | .timer _ _ body, .timer _ _ _ h, hnone =>
    (Node.allNumbers_finite_iff body h hnone).trans (allStandFinite_iff_of_statements h)
  | .goToPage _, _, _ | .goBack, _, _ | .animate .., _, _ | .stopAnimation _, _, _
  | .stopSound _, _, _ | .stopMusic, _, _ => iff_of_true nofun rfl

theorem Node.allNumbers_finite_iff : (l : List (Located Node)) → {k : BlockKind} →
    {before : List (Located Node)} → (∀ i ∈ l, Node.Written num pos k i.value) →
      Node.allFaults before l = [] →
        ((∀ x ∈ Node.allNumbers l, x.isFinite = true) ↔ ∀ i ∈ l, i.value.StandsFinite)
  | [], _, _, _, _ => iff_of_true nofun nofun
  | ⟨_, node⟩ :: rest, _, _, h, hnone => by
    obtain ⟨hnode, hrest⟩ := List.forall_mem_cons.mp h
    obtain ⟨hhere, hothers⟩ := List.append_eq_nil_iff.mp hnone
    rw [Node.allNumbers, List.forall_mem_append, List.forall_mem_cons,
      Node.numbers_finite_iff node hnode (List.append_eq_nil_iff.mp hhere).2,
      Node.allNumbers_finite_iff rest hrest hothers]

theorem Node.handlerNumbers_finite_iff : (l : List (HandlerNode Node)) →
    (∀ h ∈ l, ∀ i ∈ h.body, Node.Written num pos .statements i.value) →
      Node.handlerFaults l = [] →
        ((∀ x ∈ Node.handlerNumbers l, x.isFinite = true) ↔
          (handlersOf l).all Handler.isFinite = true)
  | [], _, _ => iff_of_true nofun rfl
  | ⟨_, body⟩ :: rest, h, hnone => by
    obtain ⟨hbody, hrest⟩ := List.forall_mem_cons.mp h
    obtain ⟨hhere, hothers⟩ := List.append_eq_nil_iff.mp hnone
    rw [Node.handlerNumbers, List.forall_mem_append, Node.allNumbers_finite_iff body hbody hhere,
      allStandFinite_iff_of_statements hbody,
      Node.handlerNumbers_finite_iff rest hrest hothers]
    exact Bool.and_eq_true_iff.symm

end

theorem Tree.isFinite_toStory_iff {tree : Tree} (h : tree.Written num pos)
    (hnone : tree.faults = []) :
    tree.toStory.isFinite = true ↔ ∀ x ∈ tree.numbers, x.isFinite = true := by
  have hitems : ∀ i ∈ tree.items, Node.Written num pos .story i.value := fun i hi => (h i hi).2
  have hagents : agentsOf tree.items = [] := by
    rw [agentsOf_eq]
    exact List.filterMap_eq_nil_iff.mpr fun i hi => (hitems i hi).toAgent?_eq_none rfl
  rw [Tree.numbers, Node.allNumbers_finite_iff tree.items hitems hnone, allStandFinite_iff,
    hagents, Story.isFinite, Bool.and_eq_true_iff, List.all_eq_true]
  constructor
  · rintro ⟨hpages, hstatements⟩
    exact ⟨rfl, hstatements, hpages⟩
  · rintro ⟨-, hstatements, hpages⟩
    exact ⟨hpages, hstatements⟩

end Script

namespace Agent

mutual

theorem isFinite_anonymous : (a : Agent) → a.anonymous.isFinite = a.isFinite
  | text _ | button _ | image _ | video _ | timer .. => rfl
  | choice condition agents elseAgents => by
    rw [anonymous, isFinite, isFinite, areFinite_allAnonymous agents,
      areFinite_allAnonymous elseAgents]
  | forEach _ range agents => by
    rw [anonymous, isFinite, isFinite, areFinite_allAnonymous agents]
  | wait _ agents actions => by
    rw [anonymous, isFinite, isFinite, areFinite_allAnonymous agents]

theorem areFinite_allAnonymous : (l : List Agent) → areFinite (allAnonymous l) = areFinite l
  | [] => rfl
  | a :: rest => by
    rw [allAnonymous, areFinite, areFinite, isFinite_anonymous a, areFinite_allAnonymous rest]

end

end Agent

theorem Story.isFinite_anonymous (story : Story) : story.anonymous.isFinite = story.isFinite := by
  have hpages : (story.pages.map Page.anonymous).all Page.isFinite =
      story.pages.all Page.isFinite := by
    rw [List.all_map]
    refine congrArg story.pages.all (funext fun page => ?_)
    show (Agent.areFinite (Agent.allAnonymous page.agents) && _) = page.isFinite
    rw [Agent.areFinite_allAnonymous]
    rfl
  show ((story.pages.map Page.anonymous).all Page.isFinite && _) = story.isFinite
  rw [hpages]
  rfl

end Storybook
