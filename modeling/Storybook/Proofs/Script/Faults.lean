/-
# `Storybook.Proofs.Script.Faults` — what is wrong in a tree

Four things can be wrong in the tree of a script: an attribute or an option is repeated in its
list, the delay of a page is repeated, a property is repeated in a `tween`, or an attribute is
one that agents of its kind do not take.  Whether an occurrence is at fault hangs only on the
occurrences before it in the same list, so that the faults of a tree can be listed without
assembling it (`Tree.faults`):

    faultsAlong wrong before items    the faults of `items`, each seen after those before it

The list goes through the tree as `Tree.places` does, and an occurrence has one fault at most;
hence the faults of a script stand in the order of its text (`Tree.faults_sorted`).
-/
import Storybook.Proofs.Script.Order
import Storybook.Script.Assembly

namespace Storybook.Script

/-! ## The faults of a list -/

/-- What is wrong in a list whose items are judged after those before them. -/
def faultsAlong (wrong : (before : List (Located α)) → Located α → List (Located Fault)) :
    (before : List (Located α)) → List (Located α) → List (Located Fault)
  | _, [] => []
  | before, item :: rest => wrong before item ++ faultsAlong wrong (before ++ [item]) rest

/-- A fault of a list is one of some item, seen after the items in front of it. -/
theorem mem_faultsAlong_iff
    {wrong : (before : List (Located α)) → Located α → List (Located Fault)}
    {before items : List (Located α)} {f : Located Fault} :
    f ∈ faultsAlong wrong before items ↔
      ∃ front item back, items = front ++ item :: back ∧ f ∈ wrong (before ++ front) item := by
  induction items generalizing before with
  | nil =>
    refine ⟨fun h => (nomatch h), ?_⟩
    rintro ⟨front, item, back, h, -⟩
    exact absurd h.symm (List.append_ne_nil_of_right_ne_nil front (List.cons_ne_nil item back))
  | cons i rest ih =>
    rw [faultsAlong, List.mem_append, ih]
    constructor
    · rintro (h | ⟨front, item, back, rfl, h⟩)
      · exact ⟨[], i, rest, rfl, by rwa [List.append_nil]⟩
      · rw [List.append_assoc] at h
        exact ⟨i :: front, item, back, rfl, h⟩
    · rintro ⟨front, item, back, heq, h⟩
      cases front with
      | nil =>
        cases heq
        rw [List.append_nil] at h
        exact .inl h
      | cons first front =>
        cases heq
        refine .inr ⟨front, item, back, rfl, ?_⟩
        rwa [List.append_assoc]

/-- Whether an item has the key of one before it. -/
def repeatsKey (key : α → String) (before : List (Located α)) (item : Located α) : Bool :=
  before.any (key ·.value == key item.value)

/-- What is wrong in a list of options: those that are repeated. -/
def modifierFaults (modifiers : List (Located Modifier)) : List (Located Fault) :=
  faultsAlong (fun before m =>
    if repeatsKey Modifier.key before m then [⟨m.position, .duplicate m.value.key⟩] else [])
    [] modifiers

/-- What is wrong in the properties of a `tween`: those that are repeated. -/
def propertyFaults (properties : List (Located Property)) : List (Located Fault) :=
  faultsAlong (fun before p =>
    if repeatsKey Property.name before p then [⟨p.position, .duplicateProperty p.value.name⟩]
    else []) [] properties

def Attribute.faults : Attribute → List (Located Fault)
  | animate _ modifiers => modifierFaults modifiers
  | id _ | place _ | size _ | color _ | fontSize _ | autoplay _ | looping _ => []

/-- What is wrong with an attribute itself: agents of the kind do not take it, or it is
repeated. -/
def attributeFault (kind : String) (taken : List String) (before : List (Located Attribute))
    (a : Located Attribute) : List (Located Fault) :=
  if !taken.contains a.value.key then [⟨a.position, .notAttribute a.value.key kind⟩]
  else if repeatsKey Attribute.key before a then [⟨a.position, .duplicate a.value.key⟩]
  else []

/-- What is wrong in the attributes of an agent of a kind. -/
def attributeFaults (kind : String) (taken : List String) (attributes : List (Located Attribute)) :
    List (Located Fault) :=
  faultsAlong (fun before a => attributeFault kind taken before a ++ a.value.faults) [] attributes

/-! ## Lists without faults -/

theorem repeatsKey_append (key : α → String) (before : List (Located α)) (i j : Located α) :
    repeatsKey key (before ++ [i]) j = (key j.value == key i.value || repeatsKey key before j) := by
  unfold repeatsKey
  rw [List.any_append, List.any_cons, List.any_nil, Bool.or_false, Bool.or_comm,
    BEq.comm (a := key i.value)]

/-- Where nothing is wrong, nothing is wrong with any item. -/
theorem eq_nil_of_faultsAlong {wrong : (before : List (Located α)) → Located α → List (Located Fault)}
    {before items : List (Located α)} (h : faultsAlong wrong before items = []) {i : Located α}
    (hi : i ∈ items) : ∃ front, wrong (before ++ front) i = [] := by
  obtain ⟨front, back, hitems⟩ := List.append_of_mem hi
  refine ⟨front, List.eq_nil_iff_forall_not_mem.mpr fun f hf => ?_⟩
  have hmem := mem_faultsAlong_iff.mpr ⟨front, i, back, hitems, hf⟩
  rw [h] at hmem
  exact nomatch hmem

/-- Where nothing is wrong, no key is repeated. -/
theorem nodup_of_faultsAlong {key : α → String}
    {wrong : (before : List (Located α)) → Located α → List (Located Fault)}
    (hwrong : ∀ before i, wrong before i = [] → repeatsKey key before i = false)
    {before items : List (Located α)} (h : faultsAlong wrong before items = []) :
    (∀ i ∈ items, repeatsKey key before i = false) ∧ (items.map (key ·.value)).Nodup := by
  induction items generalizing before with
  | nil => exact ⟨nofun, .nil⟩
  | cons i rest ih =>
    obtain ⟨hi, hrest⟩ := List.append_eq_nil_iff.mp h
    obtain ⟨hseen, hnodup⟩ := ih hrest
    have hboth : ∀ j ∈ rest, key j.value ≠ key i.value ∧ repeatsKey key before j = false := by
      intro j hj
      have hj := hseen j hj
      rwa [repeatsKey_append, Bool.or_eq_false_iff, beq_eq_false_iff_ne] at hj
    refine ⟨List.forall_mem_cons.mpr ⟨hwrong before i hi, fun j hj => (hboth j hj).2⟩,
      List.nodup_cons.mpr ⟨fun hmem => ?_, hnodup⟩⟩
    obtain ⟨j, hj, heq⟩ := List.mem_map.mp hmem
    exact (hboth j hj).1 heq

/-- The same where nothing but the key can be wrong. -/
theorem nodup_of_repeats {key : α → String} {fault : Located α → Located Fault}
    {items : List (Located α)}
    (h : faultsAlong (fun before i => if repeatsKey key before i then [fault i] else []) [] items =
      []) : (items.map (key ·.value)).Nodup := by
  refine (nodup_of_faultsAlong (fun before i hnone => ?_) h).2
  split at hnone
  · exact nomatch hnone
  · next hfirst => exact Bool.eq_false_iff.mpr hfirst

section Attributes

variable {kind : String} {taken : List String}

theorem eq_nil_of_attributeFault {before : List (Located Attribute)} {a : Located Attribute}
    (h : attributeFault kind taken before a = []) :
    a.value.key ∈ taken ∧ repeatsKey Attribute.key before a = false := by
  unfold attributeFault at h
  split at h
  · exact nomatch h
  next htaken =>
  split at h
  · exact nomatch h
  next hfirst =>
  exact ⟨List.contains_iff_mem.mp (by simpa using htaken), Bool.eq_false_iff.mpr hfirst⟩

theorem nodup_of_attributeFaults {attributes : List (Located Attribute)}
    (h : attributeFaults kind taken attributes = []) : (attributes.map (·.value.key)).Nodup :=
  (nodup_of_faultsAlong (fun _ _ hnone =>
    (eq_nil_of_attributeFault (List.append_eq_nil_iff.mp hnone).1).2) h).2

end Attributes

/-! ## The faults of a tree -/

/-- The delay after which a page is turned, in milliseconds. -/
def Node.delay? : Node → Option UInt64
  | autoAdvance delay => some delay.milliseconds
  | _ => none

/-- Whether a node gives a delay after one before it did. -/
def Node.repeatsDelay (before : List (Located Node)) (node : Node) : Bool :=
  node.delay?.isSome && before.any (·.value.delay?.isSome)

mutual

def Node.faults : Node → List (Located Fault)
  | .text _ attributes => attributeFaults "text" textAttributes attributes
  | .button _ attributes handlers =>
    attributeFaults "button" buttonAttributes attributes ++ Node.handlerFaults handlers
  | .image _ attributes => attributeFaults "image" imageAttributes attributes
  | .video _ attributes => attributeFaults "video" videoAttributes attributes
  | .choice _ items elseItems => Node.allFaults [] items ++ Node.allFaults [] elseItems
  | .page _ items | .forEach _ _ items | .wait _ items | .timer _ _ items =>
    Node.allFaults [] items
  | .autoAdvance _ => []
  | .statement command => Command.faults command

def Command.faults : Command → List (Located Fault)
  | .move _ _ _ modifiers | .animate _ _ modifiers | .music _ modifiers => modifierFaults modifiers
  | .tween _ properties modifiers => propertyFaults properties ++ modifierFaults modifiers
  | .wait _ body | .timer _ _ body => Node.allFaults [] body
  | .init .. | .set .. | .add .. | .subtract .. | .goToPage _ | .goBack | .stopAnimation _
  | .playSound .. | .stopSound _ | .stopMusic => []

/-- What is wrong in the items of a block, after some others in the same block. -/
def Node.allFaults (before : List (Located Node)) : List (Located Node) → List (Located Fault)
  | [] => []
  | ⟨position, node⟩ :: rest =>
    (if node.repeatsDelay before then [⟨position, .duplicate "auto_advance"⟩] else []) ++
      Node.faults node ++ Node.allFaults (before ++ [⟨position, node⟩]) rest

def Node.handlerFaults : List (HandlerNode Node) → List (Located Fault)
  | [] => []
  | ⟨_, body⟩ :: rest => Node.allFaults [] body ++ Node.handlerFaults rest

end

/-- What is wrong in a tree, in the order of its text. -/
def Tree.faults (tree : Tree) : List (Located Fault) := Node.allFaults [] tree.items

/-! ## Where the faults stand -/

/-- Whether faults stand at some of the positions, in the same order. -/
def FaultsAt (faults : List (Located Fault)) (places : List Position) : Prop :=
  (faults.map (·.position)).Sublist places

namespace FaultsAt

variable {faults others : List (Located Fault)} {places more : List Position}

theorem nil : FaultsAt [] places := List.nil_sublist _

theorem append (h : FaultsAt faults places) (hmore : FaultsAt others more) :
    FaultsAt (faults ++ others) (places ++ more) := by
  unfold FaultsAt
  rw [List.map_append]
  exact List.Sublist.append h hmore

/-- One fault of an item, or none. -/
theorem item {position : Position} {f : Fault} {test : Bool} :
    FaultsAt (if test then [⟨position, f⟩] else []) [position] := by
  cases test with
  | true => exact List.Sublist.refl _
  | false => exact nil

theorem along {α : Type}
    {wrong : (before : List (Located α)) → Located α → List (Located Fault)}
    {inside : α → List Position} {before items : List (Located α)}
    (h : ∀ before i, FaultsAt (wrong before i) (i.position :: inside i.value)) :
    FaultsAt (faultsAlong wrong before items) (placesOf inside items) := by
  induction items generalizing before with
  | nil => exact nil
  | cons i rest ih =>
    rw [placesOf_cons]
    exact (h before i).append ih

theorem modifiers (l : List (Located Modifier)) : FaultsAt (modifierFaults l) (simplePlaces l) :=
  along fun _ _ => item

theorem properties (l : List (Located Property)) : FaultsAt (propertyFaults l) (simplePlaces l) :=
  along fun _ _ => item

theorem insideAttribute (a : Attribute) : FaultsAt a.faults a.places := by
  cases a with
  | animate kind l => exact modifiers l
  | id | place | size | color | fontSize | autoplay | looping => exact nil

theorem attributes (kind : String) (taken : List String) (l : List (Located Attribute)) :
    FaultsAt (attributeFaults kind taken l) (placesOf Attribute.places l) := by
  refine along fun before a => ?_
  have hitself : FaultsAt (attributeFault kind taken before a) [a.position] := by
    unfold attributeFault
    split
    · exact List.Sublist.refl _
    · exact item
  exact hitself.append (insideAttribute a.value)

mutual

theorem node : (n : Node) → FaultsAt n.faults n.places
  | .text _ l | .image _ l | .video _ l => attributes _ _ l
  | .button _ l handlers => (attributes _ _ l).append (handlerItems handlers)
  | .choice _ l elseItems => (allItems [] l).append (allItems [] elseItems)
  | .page _ l | .forEach _ _ l | .wait _ l | .timer _ _ l => allItems [] l
  | .autoAdvance _ => nil
  | .statement c => command c

theorem command : (c : Command) → FaultsAt c.faults c.places
  | .move _ _ _ l | .animate _ _ l | .music _ l => modifiers l
  | .tween _ p l => (properties p).append (modifiers l)
  | .wait _ l | .timer _ _ l => allItems [] l
  | .init .. | .set .. | .add .. | .subtract .. | .goToPage _ | .goBack | .stopAnimation _
  | .playSound .. | .stopSound _ | .stopMusic => nil

theorem allItems (before : List (Located Node)) : (l : List (Located Node)) →
    FaultsAt (Node.allFaults before l) (Node.allPlaces l)
  | [] => nil
  | ⟨_, n⟩ :: rest => (item.append (node n)).append (allItems _ rest)

theorem handlerItems : (l : List (HandlerNode Node)) →
    FaultsAt (Node.handlerFaults l) (Node.handlerPlaces l)
  | [] => nil
  | ⟨_, body⟩ :: rest => (allItems [] body).append (handlerItems rest)

end

end FaultsAt

/-- The faults of a script are listed in the order of its text. -/
theorem Tree.faults_sorted {source : String} {tree : Tree} (h : Tree.read source = .ok tree) :
    tree.faults.Pairwise (·.position ≤ ·.position) :=
  List.pairwise_map.mp ((Tree.sorted_of_read h).sublist (FaultsAt.allItems [] tree.items))

end Storybook.Script
