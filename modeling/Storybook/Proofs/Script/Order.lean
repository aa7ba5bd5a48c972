/-
# `Storybook.Proofs.Script.Order` — the order in which scripts are read

The positions in the tree of a script stand in the order of its text: what comes first in a list
of items, attributes, options or properties stands first, and what is inside something stands
after its beginning and before what follows it.

| | |
| :-- | :-- |
| the order of positions | `≤` on `Position`, by lines and then by columns |
| the positions in a tree, from outside to inside and from left to right | `Node.places`, `placesOf` |
| a rule adds some positions to those before | `Rule.Spans` |

`Spans source before p places` says of a rule that, wherever it succeeds after some positions
`before`, the positions `places` of its value are those and more, and all stand in order between
the place where the first rule began and the place that is reached.  A rule that notes no
positions is one with `places := fun _ => before`, and a sequence hands its positions on.
-/
import Mathlib.Order.Defs.PartialOrder
import Storybook.Proofs.Script.WrittenTree

namespace Storybook.Script

/-! ## The order of positions -/

/-- Reading order: an earlier line, or the same line and no later column. -/
instance : LE Position := ⟨fun p q => p.line < q.line ∨ p.line = q.line ∧ p.column ≤ q.column⟩

theorem Position.le_def {p q : Position} :
    p ≤ q ↔ p.line < q.line ∨ p.line = q.line ∧ p.column ≤ q.column := Iff.rfl

instance : Preorder Position where
  le_refl p := .inr ⟨rfl, Nat.le_refl _⟩
  le_trans p q r hpq hqr := by
    rw [Position.le_def] at *
    omega

theorem Place.le_after (p : Place) (c : Char) : p.toPosition ≤ (p.after c).toPosition := by
  unfold Place.after
  split
  · exact .inl (Nat.lt_succ_self _)
  · exact .inr ⟨rfl, Nat.le_succ _⟩

theorem Cursor.position_le_advance (n : Nat) (c : Cursor) :
    c.toPosition ≤ (c.advance n).toPosition := by
  induction n generalizing c with
  | zero => exact le_refl _
  | succ n ih =>
    cases hrest : c.rest with
    | nil => rw [advance_of_nil hrest]
    | cons first rest =>
      rw [advance_succ hrest]
      have hnext := ih (withRest (c.toPlace.after first) rest)
      exact le_trans (Place.le_after c.toPlace first) hnext

theorem Cursor.Follows.le {c d : Cursor} (h : c.Follows d) : c.toPosition ≤ d.toPosition := by
  obtain ⟨n, rfl⟩ := h
  exact Cursor.position_le_advance n c

/-- Whether positions stand in order, between two others. -/
structure Between (first : Position) (l : List Position) (last : Position) : Prop where
  sorted : l.Pairwise (· ≤ ·)
  first_le : ∀ p ∈ l, first ≤ p
  le_last : ∀ p ∈ l, p ≤ last
  first_le_last : first ≤ last

namespace Between

variable {first middle last : Position} {l m : List Position}

theorem nil (h : first ≤ last) : Between first [] last :=
  ⟨.nil, fun _ hp => (nomatch hp), fun _ hp => (nomatch hp), h⟩

theorem append (hl : Between first l middle) (hm : Between middle m last) :
    Between first (l ++ m) last where
  sorted := List.pairwise_append.mpr
    ⟨hl.sorted, hm.sorted, fun p hp q hq => le_trans (hl.le_last p hp) (hm.first_le q hq)⟩
  first_le p hp := by
    rcases List.mem_append.mp hp with hp | hp
    · exact hl.first_le p hp
    · exact le_trans hl.first_le_last (hm.first_le p hp)
  le_last p hp := by
    rcases List.mem_append.mp hp with hp | hp
    · exact le_trans (hl.le_last p hp) hm.first_le_last
    · exact hm.le_last p hp
  first_le_last := le_trans hl.first_le_last hm.first_le_last

theorem extend (hl : Between first l middle) (h : middle ≤ last) : Between first l last := by
  have happend := hl.append (.nil h)
  rwa [List.append_nil] at happend

theorem singleton {p : Position} (hfirst : first ≤ p) (hlast : p ≤ last) :
    Between first [p] last where
  sorted := List.pairwise_singleton _ _
  first_le _ hq := List.mem_singleton.mp hq ▸ hfirst
  le_last _ hq := List.mem_singleton.mp hq ▸ hlast
  first_le_last := le_trans hfirst hlast

end Between

/-! ## The positions in a tree -/

/-- The positions of some items and of what is inside them. -/
def placesOf (inside : α → List Position) (items : List (Located α)) : List Position :=
  items.flatMap fun i => i.position :: inside i.value

theorem placesOf_cons (inside : α → List Position) (i : Located α) (rest : List (Located α)) :
    placesOf inside (i :: rest) = i.position :: inside i.value ++ placesOf inside rest :=
  List.flatMap_cons

/-- The positions of options or of properties; there are none inside them. -/
def simplePlaces (items : List (Located α)) : List Position := placesOf (fun _ => []) items

def Attribute.places : Attribute → List Position
  | animate _ modifiers => simplePlaces modifiers
  | id _ | place _ | size _ | color _ | fontSize _ | autoplay _ | looping _ => []

mutual

def Node.places : Node → List Position
  | .text _ attributes | .image _ attributes | .video _ attributes =>
    placesOf Attribute.places attributes
  | .button _ attributes handlers =>
    placesOf Attribute.places attributes ++ Node.handlerPlaces handlers
  | .choice _ items elseItems => Node.allPlaces items ++ Node.allPlaces elseItems
  | .page _ items | .forEach _ _ items | .wait _ items | .timer _ _ items => Node.allPlaces items
  | .autoAdvance _ => []
  | .statement command => Command.places command

def Command.places : Command → List Position
  | .move _ _ _ modifiers | .animate _ _ modifiers | .music _ modifiers => simplePlaces modifiers
  | .tween _ properties modifiers => simplePlaces properties ++ simplePlaces modifiers
  | .wait _ body | .timer _ _ body => Node.allPlaces body
  | .init .. | .set .. | .add .. | .subtract .. | .goToPage _ | .goBack | .stopAnimation _
  | .playSound .. | .stopSound _ | .stopMusic => []

/-- The positions of the items of a block and of what is inside them. -/
def Node.allPlaces : List (Located Node) → List Position
  | [] => []
  | ⟨position, node⟩ :: rest => position :: Node.places node ++ Node.allPlaces rest

def Node.handlerPlaces : List (HandlerNode Node) → List Position
  | [] => []
  | ⟨_, body⟩ :: rest => Node.allPlaces body ++ Node.handlerPlaces rest

end

theorem Node.allPlaces_eq (items : List (Located Node)) :
    allPlaces items = placesOf places items := by
  induction items with
  | nil => rfl
  | cons i rest ih =>
    rw [placesOf_cons, ← ih]
    rfl

theorem Node.handlerPlaces_eq (handlers : List (HandlerNode Node)) :
    handlerPlaces handlers = handlers.flatMap fun h => allPlaces h.body := by
  induction handlers with
  | nil => rfl
  | cons h rest ih =>
    rw [List.flatMap_cons, ← ih]
    rfl

def Tree.places (tree : Tree) : List Position := Node.allPlaces tree.items

namespace Rule

/-! ## The judgement -/

/-- Whether a rule adds positions to some before it, in order; those after it are `places`. -/
def Spans (source : String) (before : List Position) (p : Rule α)
    (places : α → List Position) : Prop :=
  ∀ (first : Position) (c : Cursor), c.IsOf source → Between first before c.toPosition →
    ∀ v rest, p c = .ok v rest → rest.IsOf source ∧ Between first (places v) rest.toPosition

variable {source : String} {before : List Position} {α β : Type} {p q : Rule α} {f : α → Rule β}
  {places : α → List Position} {others : β → List Position} {Q : α → Prop}

/-- A rule that notes no positions. -/
theorem Spans.plain (h : Yields source p Q) : Spans source before p fun _ => before := by
  intro first c hc hbefore v rest hout
  have hfrom := h c hc
  rw [hout] at hfrom
  exact ⟨hc.follows hfrom.1, hbefore.extend hfrom.1.le⟩

theorem Spans.pure {value : α} (h : places value = before) :
    Spans source before (Pure.pure value : Rule α) places := by
  intro first c hc hbefore v rest hout
  cases hout
  rw [h]
  exact ⟨hc, hbefore⟩

theorem Spans.bind (hp : Spans source before p places)
    (hf : ∀ v, Spans source (places v) (f v) others) : Spans source before (p >>= f) others := by
  intro first c hc hbefore v rest hout
  rw [bind_apply] at hout
  cases hp' : p c with
  | ok value next =>
    rw [hp'] at hout
    obtain ⟨hnext, hplaces⟩ := hp first c hc hbefore value next hp'
    exact hf value first next hnext hplaces v rest hout
  | refuse error => rw [hp'] at hout; exact nomatch hout
  | abort error => rw [hp'] at hout; exact nomatch hout

/-- The positions that a rule adds do not hang on those before it. -/
theorem Spans.after (before : List Position) (h : Spans source [] p places) :
    Spans source before p fun v => before ++ places v := by
  intro first c hc hbefore v rest hout
  obtain ⟨hrest, hplaces⟩ := h c.toPosition c hc (.nil (le_refl _)) v rest hout
  exact ⟨hrest, hbefore.append hplaces⟩

theorem Spans.orElse (hp : Spans source before p places) (hq : Spans source before q places) :
    Spans source before (p <|> q) places := by
  intro first c hc hbefore v rest hout
  rw [orElse_apply] at hout
  cases hp' : p c with
  | ok value next =>
    rw [hp'] at hout
    exact hp first c hc hbefore v rest (hp'.trans hout)
  | abort error => rw [hp'] at hout; exact nomatch hout
  | refuse error =>
    rw [hp'] at hout
    cases hq' : q c with
    | ok value next =>
      simp only [hq'] at hout
      exact hq first c hc hbefore v rest (hq'.trans hout)
    | refuse error => simp only [hq'] at hout; exact nomatch hout
    | abort error => simp only [hq'] at hout; exact nomatch hout

theorem Spans.cut (h : Spans source before p places) : Spans source before (cut p) places := by
  intro first c hc hbefore v rest hout
  unfold Rule.cut at hout
  cases hp : p c with
  | ok value next => rw [hp] at hout; exact h first c hc hbefore v rest (hp.trans hout)
  | refuse error => rw [hp] at hout; exact nomatch hout
  | abort error => rw [hp] at hout; exact nomatch hout

theorem Spans.inContext {what : String} (h : Spans source before p places) :
    Spans source before (inContext what p) places := by
  intro first c hc hbefore v rest hout
  unfold Rule.inContext at hout
  cases hp : p c with
  | ok value next => rw [hp] at hout; exact h first c hc hbefore v rest (hp.trans hout)
  | refuse error => rw [hp] at hout; exact nomatch hout
  | abort error => rw [hp] at hout; exact nomatch hout

theorem Spans.nested {what : String} {rule : Nat → Rule α} {room : Nat}
    (h : ∀ r, room = r + 1 → Spans source before (rule r) places) :
    Spans source before (nested what rule room) places := by
  cases room with
  | zero => exact fun _ _ _ _ _ _ hout => nomatch hout
  | succ room => exact h room rfl

theorem Spans.optional (h : Spans source [] p places) :
    Spans source [] (optional p) fun v => v.elim [] places := by
  intro first c hc hbefore v rest hout
  unfold Rule.optional at hout
  cases hp : p c with
  | ok value next => rw [hp] at hout; cases hout; exact h first c hc hbefore value rest hp
  | refuse error => rw [hp] at hout; cases hout; exact ⟨hc, hbefore⟩
  | abort error => rw [hp] at hout; exact nomatch hout

/-- The induction is on the runs of the rule. -/
theorem Spans.many (h : Spans source [] p places) :
    Spans source [] (many p) fun vs => vs.flatMap places := by
  intro first c hc hbefore vs rest hout
  fun_induction Rule.many p c generalizing first vs with
  | case1 c value next hp hlt values last hmany ih =>
    cases hout
    obtain ⟨hnext, hvalue⟩ := h first c hc hbefore value next hp
    obtain ⟨hrest, hvalues⟩ := ih next.toPosition hnext (.nil (le_refl _)) values hmany
    dsimp only
    rw [List.flatMap_cons]
    exact ⟨hrest, hvalue.append hvalues⟩
  | case2 c value next hp hlt hmany => exact absurd hout (hmany vs rest)
  | case3 c value next hp hlt => cases hout
  | case4 c error hp => cases hout; exact ⟨hc, hbefore⟩
  | case5 c error hp => cases hout

theorem Spans.spaced (h : Spans source before p places) :
    Spans source before (spaced p) places := by
  refine (Spans.plain .skip).bind fun _ => ?_
  refine h.bind fun _ => ?_
  exact (Spans.plain .skip).bind fun _ => .pure rfl

theorem Spans.located (h : Spans source [] p places) :
    Spans source [] (located p) fun x => x.position :: places x.value := by
  refine (Spans.plain .skip).bind fun _ => ?_
  have hposition : Spans source [] position fun position => [position] := by
    intro first c hc hbefore v rest hout
    cases hout
    exact ⟨hc, .singleton hbefore.first_le_last (le_refl _)⟩
  refine hposition.bind fun position => ?_
  exact (h.after [position]).bind fun _ => .pure rfl

theorem Spans.items (h : Spans source [] p places) :
    Spans source [] (items p) (placesOf places) :=
  h.located.spaced.many

theorem Spans.simple (h : Yields source p Q) : Spans source [] (Rule.items p) simplePlaces :=
  (Spans.plain h).items

theorem Spans.nodes {p : Rule Node} (h : Spans source [] p Node.places) :
    Spans source [] (Rule.items p) Node.allPlaces := by
  rw [show Node.allPlaces = placesOf Node.places from funext Node.allPlaces_eq]
  exact h.items

theorem Spans.noRoom : Spans source before (noRoom : Rule α) places :=
  .nested fun _ hr => nomatch hr

theorem Spans.block {expected : String} (h : Spans source before p places) :
    Spans source before (block expected p) places := by
  refine (Spans.plain (.word _)).bind fun _ => ?_
  refine h.bind fun _ => ?_
  exact (Spans.plain (Yields.word _).inContext).bind fun _ => .pure rfl

/-- A keyword that makes something without positions of what must follow it. -/
theorem Spans.keyed {w : String} {make : α → β} (h : Yields source p Q)
    (hmake : ∀ v, others (make v) = before) :
    Spans source before (do Rule.keyword w; Pure.pure (make (← Rule.cut (Rule.spaced p))))
      others := by
  refine (Spans.plain (.keyword _)).bind fun _ => ?_
  exact (Spans.plain h.spaced.cut).bind fun v => .pure (hmake v)

/-! ## Attributes and statements -/

variable {num : Float → Prop} {room : Nat}

theorem Spans.agentAttribute (hnum : Yields source signedNumber num) :
    Spans source [] agentAttribute Attribute.places := by
  have hid : Spans source [] (do Rule.text "#"; Pure.pure (Attribute.id (← Rule.cut identifier)))
      Attribute.places :=
    (Spans.plain (.text _)).bind fun _ =>
      (Spans.plain Yields.identifier.cut).bind fun _ => .pure rfl
  refine .orElse hid ?_
  refine .orElse (.keyed (.point hnum) fun _ => rfl) ?_
  refine .orElse (.keyed (.point hnum) fun _ => rfl) ?_
  refine .orElse (.keyed .stringLiteral fun _ => rfl) ?_
  refine .orElse (.keyed hnum fun _ => rfl) ?_
  refine .orElse (.keyed .boolean fun _ => rfl) ?_
  refine .orElse (.keyed .boolean fun _ => rfl) ?_
  refine (Spans.plain (.keyword _)).bind fun _ => ?_
  refine (Spans.plain Yields.identifier.spaced).bind fun _ => ?_
  exact (Spans.simple .animationModifier).bind fun _ => .pure rfl

section Expressions

variable (hexpr : Yields source (Rule.expression room) (Written num (maxNesting - 1)))

include hexpr

theorem Spans.assignment : Spans source [] (assignment room) Command.places := by
  have hword (w : String) (isInit : Bool) :
      Yields source (do Rule.keyword w; Pure.pure isInit) fun _ => True :=
    (Yields.keyword w).bind fun _ _ => .pure trivial
  refine (Spans.plain (.orElse (hword _ _) (hword _ _))).bind fun isInit => Spans.cut ?_
  refine (Spans.plain Yields.variableName.spaced).bind fun _ => ?_
  refine (Spans.plain (.word _)).bind fun _ => ?_
  refine (Spans.plain hexpr.spaced).bind fun _ => .pure ?_
  cases isInit with
  | true => rfl
  | false => rfl

theorem Spans.addition : Spans source [] (addition room) Command.places := by
  refine (Spans.plain (.keyword _)).bind fun _ => Spans.cut ?_
  refine (Spans.plain hexpr.spaced).bind fun _ => ?_
  refine (Spans.plain (.word _)).bind fun _ => ?_
  exact (Spans.plain Yields.variableName.spaced).bind fun _ => .pure rfl

theorem Spans.subtraction : Spans source [] (subtraction room) Command.places := by
  refine (Spans.plain (.keyword _)).bind fun _ => Spans.cut ?_
  refine (Spans.plain hexpr.spaced).bind fun _ => ?_
  refine (Spans.plain (.word _)).bind fun _ => ?_
  exact (Spans.plain Yields.variableName.spaced).bind fun _ => .pure rfl

theorem Spans.movement : Spans source [] (movement room) Command.places := by
  refine (Spans.plain (.keyword _)).bind fun _ => Spans.cut ?_
  refine (Spans.plain Yields.target.spaced).bind fun _ => ?_
  refine (Spans.plain (.word _)).bind fun _ => ?_
  refine (Spans.plain (.expressionPair hexpr)).bind fun _ => ?_
  exact (Spans.simple .tweenModifier).bind fun _ => .pure rfl

theorem Spans.property :
    Spans source [] (property room) fun p => [p.position] := by
  refine (Spans.located (.plain .identifier)).bind fun _ => ?_
  have hvalue : Yields source (do Rule.symbol ":"; Rule.spaced (Rule.expression room))
      (Written num (maxNesting - 1)) := (Yields.symbol _).bind fun _ _ => hexpr.spaced
  exact (Spans.plain hvalue.cut).bind fun _ => .pure rfl

theorem Spans.tweening : Spans source [] (tweening room) Command.places := by
  refine (Spans.plain (.keyword _)).bind fun _ => Spans.cut ?_
  refine (Spans.plain Yields.target.spaced).bind fun _ => ?_
  refine (Spans.plain (.word _)).bind fun _ => ?_
  refine (Spans.plain (.symbol _)).bind fun _ => ?_
  have hproperty := (Spans.property hexpr).spaced
  have hothers : Spans source [] (Rule.many do Rule.symbol ","; Rule.spaced (Rule.property room))
      simplePlaces := ((Spans.plain (.symbol _)).bind fun _ => hproperty).many
  have hproperties : Spans source []
      (Rule.separated (Rule.symbol ",") (Rule.spaced (Rule.property room))) simplePlaces :=
    hproperty.bind fun first => (hothers.after [first.position]).bind fun _ => .pure rfl
  refine hproperties.bind fun properties => ?_
  refine (Spans.plain (.symbol _)).bind fun _ => ?_
  exact ((Spans.simple .tweenModifier).after _).bind fun _ => .pure rfl

end Expressions

theorem Spans.turn : Spans source [] turn Command.places := by
  refine (Spans.plain (.keyword _)).bind fun _ => Spans.cut (Spans.inContext (.orElse ?_ ?_))
  · refine (Spans.plain (.word _)).bind fun _ => ?_
    refine (Spans.plain (.word _)).bind fun _ => ?_
    exact (Spans.plain Yields.integer.spaced.cut).bind fun _ => .pure rfl
  · exact (Spans.plain (.word _)).bind fun _ => .pure rfl

theorem Spans.animating : Spans source [] animating Command.places := by
  refine (Spans.plain (.keyword _)).bind fun _ => Spans.cut ?_
  refine (Spans.plain Yields.target.spaced).bind fun _ => ?_
  refine (Spans.plain Yields.identifier.spaced).bind fun _ => ?_
  exact (Spans.simple .animationModifier).bind fun _ => .pure rfl

theorem Spans.stopping : Spans source [] stopping Command.places := by
  refine (Spans.plain (.keyword _)).bind fun _ =>
    Spans.cut (Spans.inContext (.orElse ?_ (.orElse ?_ ?_)))
  · refine (Spans.plain (.word _)).bind fun _ => ?_
    exact (Spans.plain Yields.target.spaced.cut).bind fun _ => .pure rfl
  · refine (Spans.plain (.word _)).bind fun _ => ?_
    exact (Spans.plain Yields.stringLiteral.spaced.optional).bind fun _ => .pure rfl
  · exact (Spans.plain (.word _)).bind fun _ => .pure rfl

theorem Spans.playing (hnum : Yields source signedNumber num) :
    Spans source [] playing Command.places := by
  refine (Spans.plain (.keyword _)).bind fun _ => Spans.cut ?_
  refine (Spans.plain (.word _)).bind fun _ => ?_
  refine (Spans.plain Yields.stringLiteral.spaced).bind fun _ => ?_
  refine (Spans.plain (Yields.optional (Q := num) ?_)).bind fun _ => .pure rfl
  exact (Yields.word _).bind fun _ _ => hnum.spaced.cut

theorem Spans.music (hnum : Yields source signedNumber num) :
    Spans source [] music Command.places := by
  refine (Spans.plain (.keyword _)).bind fun _ => Spans.cut ?_
  refine (Spans.plain Yields.stringLiteral.spaced).bind fun _ => ?_
  exact (Spans.simple (.musicModifier hnum)).bind fun _ => .pure rfl

section Blocks

variable {contents agents mixed statements : Rule (List (Located Node))}

theorem Spans.statementBlock (h : Spans source before contents Node.allPlaces) :
    Spans source before (statementBlock contents) Node.allPlaces :=
  h.block.cut

theorem Spans.waiting (h : Spans source [] contents Node.allPlaces) :
    Spans source [] (waiting contents) Command.places := by
  refine (Spans.plain (.keyword _)).bind fun _ => ?_
  refine (Spans.plain Yields.duration.spaced.cut).bind fun _ => ?_
  exact h.statementBlock.bind fun _ => .pure rfl

theorem Spans.ticking (h : Spans source [] contents Node.allPlaces) :
    Spans source [] (ticking contents) Command.places := by
  refine (Spans.plain .timerHead).bind fun _ => ?_
  exact h.statementBlock.bind fun _ => .pure rfl

theorem Spans.commandOver (hnum : Yields source signedNumber num)
    (hexpr : Yields source (Rule.expression room) (Written num (maxNesting - 1)))
    (h : Spans source [] contents Node.allPlaces) :
    Spans source [] (commandOver room contents) Command.places :=
  .orElse (.assignment hexpr) <| .orElse (.addition hexpr) <| .orElse (.subtraction hexpr) <|
  .orElse .turn <| .orElse (.movement hexpr) <| .orElse (.tweening hexpr) <| .orElse .animating <|
  .orElse .stopping <| .orElse (.playing hnum) <| .orElse (.music hnum) <|
  .orElse (.waiting h) (.ticking h)

theorem Spans.asNode {p : Rule Command} (h : Spans source [] p Command.places) :
    Spans source [] (asNode p) Node.places :=
  h.bind fun _ => .pure rfl

/-! ## Agents -/

theorem Spans.attributes (hnum : Yields source signedNumber num) :
    Spans source [] (Rule.items Rule.agentAttribute) (placesOf Attribute.places) :=
  (Spans.agentAttribute hnum).items

/-- A word, a string and attributes. -/
theorem Spans.described {w : String} {make : String → List (Located Attribute) → Node}
    (hnum : Yields source signedNumber num)
    (hmake : ∀ s attributes, (make s attributes).places = placesOf Attribute.places attributes) :
    Spans source [] (do
      Rule.keyword w
      let s ← Rule.cut (Rule.spaced Rule.stringLiteral)
      let attributes ← Rule.items Rule.agentAttribute
      Pure.pure (make s attributes)) Node.places := by
  refine (Spans.plain (.keyword _)).bind fun _ => ?_
  refine (Spans.plain Yields.stringLiteral.spaced.cut).bind fun _ => ?_
  exact (Spans.attributes hnum).bind fun _ => .pure (hmake _ _)

theorem Spans.handler (h : Spans source [] contents Node.allPlaces) :
    Spans source [] (handler contents) fun h => Node.allPlaces h.body := by
  refine (Spans.plain Yields.gesture.located).bind fun _ => ?_
  exact h.statementBlock.bind fun _ => .pure rfl

theorem Spans.buttonAgent (hnum : Yields source signedNumber num)
    (h : Spans source [] contents Node.allPlaces) :
    Spans source [] (buttonAgent contents) Node.places := by
  refine (Spans.plain (.keyword _)).bind fun _ => ?_
  refine (Spans.plain Yields.stringLiteral.spaced.cut).bind fun _ => ?_
  refine (Spans.attributes hnum).bind fun attributes => ?_
  refine Spans.bind ((Spans.optional (?_ : Spans source [] _ Node.handlerPlaces)).after _)
    fun handlers => .pure ?_
  · refine (Spans.plain (.word _)).bind fun _ => Spans.cut ?_
    rw [show Node.handlerPlaces = _ from funext Node.handlerPlaces_eq]
    refine (Spans.handler h).spaced.many.bind fun _ => ?_
    exact (Spans.plain (Yields.word _).inContext).bind fun _ => .pure rfl
  · cases handlers with
    | none => rfl
    | some handlers => rfl

theorem Spans.choiceAgent
    (hexpr : Yields source (Rule.expression room) (Written num (maxNesting - 1)))
    (h : Spans source [] contents Node.allPlaces) :
    Spans source [] (choiceAgent room contents) Node.places := by
  refine (Spans.plain (.keyword _)).bind fun _ => ?_
  refine (Spans.plain hexpr.spaced.cut).bind fun _ => ?_
  refine (Spans.plain (Yields.word _).cut).bind fun _ => ?_
  refine h.bind fun items => ?_
  have helse : Spans source [] (do Rule.word "else"; contents) Node.allPlaces :=
    (Spans.plain (.word _)).bind fun _ => h
  refine (helse.optional.after _).bind fun elseItems => ?_
  refine (Spans.plain (Yields.word _).inContext.cut).bind fun _ => .pure ?_
  cases elseItems with
  | none => rfl
  | some elseItems => rfl

theorem Spans.forAgent
    (hexpr : Yields source (Rule.expression room) (Written num (maxNesting - 1)))
    (h : Spans source [] contents Node.allPlaces) :
    Spans source [] (forAgent room contents) Node.places := by
  refine (Spans.plain (.keyword _)).bind fun _ => ?_
  have hhead : Spans source [] (Rule.cut do
      let name ← Rule.spaced Rule.variableName
      Rule.word "in"
      let range ← Rule.spaced (Rule.expression room)
      Pure.pure (name, range)) fun _ => [] := by
    refine Spans.cut ((Spans.plain Yields.variableName.spaced).bind fun _ => ?_)
    refine (Spans.plain (.word _)).bind fun _ => ?_
    exact (Spans.plain hexpr.spaced).bind fun _ => .pure rfl
  exact hhead.bind fun _ => h.block.cut.bind fun _ => .pure rfl

theorem Spans.waitAgent (h : Spans source [] contents Node.allPlaces) :
    Spans source [] (waitAgent contents) Node.places := by
  refine (Spans.plain (.keyword _)).bind fun _ => ?_
  refine (Spans.plain Yields.duration.spaced.cut).bind fun _ => ?_
  exact h.block.cut.bind fun _ => .pure rfl

theorem Spans.timerAgent (h : Spans source [] contents Node.allPlaces) :
    Spans source [] (timerAgent contents) Node.places := by
  refine (Spans.plain .timerHead).bind fun _ => ?_
  exact h.statementBlock.bind fun _ => .pure rfl

theorem Spans.agentOver (hnum : Yields source signedNumber num)
    (hexpr : Yields source (Rule.expression room) (Written num (maxNesting - 1)))
    (ha : Spans source [] agents Node.allPlaces) (hm : Spans source [] mixed Node.allPlaces)
    (hs : Spans source [] statements Node.allPlaces) :
    Spans source [] (agentOver room agents mixed statements) Node.places :=
  .orElse (.described hnum fun _ _ => rfl) <| .orElse (.buttonAgent hnum hs) <|
  .orElse (.described hnum fun _ _ => rfl) <| .orElse (.described hnum fun _ _ => rfl) <|
  .orElse (.choiceAgent hexpr ha) <| .orElse (.forAgent hexpr ha) <|
  .orElse (.waitAgent hm) (.timerAgent hs)

end Blocks

/-! ## Pages and stories -/

section Numbers

variable (h : YieldsNumbers source num)

include h

/-- The induction is on the room: a block has less of it than the statement around it. -/
theorem Spans.command (room : Nat) (hroom : room ≤ maxNesting - 1) :
    Spans source [] (command room) Command.places := by
  induction room with
  | zero => exact .commandOver h.signed (h.expression 0 hroom) .noRoom
  | succ room ih =>
    have hbody : Spans source [] (Rule.items (Rule.asNode (Rule.command room))) Node.allPlaces :=
      (Spans.asNode (ih (Nat.le_of_succ_le hroom))).nodes
    exact .commandOver h.signed (h.expression (room + 1) hroom) hbody

theorem Spans.agent (room : Nat) (hroom : room ≤ maxNesting - 1) :
    Spans source [] (agent room) Node.places := by
  induction room with
  | zero => exact .agentOver h.signed (h.expression 0 hroom) .noRoom .noRoom .noRoom
  | succ room ih =>
    have hle := Nat.le_of_succ_le hroom
    have hstatement := (Spans.command h room hle).asNode
    exact .agentOver h.signed (h.expression (room + 1) hroom) (ih hle).nodes
      (Spans.orElse (ih hle) hstatement).nodes hstatement.nodes

theorem Spans.page (room : Nat) (hroom : room ≤ maxNesting - 1) :
    Spans source [] (page room) Node.places := by
  refine (Spans.plain (.keyword _)).bind fun _ => ?_
  refine (Spans.plain Yields.integer.spaced.cut).bind fun _ => ?_
  refine Spans.bind (Spans.cut (Spans.block (.nested fun r hr =>
    (?_ : Spans source [] _ Node.allPlaces)))) fun _ => .pure rfl
  have hr : r ≤ maxNesting - 1 := by omega
  have hadvance : Spans source [] autoAdvance Node.places := .keyed .duration fun _ => rfl
  exact (Spans.orElse hadvance
    (.orElse (.agent h r hr) (Spans.command h r hr).asNode)).nodes

theorem Spans.story : Spans source [] story Tree.places := by
  refine (Spans.plain (.word _)).bind fun _ => ?_
  refine (Spans.plain Yields.stringLiteral.spaced.cut).bind fun _ => ?_
  refine Spans.bind (Spans.cut (Spans.block (.nested fun r hr =>
    (?_ : Spans source [] _ Node.allPlaces)))) fun _ => .pure rfl
  have hr : r ≤ maxNesting - 1 := by omega
  exact (Spans.orElse (.page h r hr) (Spans.command h r hr).asNode).nodes

theorem Spans.script : Spans source [] script Tree.places := by
  refine (Spans.story h).bind fun _ => ?_
  exact (Spans.plain (Yields.spaced .endOfText).inContext).bind fun _ => .pure rfl

end Numbers

end Rule

/-- The positions in the tree of a script are in order. -/
theorem Tree.sorted_of_read {source : String} {tree : Tree} (h : Tree.read source = .ok tree) :
    tree.places.Pairwise (· ≤ ·) := by
  have hnumbers : Rule.YieldsNumbers source fun _ => True :=
    .of_number (fun _ _ => trivial) Rule.Yields.anyNumber
  unfold Tree.read at h
  cases hout : Rule.script (.ofText source) with
  | ok read rest =>
    rw [hout] at h
    cases h
    exact (Rule.Spans.script hnumbers _ _ (.ofText source) (.nil (le_refl _)) _ _ hout).2.sorted
  | refuse error => rw [hout] at h; exact nomatch h
  | abort error => rw [hout] at h; exact nomatch h

end Storybook.Script
