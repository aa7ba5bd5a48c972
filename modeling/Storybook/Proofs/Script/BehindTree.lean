/-
# `Storybook.Proofs.Script.BehindTree` — trees behind another text

The positions in the tree of a script are the only places that are left of its text.  Behind another
text the grammar gives the same tree with all of them moved, or the same error (`Moves.script`).

`Node.moved move` is a node with every position inside it replaced by what `move` makes of it; the
positions of the items of a block belong to the block (`movedItems`).  Assembly does not care for
positions other than that it hands them on in its faults: of a tree with moved positions it makes
the same story, or the same fault at the position moved (`Tree.assemble_moved`).

| | judgement | moved |
| :-- | :-- | :-- |
| a rule | `Rule.Moves` | its place, and the positions of its value |
| a step of assembly | `Assembly.Moved` | the position of its fault |
-/
import Storybook.Proofs.Script.Behind
import Storybook.Script.Compile

namespace Storybook.Script

/-! ## Moved trees -/

section Trees

variable (move : Position → Position)

/-- Something at a position that is moved. -/
def Located.moved {α β : Type} (f : α → β) (x : Located α) : Located β :=
  ⟨move x.position, f x.value⟩

def Attribute.moved : Attribute → Attribute
  | animate kind modifiers => .animate kind (modifiers.map (.moved move fun m => m))
  | other => other

mutual

def Node.moved : Node → Node
  | .page id items => .page id (movedItems items)
  | .autoAdvance delay => .autoAdvance delay
  | .text content attributes => .text content (attributes.map (.moved move (.moved move)))
  | .button label attributes handlers =>
    .button label (attributes.map (.moved move (.moved move))) (movedHandlers handlers)
  | .image src attributes => .image src (attributes.map (.moved move (.moved move)))
  | .video src attributes => .video src (attributes.map (.moved move (.moved move)))
  | .choice condition items elseItems =>
    .choice condition (movedItems items) (movedItems elseItems)
  | .forEach name range items => .forEach name range (movedItems items)
  | .wait delay items => .wait delay (movedItems items)
  | .timer interval times items => .timer interval times (movedItems items)
  | .statement command => .statement (Command.moved command)

def Command.moved : Command → Command
  | .move target x y modifiers => .move target x y (modifiers.map (.moved move id))
  | .tween target properties modifiers =>
    .tween target (properties.map (.moved move id)) (modifiers.map (.moved move id))
  | .animate target kind modifiers => .animate target kind (modifiers.map (.moved move id))
  | .music src modifiers => .music src (modifiers.map (.moved move id))
  | .wait delay body => .wait delay (movedItems body)
  | .timer interval times body => .timer interval times (movedItems body)
  | .init name value => .init name value
  | .set name value => .set name value
  | .add name amount => .add name amount
  | .subtract name amount => .subtract name amount
  | .goToPage page => .goToPage page
  | .goBack => .goBack
  | .stopAnimation target => .stopAnimation target
  | .playSound src volume => .playSound src volume
  | .stopSound src => .stopSound src
  | .stopMusic => .stopMusic

def movedItems : List (Located Node) → List (Located Node)
  | [] => []
  | ⟨position, node⟩ :: items => ⟨move position, Node.moved node⟩ :: movedItems items

def movedHandlers : List (HandlerNode Node) → List (HandlerNode Node)
  | [] => []
  | ⟨gesture, body⟩ :: handlers => ⟨gesture, movedItems body⟩ :: movedHandlers handlers

end

def Tree.moved (tree : Tree) : Tree := ⟨tree.title, movedItems move tree.items⟩

theorem movedItems_eq (items : List (Located Node)) :
    movedItems move items = items.map (.moved move (.moved move)) := by
  induction items with
  | nil => rfl
  | cons item rest ih => exact congrArg (item.moved move (.moved move) :: ·) ih

def HandlerNode.moved (h : HandlerNode Node) : HandlerNode Node :=
  ⟨h.gesture, movedItems move h.body⟩

theorem movedHandlers_eq (handlers : List (HandlerNode Node)) :
    movedHandlers move handlers = handlers.map (.moved move) := by
  induction handlers with
  | nil => rfl
  | cons h rest ih => exact congrArg (h.moved move :: ·) ih

end Trees

/-! ## Rules that note positions -/

namespace Rule

variable {before : List Char} {α β γ : Type}

theorem Moves.position : Moves before (.behind before) Rule.position Rule.position :=
  fun c hline => .ok c.toPosition hline

section Lists

variable {f : α → β} {p : Rule α} {q : Rule β}

theorem Moves.located (h : Moves before f p q) :
    Moves before (.moved (.behind before) f) (Rule.located p) (Rule.located q) := by
  refine Moves.bind .skip fun _ => ?_
  refine Moves.bind .position fun position => ?_
  exact Moves.bind h fun value => .pure _

theorem Moves.items (h : Moves before f p q) :
    Moves before (List.map (.moved (.behind before) f)) (Rule.items p) (Rule.items q) :=
  h.located.spaced.many

theorem Moves.block {expected : String} (h : Moves before f p q) :
    Moves before f (Rule.block expected p) (Rule.block expected q) := by
  refine Moves.bind (.word _) fun _ => ?_
  refine Moves.bind h fun value => ?_
  exact Moves.bind (Moves.inContext (.word _)) fun _ => .pure _

end Lists

theorem Moves.noRoom {f : α → α} : Moves before f Rule.noRoom Rule.noRoom :=
  .nested fun _ h => nomatch h

/-- A keyword that makes something without positions of what must follow it. -/
theorem Moves.keyed {w : String} {p : Rule α} {make : α → β} {f : β → β} (h : Plain before p)
    (hmake : ∀ v, f (make v) = make v) :
    Moves before f (do Rule.keyword w; Pure.pure (make (← Rule.cut (Rule.spaced p))))
      (do Rule.keyword w; Pure.pure (make (← Rule.cut (Rule.spaced p)))) := by
  refine Moves.bind (.keyword _) fun _ => Moves.bind h.spaced.cut fun v => ?_
  exact .pure_of_eq (hmake v)

/-! ### Options and attributes -/

theorem Moves.durationModifier : Plain before Rule.durationModifier := .keyed .duration fun _ => rfl

theorem Moves.animationModifier : Plain before Rule.animationModifier :=
  .orElse .durationModifier (.keyed .integer fun _ => rfl)

theorem Moves.tweenModifier : Plain before Rule.tweenModifier :=
  .orElse .durationModifier (.keyed .identifier fun _ => rfl)

theorem Moves.musicModifier : Plain before Rule.musicModifier :=
  .orElse (.keyed .boolean fun _ => rfl) (.keyed .signedNumber fun _ => rfl)

theorem Moves.agentAttribute :
    Moves before (.moved (.behind before)) Rule.agentAttribute Rule.agentAttribute := by
  refine .orElse (Moves.bind (.text _) fun _ => Moves.bind Moves.identifier.cut fun _ => .pure _) ?_
  refine .orElse (.keyed .point fun _ => rfl) (.orElse (.keyed .point fun _ => rfl) ?_)
  refine .orElse (.keyed .stringLiteral fun _ => rfl) ?_
  refine .orElse (.keyed .signedNumber fun _ => rfl) ?_
  refine .orElse (.keyed .boolean fun _ => rfl) (.orElse (.keyed .boolean fun _ => rfl) ?_)
  refine Moves.bind (.keyword _) fun _ => ?_
  refine Moves.bind Moves.identifier.spaced fun kind => ?_
  exact Moves.bind Moves.animationModifier.items fun modifiers => .pure _

/-! ### Statements -/

variable {room : Nat} {contents agents mixed statements : Rule (List (Located Node))}

theorem Moves.assignment :
    Moves before (.moved (.behind before)) (Rule.assignment room) (Rule.assignment room) := by
  refine Moves.bind (f := id) (.orElse ?_ ?_) fun isInit => .cut ?_
  · exact Moves.bind (.keyword _) fun _ => .pure _
  · exact Moves.bind (.keyword _) fun _ => .pure _
  refine Moves.bind Moves.variableName.spaced fun name => ?_
  refine Moves.bind (.word _) fun _ => ?_
  refine Moves.bind (Moves.expression room).spaced fun value => ?_
  cases isInit with
  | true => exact .pure _
  | false => exact .pure _

theorem Moves.addition :
    Moves before (.moved (.behind before)) (Rule.addition room) (Rule.addition room) := by
  refine Moves.bind (.keyword _) fun _ => .cut ?_
  refine Moves.bind (Moves.expression room).spaced fun amount => ?_
  refine Moves.bind (.word _) fun _ => ?_
  exact Moves.bind Moves.variableName.spaced fun name => .pure _

theorem Moves.subtraction :
    Moves before (.moved (.behind before)) (Rule.subtraction room) (Rule.subtraction room) := by
  refine Moves.bind (.keyword _) fun _ => .cut ?_
  refine Moves.bind (Moves.expression room).spaced fun amount => ?_
  refine Moves.bind (.word _) fun _ => ?_
  exact Moves.bind Moves.variableName.spaced fun name => .pure _

theorem Moves.turn : Moves before (.moved (.behind before)) Rule.turn Rule.turn := by
  refine Moves.bind (.keyword _) fun _ => .cut (.inContext (.orElse ?_ ?_))
  · refine Moves.bind (.word _) fun _ => Moves.bind (.word _) fun _ => ?_
    exact Moves.bind Moves.integer.spaced.cut fun page => .pure _
  · exact Moves.bind (.word _) fun _ => .pure _

theorem Moves.expressionPair : Plain before (Rule.expressionPair room) := by
  refine Plain.bind (.symbol _) fun _ => .cut ?_
  refine Plain.bind (Moves.expression room).spaced fun x => ?_
  refine Plain.bind (.symbol _) fun _ => ?_
  refine Plain.bind (Moves.expression room).spaced fun y => ?_
  exact Plain.bind (.symbol _) fun _ => .pure _

theorem Moves.movement :
    Moves before (.moved (.behind before)) (Rule.movement room) (Rule.movement room) := by
  refine Moves.bind (.keyword _) fun _ => .cut ?_
  refine Moves.bind Moves.target.spaced fun target => ?_
  refine Moves.bind (.word _) fun _ => ?_
  refine Moves.bind .expressionPair fun pair => ?_
  exact Moves.bind Moves.tweenModifier.items fun modifiers =>
    .pure _

theorem Moves.property :
    Moves before (.moved (.behind before) id) (Rule.property room) (Rule.property room) := by
  refine Moves.bind Moves.identifier.located fun name => ?_
  refine Moves.bind (f := id) (.cut (Plain.bind (.symbol _) fun _ => ?_)) fun value => .pure _
  exact (Moves.expression room).spaced

theorem Moves.tweening :
    Moves before (.moved (.behind before)) (Rule.tweening room) (Rule.tweening room) := by
  refine Moves.bind (.keyword _) fun _ => .cut ?_
  refine Moves.bind Moves.target.spaced fun target => ?_
  refine Moves.bind (.word _) fun _ => ?_
  refine Moves.bind (.symbol _) fun _ => ?_
  have hproperty : Moves before (.moved (.behind before) id) (Rule.spaced (Rule.property room))
      (Rule.spaced (Rule.property room)) := Moves.property.spaced
  have hproperties : Moves before (List.map (.moved (.behind before) id))
      (Rule.separated (Rule.symbol ",") (Rule.spaced (Rule.property room)))
      (Rule.separated (Rule.symbol ",") (Rule.spaced (Rule.property room))) := by
    refine Moves.bind hproperty fun first => ?_
    refine Moves.bind (Moves.many (Moves.bind (.symbol _) fun _ => hproperty)) fun others => ?_
    exact .pure _
  refine Moves.bind hproperties fun properties => ?_
  refine Moves.bind (.symbol _) fun _ => ?_
  exact Moves.bind Moves.tweenModifier.items fun modifiers =>
    .pure _

theorem Moves.animating : Moves before (.moved (.behind before)) Rule.animating Rule.animating := by
  refine Moves.bind (.keyword _) fun _ => .cut ?_
  refine Moves.bind Moves.target.spaced fun target => ?_
  refine Moves.bind Moves.identifier.spaced fun kind => ?_
  exact Moves.bind Moves.animationModifier.items fun modifiers =>
    .pure _

theorem Moves.stopping : Moves before (.moved (.behind before)) Rule.stopping Rule.stopping := by
  refine Moves.bind (.keyword _) fun _ => .cut (.inContext (.orElse ?_ (.orElse ?_ ?_)))
  · refine Moves.bind (.word _) fun _ => ?_
    exact Moves.bind Moves.target.spaced.cut fun target => .pure _
  · refine Moves.bind (.word _) fun _ => ?_
    exact Moves.bind (Plain.optional Moves.stringLiteral.spaced) fun src => .pure _
  · exact Moves.bind (.word _) fun _ => .pure _

theorem Moves.playing : Moves before (.moved (.behind before)) Rule.playing Rule.playing := by
  refine Moves.bind (.keyword _) fun _ => .cut ?_
  refine Moves.bind (.word _) fun _ => ?_
  refine Moves.bind Moves.stringLiteral.spaced fun src => ?_
  refine Moves.bind (Plain.optional (Plain.bind (.word _) fun _ => ?_)) fun volume => ?_
  · exact Moves.signedNumber.spaced.cut
  · exact .pure _

theorem Moves.music : Moves before (.moved (.behind before)) Rule.music Rule.music := by
  refine Moves.bind (.keyword _) fun _ => .cut ?_
  refine Moves.bind Moves.stringLiteral.spaced fun src => ?_
  exact Moves.bind Moves.musicModifier.items fun modifiers => .pure _

theorem Moves.timerHead : Plain before Rule.timerHead := by
  refine Plain.bind (.keyword _) fun _ => .cut ?_
  refine Plain.bind (.word _) fun _ => ?_
  refine Plain.bind Moves.duration.spaced fun interval => ?_
  refine Plain.bind (Plain.optional (Plain.bind (.word _) fun _ => ?_)) fun times => .pure _
  exact Moves.count.spaced.cut

section Blocks

/-- Whether a rule of the contents of blocks comes to the same with its positions moved. -/
abbrev MovesItems (before : List Char) (p : Rule (List (Located Node))) : Prop :=
  Moves before (movedItems (.behind before)) p p

theorem Moves.statementBlock (h : MovesItems before contents) :
    MovesItems before (Rule.statementBlock contents) :=
  h.block.cut

theorem Moves.waiting (h : MovesItems before contents) :
    Moves before (.moved (.behind before)) (Rule.waiting contents) (Rule.waiting contents) := by
  refine Moves.bind (.keyword _) fun _ => ?_
  refine Moves.bind Moves.duration.spaced.cut fun delay => ?_
  exact Moves.bind (.statementBlock h) fun body => .pure _

theorem Moves.ticking (h : MovesItems before contents) :
    Moves before (.moved (.behind before)) (Rule.ticking contents) (Rule.ticking contents) := by
  refine Moves.bind .timerHead fun head => ?_
  exact Moves.bind (.statementBlock h) fun body => .pure _

theorem Moves.commandOver (h : MovesItems before contents) :
    Moves before (.moved (.behind before)) (Rule.commandOver room contents)
      (Rule.commandOver room contents) :=
  .orElse .assignment <| .orElse .addition <| .orElse .subtraction <| .orElse .turn <|
  .orElse .movement <| .orElse .tweening <| .orElse .animating <| .orElse .stopping <|
  .orElse .playing <| .orElse .music <| .orElse (.waiting h) (.ticking h)

theorem Moves.asNode {p : Rule Command} (h : Moves before (.moved (.behind before)) p p) :
    Moves before (.moved (.behind before)) (Rule.asNode p) (Rule.asNode p) :=
  Moves.bind h fun _ => .pure _

theorem Moves.nodes {p : Rule Node} (h : Moves before (.moved (.behind before)) p p) :
    MovesItems before (Rule.items p) :=
  h.items.congr fun items => (movedItems_eq _ items).symm

/-! ### Agents -/

theorem Moves.gesture : Plain before Rule.gesture :=
  .orElse (Plain.bind (.keyword _) fun _ => .pure _) <|
  .orElse (Plain.bind (.keyword _) fun _ => .pure _) <|
  .orElse (Plain.bind (.keyword _) fun _ => .pure _) (Plain.bind (.keyword _) fun _ => .pure _)

theorem Moves.handler (h : MovesItems before contents) :
    Moves before (.moved (.behind before)) (Rule.handler contents) (Rule.handler contents) := by
  refine Moves.bind Moves.gesture.located fun gesture => ?_
  exact Moves.bind (.statementBlock h) fun body => .pure _

/-- A word, a string and attributes. -/
theorem Moves.described {w : String} {make : String → List (Located Attribute) → Node}
    (hmake : ∀ s attributes, Node.moved (.behind before) (make s attributes) =
      make s (attributes.map (.moved (.behind before) (.moved (.behind before))))) :
    let p : Rule Node := do
      Rule.keyword w
      let s ← Rule.cut (Rule.spaced Rule.stringLiteral)
      let attributes ← Rule.items Rule.agentAttribute
      Pure.pure (make s attributes)
    Moves before (.moved (.behind before)) p p := by
  refine Moves.bind (.keyword _) fun _ => ?_
  refine Moves.bind Moves.stringLiteral.spaced.cut fun s => ?_
  exact Moves.bind Moves.agentAttribute.items fun attributes => .pure_of_eq (hmake s attributes)

theorem Moves.buttonAgent (h : MovesItems before contents) :
    Moves before (.moved (.behind before)) (Rule.buttonAgent contents)
      (Rule.buttonAgent contents) := by
  refine Moves.bind (.keyword _) fun _ => ?_
  refine Moves.bind Moves.stringLiteral.spaced.cut fun label => ?_
  refine Moves.bind Moves.agentAttribute.items fun attributes => ?_
  refine Moves.bind (f := Option.map (movedHandlers (.behind before))) (.optional ?_)
    fun handlers => ?_
  · refine Moves.bind (.word _) fun _ => .cut ?_
    have hhandlers := (Moves.handler h).spaced.many.congr fun handlers =>
      (movedHandlers_eq (.behind before) handlers).symm
    refine Moves.bind hhandlers fun handlers => ?_
    exact Moves.bind (Moves.inContext (.word _)) fun _ => .pure _
  · cases handlers with
    | none => exact .pure (Node.button label attributes [])
    | some handlers => exact .pure (Node.button label attributes handlers)

theorem Moves.choiceAgent (h : MovesItems before contents) :
    Moves before (.moved (.behind before)) (Rule.choiceAgent room contents)
      (Rule.choiceAgent room contents) := by
  refine Moves.bind (.keyword _) fun _ => ?_
  refine Moves.bind (Moves.expression room).spaced.cut fun condition => ?_
  refine Moves.bind (Moves.word _).cut fun _ => ?_
  refine Moves.bind h fun items => ?_
  refine Moves.bind (Moves.optional (Moves.bind (.word _) fun _ => h)) fun elseItems => ?_
  refine Moves.bind (Moves.cut (Moves.inContext (.word _))) fun _ => ?_
  cases elseItems with
  | none => exact .pure (Node.choice condition items [])
  | some elseItems => exact .pure (Node.choice condition items elseItems)

theorem Moves.forAgent (h : MovesItems before contents) :
    Moves before (.moved (.behind before)) (Rule.forAgent room contents)
      (Rule.forAgent room contents) := by
  refine Moves.bind (.keyword _) fun _ => ?_
  have hhead : Plain before (Rule.cut do
      let name ← Rule.spaced Rule.variableName
      Rule.word "in"
      let range ← Rule.spaced (Rule.expression room)
      Pure.pure (name, range)) := by
    refine .cut (Plain.bind Moves.variableName.spaced fun name => ?_)
    refine Plain.bind (.word _) fun _ => ?_
    exact Plain.bind (Moves.expression room).spaced fun range => .pure _
  exact Moves.bind hhead fun head => Moves.bind h.block.cut fun items => .pure _

theorem Moves.waitAgent (h : MovesItems before contents) :
    Moves before (.moved (.behind before)) (Rule.waitAgent contents) (Rule.waitAgent contents) := by
  refine Moves.bind (.keyword _) fun _ => ?_
  refine Moves.bind Moves.duration.spaced.cut fun delay => ?_
  exact Moves.bind h.block.cut fun items => .pure _

theorem Moves.timerAgent (h : MovesItems before contents) :
    Moves before (.moved (.behind before)) (Rule.timerAgent contents)
      (Rule.timerAgent contents) := by
  refine Moves.bind .timerHead fun head => ?_
  exact Moves.bind (.statementBlock h) fun body => .pure _

theorem Moves.agentOver (ha : MovesItems before agents) (hm : MovesItems before mixed)
    (hs : MovesItems before statements) :
    Moves before (.moved (.behind before)) (Rule.agentOver room agents mixed statements)
      (Rule.agentOver room agents mixed statements) :=
  .orElse (.described fun _ _ => rfl) <| .orElse (.buttonAgent hs) <|
  .orElse (.described fun _ _ => rfl) <| .orElse (.described fun _ _ => rfl) <|
  .orElse (.choiceAgent ha) <| .orElse (.forAgent ha) <|
  .orElse (.waitAgent hm) (.timerAgent hs)

end Blocks

/-! ### Blocks in blocks -/

/-- The induction is on the room, as the rules take it from each other. -/
theorem Moves.command (room : Nat) :
    Moves before (.moved (.behind before)) (Rule.command room) (Rule.command room) := by
  induction room with
  | zero => exact .commandOver .noRoom
  | succ room ih => exact .commandOver (.nodes (.asNode ih))

theorem Moves.agent (room : Nat) :
    Moves before (.moved (.behind before)) (Rule.agent room) (Rule.agent room) := by
  induction room with
  | zero => exact .agentOver .noRoom .noRoom .noRoom
  | succ room ih =>
    have hstatement : Moves before (.moved (.behind before)) (Rule.asNode (Rule.command room))
        (Rule.asNode (Rule.command room)) := .asNode (.command room)
    exact .agentOver (.nodes ih) (.nodes (.orElse ih hstatement)) (.nodes hstatement)

theorem Moves.autoAdvance :
    Moves before (.moved (.behind before)) Rule.autoAdvance Rule.autoAdvance :=
  .keyed .duration fun _ => rfl

theorem Moves.page (room : Nat) :
    Moves before (.moved (.behind before)) (Rule.page room) (Rule.page room) := by
  refine Moves.bind (.keyword _) fun _ => ?_
  refine Moves.bind Moves.integer.spaced.cut fun id => ?_
  refine Moves.bind (Moves.cut (.block (.nested fun less _ => ?_))) fun items => .pure _
  exact .nodes (.orElse .autoAdvance (.orElse (.agent less) (.asNode (.command less))))

theorem Moves.story : Moves before (.moved (.behind before)) Rule.story Rule.story := by
  refine Moves.bind (.word _) fun _ => ?_
  refine Moves.bind Moves.stringLiteral.spaced.cut fun title => ?_
  refine Moves.bind (Moves.cut (.block (.nested fun less _ => ?_))) fun items => .pure _
  exact .nodes (.orElse (.page less) (.asNode (.command less)))

/-- The grammar reads behind a text what it reads elsewhere. -/
theorem Moves.script : Moves before (.moved (.behind before)) Rule.script Rule.script := by
  refine Moves.bind .story fun tree => ?_
  exact Moves.bind (Moves.inContext (Moves.spaced .endOfText)) fun _ => .pure _

end Rule

/-! ## Assembly of moved trees -/

section Assembling

variable (move : Position → Position) {α β ι : Type}

/-- A value, or the first fault with its position moved. -/
def Checked.moved (m : Checked α) : Checked α := m.mapError (.moved move id)

/-- A step of assembly with the position of its fault moved. -/
def Assembly.moved (m : Assembly ι α) : Assembly ι α := fun ids => Checked.moved move (m ids)

namespace Checked

theorem moved_bind (m : Checked α) (f : α → Checked β) :
    moved move (m >>= f) = moved move m >>= fun value => moved move (f value) := by
  cases m with
  | ok value => rfl
  | error f => rfl

end Checked

namespace Assembly

theorem moved_pure (value : α) : moved move (pure value : Assembly ι α) = pure value := rfl

theorem moved_bind (m : Assembly ι α) (f : α → Assembly ι β) :
    moved move (m >>= f) = moved move m >>= fun value => moved move (f value) :=
  funext fun ids => Checked.moved_bind move (m ids) fun r => f r.1 r.2

theorem moved_checked (m : Checked α) :
    moved move (monadLift m : Assembly ι α) = monadLift (Checked.moved move m) := by
  cases m with
  | ok value => rfl
  | error f => rfl

theorem moved_agentId [IdSource ι] (kind : String) (name : Option String) :
    moved move (agentId kind name : Assembly ι String) = agentId kind name := by
  cases name with
  | none => rfl
  | some name => rfl

end Assembly

/-! ### Options and attributes -/

/-- The keys of options are not moved, and so the same one is repeated. -/
theorem collect_moved {key : β → String} {add : α → Located β → Checked α}
    (hadd : ∀ done item, add done (item.moved move id) = Checked.moved move (add done item))
    (seen : List String) (done : α) (items : List (Located β)) :
    collect key add seen done (items.map (.moved move id)) =
      Checked.moved move (collect key add seen done items) := by
  induction items generalizing seen done with
  | nil => rfl
  | cons item rest ih =>
    rw [List.map_cons, collect, collect]
    by_cases hseen : seen.contains (key item.value) = true
    · rw [if_pos hseen]
      exact if_pos hseen
    · rw [if_neg hseen, Checked.moved_bind, ← hadd]
      refine (if_neg hseen).trans ?_
      exact bind_congr fun done => ih _ done

theorem animationSpec_moved (kind : String) (modifiers : List (Located Modifier)) :
    animationSpec kind (modifiers.map (.moved move id)) =
      Checked.moved move (animationSpec kind modifiers) := by
  refine collect_moved move ?_ ..
  rintro spec ⟨position, m⟩
  cases m <;> rfl

theorem tweenOptions_moved (modifiers : List (Located Modifier)) :
    tweenOptions (modifiers.map (.moved move id)) =
      Checked.moved move (tweenOptions modifiers) := by
  refine collect_moved move ?_ ..
  rintro options ⟨position, m⟩
  cases m <;> rfl

theorem musicOptions_moved (modifiers : List (Located Modifier)) :
    musicOptions (modifiers.map (.moved move id)) =
      Checked.moved move (musicOptions modifiers) := by
  refine collect_moved move ?_ ..
  rintro options ⟨position, m⟩
  cases m <;> rfl

theorem propertyTable_moved (done : Table Expression) (properties : List (Located Property)) :
    propertyTable done (properties.map (.moved move id)) =
      Checked.moved move (propertyTable done properties) := by
  induction properties generalizing done with
  | nil => rfl
  | cons p rest ih =>
    rw [List.map_cons, propertyTable, propertyTable]
    by_cases hdone : done.contains p.value.name = true
    · rw [if_pos hdone]
      exact if_pos hdone
    · rw [if_neg hdone]
      exact (if_neg hdone).trans (ih _)

theorem Attribute.key_moved (a : Attribute) : (a.moved move).key = a.key := by
  cases a <;> rfl

theorem Look.add_moved (look : Look) (a : Attribute) :
    look.add (a.moved move) = Checked.moved move (look.add a) := by
  cases a with
  | animate kind modifiers =>
    rw [Look.add, Checked.moved_bind, ← animationSpec_moved]
    rfl
  | _ => rfl

theorem Look.collect_moved (kind : String) (allowed seen : List String) (look : Look)
    (attributes : List (Located Attribute)) :
    Look.collect kind allowed seen look (attributes.map (.moved move (.moved move))) =
      Checked.moved move (Look.collect kind allowed seen look attributes) := by
  induction attributes generalizing seen look with
  | nil => rfl
  | cons a rest ih =>
    have hkey : (a.moved move (Attribute.moved move)).value.key = a.value.key :=
      a.value.key_moved move
    rw [List.map_cons, Look.collect, Look.collect, hkey]
    by_cases hallowed : (!allowed.contains a.value.key) = true
    · rw [if_pos hallowed, if_pos hallowed]
      rfl
    · rw [if_neg hallowed, if_neg hallowed]
      by_cases hseen : seen.contains a.value.key = true
      · rw [if_pos hseen, if_pos hseen]
        rfl
      · rw [if_neg hseen, if_neg hseen, Checked.moved_bind, ← Look.add_moved]
        exact bind_congr fun look => ih _ look

/-! ### Nodes -/

theorem Node.kind_moved (node : Node) : (node.moved move).kind = node.kind := by
  cases node <;> rfl

theorem Node.isAgent_moved (node : Node) : (node.moved move).isAgent = node.isAgent := by
  cases node <;> rfl

namespace Assembly

variable [IdSource ι]

mutual

theorem assembleAgent_moved (position : Position) : (node : Node) →
    (assembleAgent (move position) (node.moved move) : Assembly ι Agent) =
      moved move (assembleAgent position node)
  | .text content attributes => by
    simp only [Node.moved, assembleAgent, Look.collect_moved, moved_bind, moved_checked,
      moved_agentId, moved_pure]
  | .button label attributes handlers => by
    simp only [Node.moved, assembleAgent, Look.collect_moved, moved_bind, moved_checked,
      moved_agentId, moved_pure, assembleHandlers_moved handlers]
  | .image src attributes => by
    simp only [Node.moved, assembleAgent, Look.collect_moved, moved_bind, moved_checked,
      moved_agentId, moved_pure]
  | .video src attributes => by
    simp only [Node.moved, assembleAgent, Look.collect_moved, moved_bind, moved_checked,
      moved_agentId, moved_pure]
  | .choice condition items elseItems => by
    simp only [Node.moved, assembleAgent, moved_bind, moved_pure, assembleAgents_moved items,
      assembleAgents_moved elseItems]
  | .forEach name range items => by
    simp only [Node.moved, assembleAgent, moved_bind, moved_pure, assembleAgents_moved items]
  | .wait delay items => by
    simp only [Node.moved, assembleAgent, moved_bind, moved_pure, assembleBlock_moved false items]
  | .timer interval times items => by
    simp only [Node.moved, assembleAgent, moved_bind, moved_pure, assembleStatements_moved items]
  | .page .. | .autoAdvance _ | .statement _ => by rw [Node.moved, assembleAgent, assembleAgent]; rfl

theorem assembleStatement_moved : (command : Command) →
    (assembleStatement (command.moved move) : Assembly ι Statement) =
      moved move (assembleStatement command)
  | .init .. | .set .. | .add .. | .subtract .. | .goToPage _ | .goBack | .stopAnimation _
  | .playSound .. | .stopSound _ | .stopMusic => by
    rw [Command.moved, assembleStatement, moved_pure]
  | .move target x y modifiers => by
    simp only [Command.moved, assembleStatement, moved_bind, moved_pure, moved_checked,
      tweenOptions_moved]
  | .tween target properties modifiers => by
    simp only [Command.moved, assembleStatement, moved_bind, moved_pure, moved_checked,
      propertyTable_moved, tweenOptions_moved]
  | .animate target kind modifiers => by
    simp only [Command.moved, assembleStatement, moved_bind, moved_pure, moved_checked,
      animationSpec_moved]
  | .music src modifiers => by
    simp only [Command.moved, assembleStatement, moved_bind, moved_pure, moved_checked,
      musicOptions_moved]
  | .wait delay body => by
    simp only [Command.moved, assembleStatement, moved_bind, moved_pure,
      assembleStatements_moved body]
  | .timer interval times body => by
    simp only [Command.moved, assembleStatement, moved_bind, moved_pure,
      assembleStatements_moved body]

theorem assembleAgents_moved : (items : List (Located Node)) →
    (assembleAgents (movedItems move items) : Assembly ι (List Agent)) =
      moved move (assembleAgents items)
  | [] => rfl
  | ⟨position, node⟩ :: rest => by
    rw [movedItems, assembleAgents, assembleAgents, Node.isAgent_moved, Node.kind_moved,
      assembleAgents_moved rest, assembleAgent_moved position node]
    cases node.isAgent with
    | true => simp only [if_true, moved_bind, moved_pure]
    | false => rfl

theorem assembleStatements_moved : (items : List (Located Node)) →
    (assembleStatements (movedItems move items) : Assembly ι (List Statement)) =
      moved move (assembleStatements items)
  | [] => rfl
  | ⟨position, node⟩ :: rest => by
    cases node with
    | statement command =>
      simp only [movedItems, Node.moved, assembleStatements, moved_bind, moved_pure,
        assembleStatement_moved command, assembleStatements_moved rest]
    | _ => rfl

theorem assembleBlock_moved (inPage : Bool) : (items : List (Located Node)) → (done : Block) →
    (assembleBlock inPage done (movedItems move items) : Assembly ι Block) =
      moved move (assembleBlock inPage done items)
  | [], done => rfl
  | ⟨position, node⟩ :: rest, done => by
    have hrest := assembleBlock_moved inPage rest
    have hagent := assembleAgent_moved position node
    cases node with
    | autoAdvance delay =>
      simp only [movedItems, Node.moved, assembleBlock]
      split
      · rfl
      split
      · rfl
      · exact hrest _
    | statement command =>
      simp only [movedItems, Node.moved, assembleBlock, moved_bind, moved_pure,
        assembleStatement_moved command, hrest]
    | page => rfl
    | _ =>
      simp only [movedItems, Node.moved, assembleBlock, moved_bind, moved_pure, hrest] at hagent ⊢
      rw [hagent]

theorem assembleHandlers_moved : (handlers : List (HandlerNode Node)) →
    (assembleHandlers (movedHandlers move handlers) : Assembly ι (List Handler)) =
      moved move (assembleHandlers handlers)
  | [] => rfl
  | ⟨gesture, body⟩ :: rest => by
    simp only [movedHandlers, assembleHandlers, moved_bind, moved_pure,
      assembleStatements_moved body, assembleHandlers_moved rest]

end

theorem assembleStory_moved (items : List (Located Node)) :
    (assembleStory (movedItems move items) : Assembly ι (List Page × List Statement)) =
      moved move (assembleStory items) := by
  induction items with
  | nil => rfl
  | cons item rest ih =>
    obtain ⟨position, node⟩ := item
    cases node with
    | page id items =>
      simp only [movedItems, Node.moved, assembleStory, moved_bind, moved_pure,
        assembleBlock_moved, ih]
    | statement command =>
      simp only [movedItems, Node.moved, assembleStory, moved_bind, moved_pure,
        assembleStatement_moved, ih]
    | _ => rfl

end Assembly

/-- Of a tree with moved positions assembly makes the same story, or the same fault with its
position moved. -/
theorem Tree.assemble_moved [IdSource ι] (tree : Tree) :
    ((tree.moved move).assemble : Assembly ι Story) = Assembly.moved move tree.assemble := by
  rw [assemble, assemble, Assembly.moved_bind, ← Assembly.assembleStory_moved]
  rfl

end Assembling

end Storybook.Script
