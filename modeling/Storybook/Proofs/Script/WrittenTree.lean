/-
# `Storybook.Proofs.Script.WrittenTree` — the trees that scripts can write

The rules of the grammar make fewer trees than there are.  What may stand in a block hangs on
the kind of the block:

| block of | agents | statements | pages | `auto_advance` |
| :-- | :-- | :-- | :-- | :-- |
| a story | | yes | yes | |
| a page | yes | at once | | yes |
| `wait` among agents | yes | at once | | |
| `if`, `else`, `for` | yes | | | |
| all others | | yes | | |

Where agents may stand as well, `wait` and `timer` begin agents, so that the statements there all
run at once: the rule of agents comes first, and after either of these words it refuses nothing
more (`refused_keywords`).

Options stand only where they belong, a `tween` has properties, the expressions are written ones
(`Written`), and the positions are those of the script.
-/
import Storybook.Proofs.Script.Written
import Storybook.Script.Grammar

namespace Storybook.Script

/-! ## Blocks and options -/

inductive BlockKind where
  | story | page | mixed | agents | statements
deriving DecidableEq

/-- Whether agents may stand in a block. -/
def BlockKind.hasAgents : BlockKind → Bool
  | page | mixed | agents => true
  | story | statements => false

/-- Whether statements may stand in a block. -/
def BlockKind.hasStatements : BlockKind → Bool
  | story | page | mixed | statements => true
  | agents => false

/-- Whether a statement runs its actions later. -/
def Command.isScheduled : Command → Bool
  | wait .. | timer .. => true
  | _ => false

def Modifier.IsOfAnimation : Modifier → Prop
  | duration _ | cycles _ => True
  | easing _ | looping _ | volume _ => False

def Modifier.IsOfTween : Modifier → Prop
  | duration _ | easing _ => True
  | cycles _ | looping _ | volume _ => False

/-- Whether an option is one of music, with a number of a kind. -/
def Modifier.IsOfMusic (num : Float → Prop) : Modifier → Prop
  | looping _ => True
  | volume value => num value
  | duration _ | cycles _ | easing _ => False

/-- Whether something and its position meet two conditions. -/
def Located.Meets (pos : Position → Prop) (Q : α → Prop) (x : Located α) : Prop :=
  pos x.position ∧ Q x.value

def Attribute.Written (num : Float → Prop) (pos : Position → Prop) : Attribute → Prop
  | place p | size p => num p.x ∧ num p.y
  | fontSize value => num value
  | animate _ modifiers => ∀ m ∈ modifiers, m.Meets pos Modifier.IsOfAnimation
  | id _ | color _ | autoplay _ | looping _ => True

/-! ## Trees -/

mutual

/-- The nodes that scripts can write into a block.  The block of the story takes up room of the
expressions, so one less is left than the limit. -/
inductive Node.Written (num : Float → Prop) (pos : Position → Prop) : BlockKind → Node → Prop
  | page {id : Int64} {items : List (Located Node)} :
    (∀ i ∈ items, pos i.position) → (∀ i ∈ items, Node.Written num pos .page i.value) →
      Node.Written num pos .story (.page id items)
  | autoAdvance (delay : Duration) : Node.Written num pos .page (.autoAdvance delay)
  | text {k : BlockKind} (content : String) {attributes : List (Located Attribute)} :
    k.hasAgents = true → (∀ a ∈ attributes, a.Meets pos (Attribute.Written num pos)) →
      Node.Written num pos k (.text content attributes)
  | button {k : BlockKind} (label : String) {attributes : List (Located Attribute)}
      {handlers : List (HandlerNode Node)} :
    k.hasAgents = true → (∀ a ∈ attributes, a.Meets pos (Attribute.Written num pos)) →
      (∀ h ∈ handlers, ∀ i ∈ h.body, pos i.position) →
      (∀ h ∈ handlers, ∀ i ∈ h.body, Node.Written num pos .statements i.value) →
      Node.Written num pos k (.button label attributes handlers)
  | image {k : BlockKind} (src : String) {attributes : List (Located Attribute)} :
    k.hasAgents = true → (∀ a ∈ attributes, a.Meets pos (Attribute.Written num pos)) →
      Node.Written num pos k (.image src attributes)
  | video {k : BlockKind} (src : String) {attributes : List (Located Attribute)} :
    k.hasAgents = true → (∀ a ∈ attributes, a.Meets pos (Attribute.Written num pos)) →
      Node.Written num pos k (.video src attributes)
  | choice {k : BlockKind} {condition : Expression} {items elseItems : List (Located Node)} :
    k.hasAgents = true → Script.Written num (maxNesting - 1) condition →
      (∀ i ∈ items, pos i.position) → (∀ i ∈ items, Node.Written num pos .agents i.value) →
      (∀ i ∈ elseItems, pos i.position) →
      (∀ i ∈ elseItems, Node.Written num pos .agents i.value) →
      Node.Written num pos k (.choice condition items elseItems)
  | forEach {k : BlockKind} {name : String} {range : Expression} {items : List (Located Node)} :
    k.hasAgents = true → isVariableName name = true → Script.Written num (maxNesting - 1) range →
      (∀ i ∈ items, pos i.position) → (∀ i ∈ items, Node.Written num pos .agents i.value) →
      Node.Written num pos k (.forEach name range items)
  | wait {k : BlockKind} (delay : Duration) {items : List (Located Node)} :
    k.hasAgents = true → (∀ i ∈ items, pos i.position) →
      (∀ i ∈ items, Node.Written num pos .mixed i.value) →
      Node.Written num pos k (.wait delay items)
  | timer {k : BlockKind} (interval : Duration) (times : Option UInt32)
      {items : List (Located Node)} :
    k.hasAgents = true → (∀ i ∈ items, pos i.position) →
      (∀ i ∈ items, Node.Written num pos .statements i.value) →
      Node.Written num pos k (.timer interval times items)
  | statement {k : BlockKind} {command : Command} :
    k.hasStatements = true → (k.hasAgents = true → command.isScheduled = false) →
      Command.Written num pos command → Node.Written num pos k (.statement command)

inductive Command.Written (num : Float → Prop) (pos : Position → Prop) : Command → Prop
  | init {name : String} {value : Expression} :
    isVariableName name = true → Script.Written num (maxNesting - 1) value →
      Command.Written num pos (.init name value)
  | set {name : String} {value : Expression} :
    isVariableName name = true → Script.Written num (maxNesting - 1) value →
      Command.Written num pos (.set name value)
  | add {name : String} {amount : Expression} :
    isVariableName name = true → Script.Written num (maxNesting - 1) amount →
      Command.Written num pos (.add name amount)
  | subtract {name : String} {amount : Expression} :
    isVariableName name = true → Script.Written num (maxNesting - 1) amount →
      Command.Written num pos (.subtract name amount)
  | goToPage (page : Int64) : Command.Written num pos (.goToPage page)
  | goBack : Command.Written num pos .goBack
  | move (target : String) {x y : Expression} {modifiers : List (Located Modifier)} :
    Script.Written num (maxNesting - 1) x → Script.Written num (maxNesting - 1) y →
      (∀ m ∈ modifiers, m.Meets pos Modifier.IsOfTween) →
      Command.Written num pos (.move target x y modifiers)
  | tween (target : String) {properties : List (Located Property)}
      {modifiers : List (Located Modifier)} :
    properties ≠ [] →
      (∀ p ∈ properties, p.Meets pos fun p => Script.Written num (maxNesting - 1) p.value) →
      (∀ m ∈ modifiers, m.Meets pos Modifier.IsOfTween) →
      Command.Written num pos (.tween target properties modifiers)
  | animate (target kind : String) {modifiers : List (Located Modifier)} :
    (∀ m ∈ modifiers, m.Meets pos Modifier.IsOfAnimation) →
      Command.Written num pos (.animate target kind modifiers)
  | stopAnimation (target : String) : Command.Written num pos (.stopAnimation target)
  | playSound (src : String) {volume : Option Float} :
    (∀ x ∈ volume, num x) → Command.Written num pos (.playSound src volume)
  | stopSound (src : Option String) : Command.Written num pos (.stopSound src)
  | stopMusic : Command.Written num pos .stopMusic
  | music (src : String) {modifiers : List (Located Modifier)} :
    (∀ m ∈ modifiers, m.Meets pos (Modifier.IsOfMusic num)) →
      Command.Written num pos (.music src modifiers)
  | wait (delay : Duration) {body : List (Located Node)} :
    (∀ i ∈ body, pos i.position) → (∀ i ∈ body, Node.Written num pos .statements i.value) →
      Command.Written num pos (.wait delay body)
  | timer (interval : Duration) (times : Option UInt32) {body : List (Located Node)} :
    (∀ i ∈ body, pos i.position) → (∀ i ∈ body, Node.Written num pos .statements i.value) →
      Command.Written num pos (.timer interval times body)

end

/-- The statements that scripts can write and that run at once. -/
def Command.WrittenAtOnce (num : Float → Prop) (pos : Position → Prop) (command : Command) :
    Prop :=
  command.Written num pos ∧ command.isScheduled = false

def Tree.Written (num : Float → Prop) (pos : Position → Prop) (tree : Tree) : Prop :=
  ∀ i ∈ tree.items, i.Meets pos (Node.Written num pos .story)

/-- Whether a position is that of a cursor in a text. -/
def Position.IsOf (source : String) (p : Position) : Prop :=
  ∃ c : Cursor, c.IsOf source ∧ p = c.toPosition

theorem Written.mono {num : Float → Prop} {room more : Nat} {e : Expression}
    (h : Written num room e) (hle : room ≤ more) : Written num more e := by
  induction hle with
  | refl => exact h
  | step _ ih => exact .enclosed ih

namespace Rule

variable {source : String} {α : Type} {p : Rule α} {Q : α → Prop}

/-! ## Items and blocks -/

theorem Yields.located (h : Yields source p Q) :
    Yields source (located p) fun x => x.Meets (Position.IsOf source) Q := by
  refine Yields.skip.bind fun _ _ => ?_
  refine Yields.position.bind fun _ hpos => ?_
  exact h.bind fun _ hv => .pure ⟨hpos, hv⟩

theorem Yields.items (h : Yields source p Q) :
    Yields source (items p) fun l => ∀ x ∈ l, x.Meets (Position.IsOf source) Q :=
  h.located.spaced.many

theorem Yields.word (w : String) : Yields source (word w) fun _ => True := (Yields.keyword w).spaced

theorem Yields.noRoom : Yields source (noRoom : Rule α) Q :=
  Yields.nested (.inr rfl) fun _ hr => nomatch hr

theorem Yields.block {expected : String} (h : Yields source p Q) :
    Yields source (block expected p) Q := by
  refine (Yields.word _).bind fun _ _ => ?_
  refine h.bind fun _ hv => ?_
  exact (Yields.word _).inContext.bind fun _ _ => .pure hv

/-- A keyword that makes something of what must follow it. -/
theorem Yields.keyed {w : String} {make : α → β} {S : β → Prop} (h : Yields source p Q)
    (hmake : ∀ v, Q v → S (make v)) :
    Yields source (do Rule.keyword w; Pure.pure (make (← Rule.cut (Rule.spaced p)))) S := by
  refine (Yields.keyword _).bind fun _ _ => ?_
  exact h.spaced.cut.bind fun v hv => .pure (hmake v hv)

/-! ## Options and attributes -/

theorem Yields.durationModifier :
    Yields source durationModifier fun m => m.IsOfAnimation ∧ m.IsOfTween :=
  Yields.duration.keyed fun _ _ => ⟨trivial, trivial⟩

theorem Yields.animationModifier : Yields source animationModifier Modifier.IsOfAnimation := by
  refine .orElse (Yields.durationModifier.mono fun _ h => h.1) ?_
  exact Yields.integer.keyed fun _ _ => trivial

theorem Yields.tweenModifier : Yields source tweenModifier Modifier.IsOfTween := by
  refine .orElse (Yields.durationModifier.mono fun _ h => h.2) ?_
  exact Yields.identifier.keyed fun _ _ => trivial

variable {num : Float → Prop}

theorem Yields.musicModifier (hnum : Yields source Rule.signedNumber num) :
    Yields source musicModifier (Modifier.IsOfMusic num) := by
  refine .orElse (Yields.boolean.keyed fun _ _ => trivial) ?_
  exact hnum.keyed fun _ hx => hx

theorem Yields.agentAttribute (hnum : Yields source Rule.signedNumber num) :
    Yields source agentAttribute (Attribute.Written num (Position.IsOf source)) := by
  have hid : Yields source (do Rule.text "#"; Pure.pure (Attribute.id (← Rule.cut Rule.identifier)))
      (Attribute.Written num (Position.IsOf source)) :=
    (Yields.text _).bind fun _ _ => Yields.identifier.cut.bind fun _ _ => .pure trivial
  refine .orElse hid ?_
  refine .orElse ((Yields.point hnum).keyed fun _ hp => hp) ?_
  refine .orElse ((Yields.point hnum).keyed fun _ hp => hp) ?_
  refine .orElse (Yields.stringLiteral.keyed fun _ _ => trivial) ?_
  refine .orElse (hnum.keyed fun _ hx => hx) ?_
  refine .orElse (Yields.boolean.keyed fun _ _ => trivial) ?_
  refine .orElse (Yields.boolean.keyed fun _ _ => trivial) ?_
  refine (Yields.keyword _).bind fun _ _ => ?_
  refine Yields.identifier.spaced.bind fun _ _ => ?_
  exact Yields.animationModifier.items.bind fun _ hm => .pure hm

/-! ## Statements -/

section Expressions

variable {room : Nat} (hexpr : Yields source (Rule.expression room) (Written num (maxNesting - 1)))

include hexpr

theorem Yields.assignment :
    Yields source (assignment room) (Command.WrittenAtOnce num (Position.IsOf source)) := by
  refine Yields.bind (Q := fun _ => True) (.orElse ?_ ?_) fun isInit _ => Yields.cut ?_
  · exact (Yields.keyword _).bind fun _ _ => .pure trivial
  · exact (Yields.keyword _).bind fun _ _ => .pure trivial
  refine Yields.variableName.spaced.bind fun _ hname => ?_
  refine (Yields.word _).bind fun _ _ => ?_
  refine hexpr.spaced.bind fun _ he => .pure ?_
  cases isInit with
  | true => exact ⟨.init hname he, rfl⟩
  | false => exact ⟨.set hname he, rfl⟩

theorem Yields.addition :
    Yields source (addition room) (Command.WrittenAtOnce num (Position.IsOf source)) := by
  refine (Yields.keyword _).bind fun _ _ => Yields.cut ?_
  refine hexpr.spaced.bind fun _ he => ?_
  refine (Yields.word _).bind fun _ _ => ?_
  exact Yields.variableName.spaced.bind fun _ hname => .pure ⟨.add hname he, rfl⟩

theorem Yields.subtraction :
    Yields source (subtraction room) (Command.WrittenAtOnce num (Position.IsOf source)) := by
  refine (Yields.keyword _).bind fun _ _ => Yields.cut ?_
  refine hexpr.spaced.bind fun _ he => ?_
  refine (Yields.word _).bind fun _ _ => ?_
  exact Yields.variableName.spaced.bind fun _ hname => .pure ⟨.subtract hname he, rfl⟩

theorem Yields.expressionPair : Yields source (expressionPair room) fun pair =>
    Written num (maxNesting - 1) pair.1 ∧ Written num (maxNesting - 1) pair.2 := by
  refine (Yields.symbol _).bind fun _ _ => Yields.cut ?_
  refine hexpr.spaced.bind fun _ hx => ?_
  refine (Yields.symbol _).bind fun _ _ => ?_
  refine hexpr.spaced.bind fun _ hy => ?_
  exact (Yields.symbol _).bind fun _ _ => .pure ⟨hx, hy⟩

theorem Yields.movement :
    Yields source (movement room) (Command.WrittenAtOnce num (Position.IsOf source)) := by
  refine (Yields.keyword _).bind fun _ _ => Yields.cut ?_
  refine Yields.target.spaced.bind fun target _ => ?_
  refine (Yields.word _).bind fun _ _ => ?_
  refine (Yields.expressionPair hexpr).bind fun _ hpair => ?_
  exact Yields.tweenModifier.items.bind fun _ hm => .pure ⟨.move target hpair.1 hpair.2 hm, rfl⟩

theorem Yields.property : Yields source (property room) fun p =>
    p.Meets (Position.IsOf source) fun p => Written num (maxNesting - 1) p.value := by
  refine Yields.identifier.located.bind fun _ hname => ?_
  refine Yields.bind (Yields.cut ?_) fun _ he => .pure ⟨hname.1, he⟩
  exact (Yields.symbol _).bind fun _ _ => hexpr.spaced

theorem Yields.tweening :
    Yields source (tweening room) (Command.WrittenAtOnce num (Position.IsOf source)) := by
  refine (Yields.keyword _).bind fun _ _ => Yields.cut ?_
  refine Yields.target.spaced.bind fun target _ => ?_
  refine (Yields.word _).bind fun _ _ => ?_
  refine (Yields.symbol _).bind fun _ _ => ?_
  refine (Yields.separated (.symbol _) (Yields.property hexpr).spaced).bind fun _ hp => ?_
  refine (Yields.symbol _).bind fun _ _ => ?_
  exact Yields.tweenModifier.items.bind fun _ hm =>
    .pure ⟨.tween target hp.1 hp.2 hm, rfl⟩

end Expressions

theorem Yields.turn : Yields source turn (Command.WrittenAtOnce num (Position.IsOf source)) := by
  refine (Yields.keyword _).bind fun _ _ => Yields.cut (Yields.inContext (.orElse ?_ ?_))
  · refine (Yields.word _).bind fun _ _ => ?_
    refine (Yields.word _).bind fun _ _ => ?_
    exact Yields.integer.spaced.cut.bind fun id _ => .pure ⟨.goToPage id, rfl⟩
  · exact (Yields.word _).bind fun _ _ => .pure ⟨.goBack, rfl⟩

theorem Yields.animating :
    Yields source animating (Command.WrittenAtOnce num (Position.IsOf source)) := by
  refine (Yields.keyword _).bind fun _ _ => Yields.cut ?_
  refine Yields.target.spaced.bind fun target _ => ?_
  refine Yields.identifier.spaced.bind fun kind _ => ?_
  exact Yields.animationModifier.items.bind fun _ hm => .pure ⟨.animate target kind hm, rfl⟩

theorem Yields.stopping :
    Yields source stopping (Command.WrittenAtOnce num (Position.IsOf source)) := by
  refine (Yields.keyword _).bind fun _ _ =>
    Yields.cut (Yields.inContext (.orElse ?_ (.orElse ?_ ?_)))
  · refine (Yields.word _).bind fun _ _ => ?_
    exact Yields.target.spaced.cut.bind fun target _ => .pure ⟨.stopAnimation target, rfl⟩
  · refine (Yields.word _).bind fun _ _ => ?_
    exact Yields.stringLiteral.spaced.optional.bind fun src _ => .pure ⟨.stopSound src, rfl⟩
  · exact (Yields.word _).bind fun _ _ => .pure ⟨.stopMusic, rfl⟩

theorem Yields.playing (hnum : Yields source Rule.signedNumber num) :
    Yields source playing (Command.WrittenAtOnce num (Position.IsOf source)) := by
  refine (Yields.keyword _).bind fun _ _ => Yields.cut ?_
  refine (Yields.word _).bind fun _ _ => ?_
  refine Yields.stringLiteral.spaced.bind fun src _ => ?_
  refine (Yields.optional ?_).bind fun _ hv => .pure ⟨.playSound src hv, rfl⟩
  exact (Yields.word _).bind fun _ _ => hnum.spaced.cut

theorem Yields.music (hnum : Yields source Rule.signedNumber num) :
    Yields source music (Command.WrittenAtOnce num (Position.IsOf source)) := by
  refine (Yields.keyword _).bind fun _ _ => Yields.cut ?_
  refine Yields.stringLiteral.spaced.bind fun src _ => ?_
  exact (Yields.musicModifier hnum).items.bind fun _ hm => .pure ⟨.music src hm, rfl⟩

theorem Yields.timerHead : Yields source timerHead fun _ => True := by
  refine (Yields.keyword _).bind fun _ _ => Yields.cut ?_
  refine (Yields.word _).bind fun _ _ => ?_
  refine Yields.duration.spaced.bind fun _ _ => ?_
  refine (Yields.optional (Q := fun _ => True) ?_).bind fun _ _ => .pure trivial
  exact (Yields.word _).bind fun _ _ => Yields.count.spaced.cut

/-! ## Blocks of statements -/

def WrittenItems (num : Float → Prop) (source : String) (k : BlockKind)
    (items : List (Located Node)) : Prop :=
  ∀ i ∈ items, i.Meets (Position.IsOf source) (Node.Written num (Position.IsOf source) k)

namespace WrittenItems

variable {k : BlockKind} {items : List (Located Node)}

theorem position (h : WrittenItems num source k items) :
    ∀ i ∈ items, Position.IsOf source i.position :=
  fun i hi => (h i hi).1

theorem value (h : WrittenItems num source k items) :
    ∀ i ∈ items, Node.Written num (Position.IsOf source) k i.value :=
  fun i hi => (h i hi).2

/-- The items of a block that may be missing. -/
theorem getD {items : Option (List (Located Node))}
    (h : ∀ l ∈ items, WrittenItems num source k l) :
    WrittenItems num source k (items.getD []) := by
  cases items with
  | none => exact fun _ hi => nomatch hi
  | some l => exact h l rfl

end WrittenItems

section Blocks

variable {contents : Rule (List (Located Node))}
  (hbody : Yields source contents (WrittenItems num source .statements))

include hbody

theorem Yields.statementBlock :
    Yields source (statementBlock contents) (WrittenItems num source .statements) :=
  hbody.block.cut

theorem Yields.waiting :
    Yields source (waiting contents) (Command.Written num (Position.IsOf source)) := by
  refine (Yields.keyword _).bind fun _ _ => ?_
  refine Yields.duration.spaced.cut.bind fun delay _ => ?_
  exact (Yields.statementBlock hbody).bind fun _ hb => .pure (.wait delay hb.position hb.value)

theorem Yields.ticking :
    Yields source (ticking contents) (Command.Written num (Position.IsOf source)) := by
  refine Yields.timerHead.bind fun (interval, times) _ => ?_
  exact (Yields.statementBlock hbody).bind fun _ hb =>
    .pure (.timer interval times hb.position hb.value)

omit hbody in
/-- At a cursor where the last two alternatives come to what is wanted, a statement does if the
statements that run at once do. -/
theorem from_commandOver {room : Nat} {c : Cursor} {Q : Command → Prop}
    (hnum : Yields source Rule.signedNumber num)
    (hexpr : Yields source (Rule.expression room) (Written num (maxNesting - 1)))
    (hc : c.IsOf source)
    (hQ : ∀ command, command.WrittenAtOnce num (Position.IsOf source) → Q command)
    (hwait : (Rule.waiting contents c).From c Q) (htimer : (Rule.ticking contents c).From c Q) :
    (commandOver room contents c).From c Q := by
  have atOnce {p : Rule Command}
      (h : Yields source p (Command.WrittenAtOnce num (Position.IsOf source))) : (p c).From c Q :=
    h.mono hQ c hc
  exact .orElse (atOnce (.assignment hexpr)) <| .orElse (atOnce (.addition hexpr)) <|
    .orElse (atOnce (.subtraction hexpr)) <| .orElse (atOnce .turn) <|
    .orElse (atOnce (.movement hexpr)) <| .orElse (atOnce (.tweening hexpr)) <|
    .orElse (atOnce .animating) <| .orElse (atOnce .stopping) <| .orElse (atOnce (.playing hnum)) <|
    .orElse (atOnce (.music hnum)) <| .orElse hwait htimer

theorem Yields.commandOver {room : Nat} (hnum : Yields source Rule.signedNumber num)
    (hexpr : Yields source (Rule.expression room) (Written num (maxNesting - 1))) :
    Yields source (commandOver room contents) (Command.Written num (Position.IsOf source)) :=
  fun c hc => from_commandOver hnum hexpr hc (fun _ h => h.1) (Yields.waiting hbody c hc)
    (Yields.ticking hbody c hc)

end Blocks

theorem Yields.asNode {p : Rule Command} {k : BlockKind} (hk : k.hasStatements = true)
    (hagents : k.hasAgents = false)
    (h : Yields source p (Command.Written num (Position.IsOf source))) :
    Yields source (asNode p) (Node.Written num (Position.IsOf source) k) :=
  h.bind fun _ hc => .pure (.statement hk (fun h => nomatch hagents.symm.trans h) hc)

/-- The rule of numbers, and the rule of expressions with any room there may be in a story. -/
structure YieldsNumbers (source : String) (num : Float → Prop) : Prop where
  signed : Yields source signedNumber num
  expression : ∀ room ≤ maxNesting - 1,
    Yields source (expression room) (Written num (maxNesting - 1))

theorem YieldsNumbers.of_number (hneg : ∀ x, num x → num (-x)) (h : Yields source number num) :
    YieldsNumbers source num where
  signed := .signedNumber hneg h
  expression room hroom := (Yields.expression hneg h room).mono fun _ he => he.mono hroom

variable (h : YieldsNumbers source num)

include h

theorem Yields.command (room : Nat) (hroom : room ≤ maxNesting - 1) :
    Yields source (command room) (Command.Written num (Position.IsOf source)) := by
  induction room with
  | zero => exact .commandOver .noRoom h.signed (h.expression 0 hroom)
  | succ room ih =>
    have hbody : Yields source _ (WrittenItems num source .statements) :=
      (Yields.asNode rfl rfl (ih (Nat.le_of_succ_le hroom))).items
    exact .commandOver hbody h.signed (h.expression (room + 1) hroom)

/-- Where the words that begin a statement of its own time are refused, a statement runs at
once. -/
theorem from_command {room : Nat} (hroom : room ≤ maxNesting - 1) {c : Cursor} (hc : c.IsOf source)
    (hwait : Refused (Rule.keyword "wait") c) (htimer : Refused (Rule.keyword "timer") c) :
    (Rule.command room c).From c (Command.WrittenAtOnce num (Position.IsOf source)) := by
  have hall (contents : Rule (List (Located Node))) :
      (commandOver room contents c).From c (Command.WrittenAtOnce num (Position.IsOf source)) :=
    from_commandOver h.signed (h.expression room hroom) hc (fun _ h => h)
      (hwait.from_bind (.keyword "wait") hc) (htimer.bind.from_bind .timerHead hc)
  cases room with
  | zero => exact hall noRoom
  | succ room => exact hall (Rule.items (Rule.asNode (Rule.command room)))

/-! ## Agents -/

theorem Yields.attributes : Yields source (Rule.items Rule.agentAttribute) fun l =>
    ∀ a ∈ l, a.Meets (Position.IsOf source) (Attribute.Written num (Position.IsOf source)) :=
  (Yields.agentAttribute h.signed).items

theorem Yields.textAgent {k : BlockKind} (hk : k.hasAgents = true) :
    Yields source textAgent (Node.Written num (Position.IsOf source) k) := by
  refine (Yields.keyword _).bind fun _ _ => ?_
  refine Yields.stringLiteral.spaced.cut.bind fun content _ => ?_
  exact (Yields.attributes h).bind fun _ ha => .pure (.text content hk ha)

theorem Yields.imageAgent {k : BlockKind} (hk : k.hasAgents = true) :
    Yields source imageAgent (Node.Written num (Position.IsOf source) k) := by
  refine (Yields.keyword _).bind fun _ _ => ?_
  refine Yields.stringLiteral.spaced.cut.bind fun src _ => ?_
  exact (Yields.attributes h).bind fun _ ha => .pure (.image src hk ha)

theorem Yields.videoAgent {k : BlockKind} (hk : k.hasAgents = true) :
    Yields source videoAgent (Node.Written num (Position.IsOf source) k) := by
  refine (Yields.keyword _).bind fun _ _ => ?_
  refine Yields.stringLiteral.spaced.cut.bind fun src _ => ?_
  exact (Yields.attributes h).bind fun _ ha => .pure (.video src hk ha)

omit h in
theorem Yields.gesture : Yields source gesture fun _ => True := by
  have hword (w : String) (g : Gesture) :
      Yields source (do Rule.keyword w; Pure.pure g) fun _ => True :=
    (Yields.keyword w).bind fun _ _ => .pure trivial
  exact .orElse (hword _ _) (.orElse (hword _ _) (.orElse (hword _ _) (hword _ _)))

variable {contents agents mixed statements : Rule (List (Located Node))} {k : BlockKind}

omit h in
theorem Yields.handler (hs : Yields source contents (WrittenItems num source .statements)) :
    Yields source (handler contents) fun handler =>
      WrittenItems num source .statements handler.body := by
  refine Yields.gesture.located.bind fun _ _ => ?_
  exact (Yields.statementBlock hs).bind fun _ hb => .pure hb

theorem Yields.buttonAgent (hk : k.hasAgents = true)
    (hs : Yields source contents (WrittenItems num source .statements)) :
    Yields source (buttonAgent contents) (Node.Written num (Position.IsOf source) k) := by
  refine (Yields.keyword _).bind fun _ _ => ?_
  refine Yields.stringLiteral.spaced.cut.bind fun label _ => ?_
  refine (Yields.attributes h).bind fun attributes ha => ?_
  refine Yields.bind (Yields.optional
    (Q := fun l => ∀ h ∈ l, WrittenItems num source .statements h.body) ?_)
    fun handlers hh => .pure ?_
  · refine (Yields.word _).bind fun _ _ => Yields.cut ?_
    refine (Yields.handler hs).spaced.many.bind fun _ hh => ?_
    exact (Yields.word _).inContext.bind fun _ _ => .pure hh
  have hall : ∀ h ∈ handlers.getD [], WrittenItems num source .statements h.body := by
    cases handlers with
    | none => exact fun _ hm => nomatch hm
    | some handlers => exact hh handlers rfl
  exact .button label hk ha (fun b hb => (hall b hb).position) fun b hb => (hall b hb).value

theorem Yields.choiceAgent {room : Nat} (hroom : room ≤ maxNesting - 1) (hk : k.hasAgents = true)
    (ha : Yields source contents (WrittenItems num source .agents)) :
    Yields source (choiceAgent room contents) (Node.Written num (Position.IsOf source) k) := by
  refine (Yields.keyword _).bind fun _ _ => ?_
  refine (h.expression room hroom).spaced.cut.bind fun _ hcondition => ?_
  refine (Yields.word _).cut.bind fun _ _ => ?_
  refine ha.bind fun _ hitems => ?_
  refine (Yields.optional ((Yields.word _).bind fun _ _ => ha)).bind fun elseItems helse => ?_
  refine (Yields.word _).inContext.cut.bind fun _ _ => .pure ?_
  have hall : WrittenItems num source .agents (elseItems.getD []) := .getD helse
  exact .choice hk hcondition hitems.position hitems.value hall.position hall.value

theorem Yields.forAgent {room : Nat} (hroom : room ≤ maxNesting - 1) (hk : k.hasAgents = true)
    (ha : Yields source contents (WrittenItems num source .agents)) :
    Yields source (forAgent room contents) (Node.Written num (Position.IsOf source) k) := by
  refine (Yields.keyword _).bind fun _ _ => ?_
  refine Yields.bind
    (Q := fun pair => isVariableName pair.1 = true ∧ Written num (maxNesting - 1) pair.2)
    (Yields.cut ?_) fun _ hpair => ?_
  · refine Yields.variableName.spaced.bind fun _ hname => ?_
    refine (Yields.word _).bind fun _ _ => ?_
    exact (h.expression room hroom).spaced.bind fun _ hrange => .pure ⟨hname, hrange⟩
  · exact ha.block.cut.bind fun _ hitems =>
      .pure (.forEach hk hpair.1 hpair.2 hitems.position hitems.value)

omit h in
theorem Yields.waitAgent (hk : k.hasAgents = true)
    (hm : Yields source contents (WrittenItems num source .mixed)) :
    Yields source (waitAgent contents) (Node.Written num (Position.IsOf source) k) := by
  refine (Yields.keyword _).bind fun _ _ => ?_
  refine Yields.duration.spaced.cut.bind fun delay _ => ?_
  exact hm.block.cut.bind fun _ hitems => .pure (.wait delay hk hitems.position hitems.value)

omit h in
theorem Yields.timerAgent (hk : k.hasAgents = true)
    (hs : Yields source contents (WrittenItems num source .statements)) :
    Yields source (timerAgent contents) (Node.Written num (Position.IsOf source) k) := by
  refine Yields.timerHead.bind fun (interval, times) _ => ?_
  exact (Yields.statementBlock hs).bind fun _ hb =>
    .pure (.timer interval times hk hb.position hb.value)

theorem Yields.agentOver {room : Nat} (hroom : room ≤ maxNesting - 1) (hk : k.hasAgents = true)
    (ha : Yields source agents (WrittenItems num source .agents))
    (hm : Yields source mixed (WrittenItems num source .mixed))
    (hs : Yields source statements (WrittenItems num source .statements)) :
    Yields source (agentOver room agents mixed statements)
      (Node.Written num (Position.IsOf source) k) :=
  .orElse (.textAgent h hk) <| .orElse (.buttonAgent h hk hs) <| .orElse (.imageAgent h hk) <|
  .orElse (.videoAgent h hk) <| .orElse (.choiceAgent h hroom hk ha) <|
  .orElse (.forAgent h hroom hk ha) <| .orElse (.waitAgent hk hm) (.timerAgent hk hs)

omit h in
/-- Where agents are refused, so are the words that may also begin a statement: after them, the
rule of agents refuses nothing. -/
theorem refused_keywords {room : Nat} {c : Cursor} (h : Refused (Rule.agent room) c) :
    Refused (Rule.keyword "wait") c ∧ Refused (Rule.keyword "timer") c := by
  have hover (agents mixed statements : Rule (List (Located Node)))
      (h : Refused (agentOver room agents mixed statements) c) :
      Refused (Rule.keyword "wait") c ∧ Refused (Rule.keyword "timer") c := by
    have hlast := h.of_orElse.2.of_orElse.2.of_orElse.2.of_orElse.2.of_orElse.2.of_orElse.2
    obtain ⟨hwait, htimer⟩ := hlast.of_orElse
    constructor
    · exact hwait.of_bind fun _ => .bind (.cut _) fun _ => .bind (.cut _) fun _ => .pure _
    · have hhead : Refused Rule.timerHead c :=
        htimer.of_bind fun _ => .bind (.cut _) fun _ => .pure _
      exact hhead.of_bind fun _ => .cut _
  cases room with
  | zero => exact hover noRoom noRoom noRoom h
  | succ room => exact hover _ _ _ h

/-- A statement where agents come first. -/
theorem Yields.agentOrCommand {room : Nat} {k : BlockKind} (hroom : room ≤ maxNesting - 1)
    (hk : k.hasStatements = true)
    (ha : Yields source (Rule.agent room) (Node.Written num (Position.IsOf source) k)) :
    Yields source (Rule.agent room <|> Rule.asNode (Rule.command room))
      (Node.Written num (Position.IsOf source) k) := by
  intro c hc
  refine Outcome.From.orElse_of_refused (ha c hc) fun hrefused => ?_
  obtain ⟨hwait, htimer⟩ := refused_keywords hrefused
  refine Outcome.From.bind (from_command h hroom hc hwait htimer) fun command rest _ hcommand => ?_
  exact ⟨.refl rest, .statement hk (fun _ => hcommand.2) hcommand.1⟩

theorem Yields.agent (room : Nat) (hroom : room ≤ maxNesting - 1) (hk : k.hasAgents = true) :
    Yields source (agent room) (Node.Written num (Position.IsOf source) k) := by
  induction room generalizing k with
  | zero => exact .agentOver h hroom hk .noRoom .noRoom .noRoom
  | succ room ih =>
    have hle := Nat.le_of_succ_le hroom
    exact .agentOver h hroom hk (ih hle rfl).items
      (Yields.agentOrCommand h hle rfl (ih hle rfl)).items
      ((Yields.command h room hle).asNode rfl rfl).items

/-! ## Pages and stories -/

omit h in
theorem Yields.autoAdvance :
    Yields source autoAdvance (Node.Written num (Position.IsOf source) .page) :=
  Yields.duration.keyed fun delay _ => .autoAdvance delay

theorem Yields.page (room : Nat) (hroom : room ≤ maxNesting - 1) :
    Yields source (page room) (Node.Written num (Position.IsOf source) .story) := by
  refine (Yields.keyword _).bind fun _ _ => ?_
  refine Yields.integer.spaced.cut.bind fun _ _ => ?_
  refine Yields.bind (Q := WrittenItems num source .page)
    (Yields.cut (Yields.block (.nested (.inr rfl) fun r hr => ?_))) fun _ hitems =>
      .pure (.page hitems.position hitems.value)
  have hr : r ≤ maxNesting - 1 := by omega
  exact (Yields.orElse .autoAdvance (.agentOrCommand h hr rfl (.agent h r hr rfl))).items

theorem Yields.story : Yields source story (Tree.Written num (Position.IsOf source)) := by
  refine (Yields.word _).bind fun _ _ => ?_
  refine Yields.stringLiteral.spaced.cut.bind fun _ _ => ?_
  refine Yields.bind (Q := WrittenItems num source .story)
    (Yields.cut (Yields.block (.nested (.inr rfl) fun r hr => ?_))) fun _ hitems => .pure hitems
  have hr : r ≤ maxNesting - 1 := by omega
  refine (Yields.orElse ?_ ?_).items
  · exact .page h r hr
  · exact (Yields.command h r hr).asNode rfl rfl

/-- The grammar makes written trees. -/
theorem Yields.script : Yields source script (Tree.Written num (Position.IsOf source)) := by
  refine (Yields.story h).bind fun _ htree => ?_
  exact (Yields.inContext (Yields.spaced .endOfText)).bind fun _ _ => .pure htree

end Rule

/-- What a script is read as is a written tree, where its numbers are of a kind that is closed
under minus. -/
theorem Tree.written_of_read {num : Float → Prop} {source : String} {tree : Tree}
    (hneg : ∀ x, num x → num (-x)) (hnum : Rule.Yields source Rule.number num)
    (h : Tree.read source = .ok tree) : tree.Written num (Position.IsOf source) := by
  have hscript := Rule.Yields.script (.of_number hneg hnum) (.ofText source) (.ofText source)
  unfold Tree.read at h
  cases hout : Rule.script (.ofText source) with
  | ok read rest =>
    rw [hout] at h hscript
    cases h
    exact hscript.2
  | refuse error => rw [hout] at h; exact nomatch h
  | abort error => rw [hout] at h; exact nomatch h

end Storybook.Script
