/-
# `Storybook.Proofs.Script.Spelling` — the tokens of a script

How a tree is written.  `Tree.Spelled form tree ws` says that the tokens `ws` spell `tree`: every
construct is spelled by its first word and its parts in order, whatever positions the tree gives
them, and `form` says which tokens spell an expression.

| | written |
| :-- | :-- |
| block | `do`, its items, `end` |
| attributes, options | one after another, in the order of the tree |
| properties | `name : value`, with commas between them |
| handlers of a button | in a block, which may be missing if there are none |
| `else` | may be missing if there is nothing after it |

The kind of a block tells what may stand in it, and a *room* how deep further blocks may nest.  The
form of an expression may hang on the room around it: its parentheses and the operators in front of
its operands nest in the same room as blocks (`Form`).
-/
import Storybook.Proofs.Script.Alone
import Storybook.Proofs.Script.Token
import Storybook.Proofs.Script.WrittenTree

namespace Storybook.Script

/-! ## Expressions -/

/-- Whether a token is read back alone as an expression in a room, and no comment is open at its
end. -/
structure Form (room : Nat) (e : Expression) (t : Token) : Prop where
  reads : Rule.ReadsAlone room t.written e
  closed : Closed t.written

def Surface.token (s : Spacing) (e : Surface) : Token := .bare (e.text s) (e.opens_text s)

/-- The texts of surface trees are such forms. -/
theorem Surface.form (s : Spacing) {e : Surface} {room : Nat} (h : e.depth ≤ room) :
    Form room e.value (e.token s) where
  reads := by
    obtain ⟨place, hread⟩ := Surface.reads_text s e h ⟨⟨1, 1⟩, 0⟩
    refine ⟨.withRest place [], ?_, rfl⟩
    show Rule.expression room (.ofText (String.ofList (e.text s))) = _
    rw [Cursor.ofText_ofList]
    exact hread
  closed := (e.closing_text s).closed

/-! ## Options, attributes and properties -/

/-- Items that are spelled one after another. -/
inductive AllSpelled (S : α → List Token → Prop) : List (Located α) → List Token → Prop
  | nil : AllSpelled S [] []
  | cons {x : Located α} {xs : List (Located α)} {ws rest : List Token} :
    S x.value ws → AllSpelled S xs rest → AllSpelled S (x :: xs) (ws ++ rest)

inductive Modifier.Spelled : Modifier → List Token → Prop
  | duration (value : Duration) : Spelled (.duration value) [.word "duration", .duration value]
  | cycles (value : Int64) : Spelled (.cycles value) [.word "repeat", .integer value]
  | easing {name : String} (h : Text.isName name.toList = true) :
    Spelled (.easing name) [.word "easing", .name name h]
  | looping (value : Bool) : Spelled (.looping value) [.word "loop", .boolean value]
  | volume (value : SignedNumeral) :
    Spelled (.volume value.value) [.word "volume", .number value]

def ModifiersSpelled (kind : Modifier → Prop) : List (Located Modifier) → List Token → Prop :=
  AllSpelled fun m ws => kind m ∧ m.Spelled ws

/-- Two numbers in brackets. -/
def pointTokens (x y : SignedNumeral) : List Token :=
  [.mark "[", .number x, .mark ",", .number y, .mark "]"]

inductive Attribute.Spelled : Attribute → List Token → Prop
  | id {name : String} (h : Text.isName name.toList = true) : Spelled (.id name) [.target name]
  | place (x y : SignedNumeral) :
    Spelled (.place ⟨x.value, y.value⟩) (.word "at" :: pointTokens x y)
  | size (x y : SignedNumeral) :
    Spelled (.size ⟨x.value, y.value⟩) (.word "size" :: pointTokens x y)
  | color (value : String) : Spelled (.color value) [.word "color", .string value]
  | fontSize (value : SignedNumeral) :
    Spelled (.fontSize value.value) [.word "font_size", .number value]
  | autoplay (value : Bool) : Spelled (.autoplay value) [.word "autoplay", .boolean value]
  | looping (value : Bool) : Spelled (.looping value) [.word "loop", .boolean value]
  | animate {kind : String} {modifiers : List (Located Modifier)} {ws : List Token}
      (h : Text.isName kind.toList = true) :
    ModifiersSpelled Modifier.IsOfAnimation modifiers ws →
      Spelled (.animate kind modifiers) (.word "animate" :: .name kind h :: ws)

/-- The tokens of the properties of a `tween`, of which there is one at least. -/
inductive PropertiesSpelled (form : Expression → Token → Prop) :
    List (Located Property) → List Token → Prop
  | one {position : Position} {name : String} {value : Expression} {t : Token}
      (h : Text.isName name.toList = true) :
    form value t →
      PropertiesSpelled form [⟨position, name, value⟩] [.name name h, .mark ":", t]
  | cons {position : Position} {name : String} {value : Expression} {t : Token}
      {properties : List (Located Property)} {ws : List Token}
      (h : Text.isName name.toList = true) :
    form value t → PropertiesSpelled form properties ws →
      PropertiesSpelled form (⟨position, name, value⟩ :: properties)
        (.name name h :: .mark ":" :: t :: .mark "," :: ws)

/-! ## Statements, agents and pages -/

/-- A block. -/
def enclosed (ws : List Token) : List Token := .word "do" :: (ws ++ [.word "end"])

/-- How many times a timer runs, if that is limited. -/
def timesTokens : Option UInt32 → List Token
  | none => []
  | some n => [.word "repeat", .count n]

theorem isRun_name (gesture : Gesture) : isRun gesture.name = true := by
  cases gesture <;> decide +kernel

mutual

/-- The tokens of a node in a block of a kind and in a room. -/
inductive Node.Spelled (form : Nat → Expression → Token → Prop) :
    BlockKind → Nat → Node → List Token → Prop
  | page {room : Nat} (id : Int64) {items : List (Located Node)} {ws : List Token} :
    ItemsSpelled form .page room items ws →
      Node.Spelled form .story (room + 1) (.page id items)
        (.word "page" :: .integer id :: enclosed ws)
  | autoAdvance {room : Nat} (delay : Duration) :
    Node.Spelled form .page room (.autoAdvance delay) [.word "auto_advance", .duration delay]
  | text {k : BlockKind} {room : Nat} (content : String) {attributes : List (Located Attribute)}
      {as : List Token} :
    k.hasAgents = true → AllSpelled Attribute.Spelled attributes as →
      Node.Spelled form k room (.text content attributes) (.word "text" :: .string content :: as)
  | button {k : BlockKind} {room : Nat} (label : String) {attributes : List (Located Attribute)}
      {handlers : List (HandlerNode Node)} {as ws : List Token} :
    k.hasAgents = true → AllSpelled Attribute.Spelled attributes as →
      HandlersSpelled form room handlers ws →
      Node.Spelled form k room (.button label attributes handlers)
        (.word "button" :: .string label :: (as ++ enclosed ws))
  | plainButton {k : BlockKind} {room : Nat} (label : String)
      {attributes : List (Located Attribute)} {as : List Token} :
    k.hasAgents = true → AllSpelled Attribute.Spelled attributes as →
      Node.Spelled form k room (.button label attributes [])
        (.word "button" :: .string label :: as)
  | image {k : BlockKind} {room : Nat} (src : String) {attributes : List (Located Attribute)}
      {as : List Token} :
    k.hasAgents = true → AllSpelled Attribute.Spelled attributes as →
      Node.Spelled form k room (.image src attributes) (.word "image" :: .string src :: as)
  | video {k : BlockKind} {room : Nat} (src : String) {attributes : List (Located Attribute)}
      {as : List Token} :
    k.hasAgents = true → AllSpelled Attribute.Spelled attributes as →
      Node.Spelled form k room (.video src attributes) (.word "video" :: .string src :: as)
  | choice {k : BlockKind} {room : Nat} {condition : Expression} {t : Token}
      {items : List (Located Node)} {ws : List Token} :
    k.hasAgents = true → form (room + 1) condition t → ItemsSpelled form .agents room items ws →
      Node.Spelled form k (room + 1) (.choice condition items [])
        (.word "if" :: t :: enclosed ws)
  | choiceElse {k : BlockKind} {room : Nat} {condition : Expression} {t : Token}
      {items elseItems : List (Located Node)} {ws es : List Token} :
    k.hasAgents = true → form (room + 1) condition t → ItemsSpelled form .agents room items ws →
      ItemsSpelled form .agents room elseItems es →
      Node.Spelled form k (room + 1) (.choice condition items elseItems)
        (.word "if" :: t :: enclosed (ws ++ .word "else" :: es))
  | forEach {k : BlockKind} {room : Nat} (x : Variable) {range : Expression} {t : Token}
      {items : List (Located Node)} {ws : List Token} :
    k.hasAgents = true → form (room + 1) range t → ItemsSpelled form .agents room items ws →
      Node.Spelled form k (room + 1) (.forEach x.name range items)
        (.word "for" :: .var x :: .word "in" :: t :: enclosed ws)
  | wait {k : BlockKind} {room : Nat} (delay : Duration) {items : List (Located Node)}
      {ws : List Token} :
    k.hasAgents = true → ItemsSpelled form .mixed room items ws →
      Node.Spelled form k (room + 1) (.wait delay items)
        (.word "wait" :: .duration delay :: enclosed ws)
  | timer {k : BlockKind} {room : Nat} (interval : Duration) (times : Option UInt32)
      {items : List (Located Node)} {ws : List Token} :
    k.hasAgents = true → ItemsSpelled form .statements room items ws →
      Node.Spelled form k (room + 1) (.timer interval times items)
        (.word "timer" :: .word "every" :: .duration interval ::
          (timesTokens times ++ enclosed ws))
  | statement {k : BlockKind} {room : Nat} {command : Command} {ws : List Token} :
    k.hasStatements = true → (k.hasAgents = true → command.isScheduled = false) →
      Command.Spelled form room command ws → Node.Spelled form k room (.statement command) ws

inductive Command.Spelled (form : Nat → Expression → Token → Prop) :
    Nat → Command → List Token → Prop
  | init {room : Nat} (x : Variable) {value : Expression} {t : Token} :
    form room value t →
      Command.Spelled form room (.init x.name value) [.word "init", .var x, .word "to", t]
  | set {room : Nat} (x : Variable) {value : Expression} {t : Token} :
    form room value t →
      Command.Spelled form room (.set x.name value) [.word "set", .var x, .word "to", t]
  | add {room : Nat} (x : Variable) {amount : Expression} {t : Token} :
    form room amount t →
      Command.Spelled form room (.add x.name amount) [.word "add", t, .word "to", .var x]
  | subtract {room : Nat} (x : Variable) {amount : Expression} {t : Token} :
    form room amount t →
      Command.Spelled form room (.subtract x.name amount)
        [.word "subtract", t, .word "from", .var x]
  | goToPage {room : Nat} (page : Int64) :
    Command.Spelled form room (.goToPage page)
      [.word "go", .word "to", .word "page", .integer page]
  | goBack {room : Nat} : Command.Spelled form room .goBack [.word "go", .word "back"]
  | move {room : Nat} {target : String} {x y : Expression} {t u : Token}
      {modifiers : List (Located Modifier)} {ws : List Token} :
    Text.isName target.toList = true → form room x t → form room y u →
      ModifiersSpelled Modifier.IsOfTween modifiers ws →
      Command.Spelled form room (.move target x y modifiers)
        (.word "move" :: .target target :: .word "to" :: .mark "[" :: t :: .mark "," :: u ::
          .mark "]" :: ws)
  | tween {room : Nat} {target : String} {properties : List (Located Property)}
      {modifiers : List (Located Modifier)} {ps ws : List Token} :
    Text.isName target.toList = true → PropertiesSpelled (form room) properties ps →
      ModifiersSpelled Modifier.IsOfTween modifiers ws →
      Command.Spelled form room (.tween target properties modifiers)
        (.word "tween" :: .target target :: .word "to" :: .mark "\x7b" ::
          (ps ++ .mark "\x7d" :: ws))
  | animate {room : Nat} {target kind : String} {modifiers : List (Located Modifier)}
      {ws : List Token} (h : Text.isName kind.toList = true) :
    Text.isName target.toList = true → ModifiersSpelled Modifier.IsOfAnimation modifiers ws →
      Command.Spelled form room (.animate target kind modifiers)
        (.word "animate" :: .target target :: .name kind h :: ws)
  | stopAnimation {room : Nat} {target : String} :
    Text.isName target.toList = true →
      Command.Spelled form room (.stopAnimation target)
        [.word "stop", .word "animation", .target target]
  | playSound {room : Nat} (src : String) :
    Command.Spelled form room (.playSound src none) [.word "play", .word "sound", .string src]
  | playSoundAt {room : Nat} (src : String) (volume : SignedNumeral) :
    Command.Spelled form room (.playSound src (some volume.value))
      [.word "play", .word "sound", .string src, .word "volume", .number volume]
  | stopSounds {room : Nat} :
    Command.Spelled form room (.stopSound none) [.word "stop", .word "sound"]
  | stopSound {room : Nat} (src : String) :
    Command.Spelled form room (.stopSound (some src)) [.word "stop", .word "sound", .string src]
  | stopMusic {room : Nat} : Command.Spelled form room .stopMusic [.word "stop", .word "music"]
  | music {room : Nat} (src : String) {modifiers : List (Located Modifier)} {ws : List Token} :
    ModifiersSpelled (Modifier.IsOfMusic fun _ => True) modifiers ws →
      Command.Spelled form room (.music src modifiers) (.word "music" :: .string src :: ws)
  | wait {room : Nat} (delay : Duration) {body : List (Located Node)} {ws : List Token} :
    ItemsSpelled form .statements room body ws →
      Command.Spelled form (room + 1) (.wait delay body)
        (.word "wait" :: .duration delay :: enclosed ws)
  | timer {room : Nat} (interval : Duration) (times : Option UInt32)
      {body : List (Located Node)} {ws : List Token} :
    ItemsSpelled form .statements room body ws →
      Command.Spelled form (room + 1) (.timer interval times body)
        (.word "timer" :: .word "every" :: .duration interval ::
          (timesTokens times ++ enclosed ws))

inductive ItemsSpelled (form : Nat → Expression → Token → Prop) :
    BlockKind → Nat → List (Located Node) → List Token → Prop
  | nil {k : BlockKind} {room : Nat} : ItemsSpelled form k room [] []
  | cons {k : BlockKind} {room : Nat} {position : Position} {node : Node}
      {items : List (Located Node)} {ws rest : List Token} :
    Node.Spelled form k room node ws → ItemsSpelled form k room items rest →
      ItemsSpelled form k room (⟨position, node⟩ :: items) (ws ++ rest)

inductive HandlersSpelled (form : Nat → Expression → Token → Prop) :
    Nat → List (HandlerNode Node) → List Token → Prop
  | nil {room : Nat} : HandlersSpelled form room [] []
  | cons {room : Nat} (gesture : Gesture) {body : List (Located Node)}
      {handlers : List (HandlerNode Node)} {ws rest : List Token} :
    ItemsSpelled form .statements room body ws → HandlersSpelled form (room + 1) handlers rest →
      HandlersSpelled form (room + 1) (⟨gesture, body⟩ :: handlers)
        (.word gesture.name (isRun_name gesture) :: enclosed ws ++ rest)

end

/-- The tokens of a script.  The block of the story takes a part of the room. -/
inductive Tree.Spelled (form : Nat → Expression → Token → Prop) : Tree → List Token → Prop
  | story (title : String) {items : List (Located Node)} {ws : List Token} :
    ItemsSpelled form .story (maxNesting - 1) items ws →
      Tree.Spelled form ⟨title, items⟩ (.word "fable" :: .string title :: enclosed ws)

/-! ## Trees without positions -/

/-- The same at no position. -/
def Located.unplaced (f : α → α) (x : Located α) : Located α := ⟨default, f x.value⟩

def Attribute.unplaced : Attribute → Attribute
  | animate kind modifiers => .animate kind (modifiers.map (.unplaced fun m => m))
  | other => other

mutual

def Node.unplaced : Node → Node
  | .page id items => .page id (unplacedItems items)
  | .autoAdvance delay => .autoAdvance delay
  | .text content attributes => .text content (attributes.map (.unplaced Attribute.unplaced))
  | .button label attributes handlers =>
    .button label (attributes.map (.unplaced Attribute.unplaced)) (unplacedHandlers handlers)
  | .image src attributes => .image src (attributes.map (.unplaced Attribute.unplaced))
  | .video src attributes => .video src (attributes.map (.unplaced Attribute.unplaced))
  | .choice condition items elseItems =>
    .choice condition (unplacedItems items) (unplacedItems elseItems)
  | .forEach name range items => .forEach name range (unplacedItems items)
  | .wait delay items => .wait delay (unplacedItems items)
  | .timer interval times items => .timer interval times (unplacedItems items)
  | .statement command => .statement (Command.unplaced command)

def Command.unplaced : Command → Command
  | .move target x y modifiers => .move target x y (modifiers.map (.unplaced id))
  | .tween target properties modifiers =>
    .tween target (properties.map (.unplaced id)) (modifiers.map (.unplaced id))
  | .animate target kind modifiers => .animate target kind (modifiers.map (.unplaced id))
  | .music src modifiers => .music src (modifiers.map (.unplaced id))
  | .wait delay body => .wait delay (unplacedItems body)
  | .timer interval times body => .timer interval times (unplacedItems body)
  | .init name value => .init name value
  | .set name value => .set name value
  | .add name amount => .add name amount
  | .subtract name amount => .subtract name amount
  | .goToPage page => .goToPage page
  | .goBack => .goBack
  | .stopAnimation target => .stopAnimation target
  | .playSound src volume => .playSound src volume
  | .stopSound src => .stopSound src
  | .stopMusic => .stopMusic

def unplacedItems : List (Located Node) → List (Located Node)
  | [] => []
  | ⟨_, node⟩ :: items => ⟨default, Node.unplaced node⟩ :: unplacedItems items

def unplacedHandlers : List (HandlerNode Node) → List (HandlerNode Node)
  | [] => []
  | ⟨gesture, body⟩ :: handlers => ⟨gesture, unplacedItems body⟩ :: unplacedHandlers handlers

end

def Tree.unplaced (tree : Tree) : Tree := ⟨tree.title, unplacedItems tree.items⟩

end Storybook.Script
