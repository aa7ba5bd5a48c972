/-
# `Storybook.Proofs.Script.Retrieval` — a script is read back from its tokens

`Tree.read_spread` says that a tree is read back, up to positions, from any tokens that spell it.

The induction is on the tree: a node, a statement, the items of a block and the handlers of a button
are read together (`takes_node`, `takes_command`, `takes_items`, `takes_handlers`).  An agent and a
statement are found among the alternatives of their block by their first word, which no rule in
front of theirs begins with (`Takes.agentItem`, `Takes.statementItem`).

The expressions of a tree are spelled in forms that are read alone with the room that the blocks
around them leave, and no comment is open at their end (`Form`).  With all the room that there is
outside of blocks, or with an open comment, they need not be read back (`leverTree_not_read`).
-/
import Storybook.Proofs.Script.Clause

namespace Storybook.Script

open Cursor

variable {ts ws : List Token} {room : Nat}

namespace Rule

/-! ## Agents -/

/-- What may stand after the first block of an agent `if`. -/
def elseBlock (contents : Rule (List (Located Node))) : Rule (List (Located Node)) := do
  word "else"
  contents

theorem Takes.elseBlock {contents : Rule (List (Located Node))} {items : List (Located Node)}
    (h : Takes (Before (ws ++ .word "end" :: ts)) contents
      (fun vs => unplacedItems vs = unplacedItems items) (Before (.word "end" :: ts))) :
    Takes (Before (.word "else" :: (ws ++ .word "end" :: ts)))
      (Rule.optional (Rule.elseBlock contents))
      (fun vs => unplacedItems (vs.getD []) = unplacedItems items)
      (Before (.word "end" :: ts)) := by
  have hblock : Takes (Before (.word "else" :: (ws ++ .word "end" :: ts)))
      (Rule.elseBlock contents) (fun vs => unplacedItems vs = unplacedItems items)
      (Before (.word "end" :: ts)) := (Takes.word "else" _).seq h
  refine hblock.optional_some.imp ?_
  rintro _ ⟨vs, rfl, hvs⟩
  exact hvs

theorem Takes.noElse (contents : Rule (List (Located Node))) :
    Takes (Before (.word "end" :: ts)) (Rule.optional (Rule.elseBlock contents))
      (fun vs => unplacedItems (vs.getD []) = unplacedItems []) (Before (.word "end" :: ts)) := by
  have hnone : Stops (Before (.word "end" :: ts)) (Rule.word "else") :=
    .word (by decide +kernel) (leading_word_ne (by decide))
  exact (Takes.optional_none hnone.bind).imp fun vs hvs => hvs ▸ rfl

def handlerBlock (contents : Rule (List (Located Node))) : Rule (List (HandlerNode Node)) := do
  word "do"
  cut do
    let handlers ← many (spaced (handler contents))
    inContext "event or 'end'" (word "end")
    pure handlers

theorem Takes.handlerBlock {contents : Rule (List (Located Node))}
    {handlers : List (HandlerNode Node)}
    (h : Takes (Before (ws ++ .word "end" :: ts)) (many (Rule.spaced (handler contents)))
      (fun vs => unplacedHandlers vs = unplacedHandlers handlers) (Before (.word "end" :: ts))) :
    Takes (Before (enclosed ws ++ ts)) (Rule.optional (Rule.handlerBlock contents))
      (fun vs => unplacedHandlers (vs.getD []) = unplacedHandlers handlers) (Before ts) := by
  have hblock : Takes (Before (enclosed ws ++ ts)) (Rule.handlerBlock contents)
      (fun vs => unplacedHandlers vs = unplacedHandlers handlers) (Before ts) := by
    rw [enclosed_append]
    refine (Takes.word "do" _).seq (Takes.cut (h.bind fun _ hv => ?_))
    exact (Takes.word "end" _).inContext.seq (.pure hv)
  refine hblock.optional_some.imp ?_
  rintro _ ⟨vs, rfl, hvs⟩
  exact hvs

theorem Takes.noHandlers {contents : Rule (List (Located Node))} (hts : Onward ts) :
    Takes (Before ts) (Rule.optional (Rule.handlerBlock contents))
      (fun vs => unplacedHandlers (vs.getD []) = unplacedHandlers []) (Before ts) := by
  have hnone : Stops (Before ts) (Rule.word "do") :=
    .word (by decide +kernel) (hts.leading_ne (by decide))
  exact (Takes.optional_none hnone.bind).imp fun vs hvs => hvs ▸ rfl

section Attributes

variable {attributes : List (Located Attribute)} (h : AllSpelled Attribute.Spelled attributes ws)

include h

theorem Takes.textAgent (content : String) (hts : AttributesEnd ts) :
    Takes (At (.word "text" :: .string content :: (ws ++ ts))) textAgent
      (fun v => v.unplaced = (Node.text content attributes).unplaced) (Before ts) := by
  refine (ReadsToken.keyword "text" _).takes.seq ?_
  refine (ReadsToken.stringLiteral content).spaced.cut.seq ?_
  exact (Takes.attributes hts h).bind fun _ hv => .pure (congrArg (Node.text content) hv)

theorem Takes.imageAgent (src : String) (hts : AttributesEnd ts) :
    Takes (At (.word "image" :: .string src :: (ws ++ ts))) imageAgent
      (fun v => v.unplaced = (Node.image src attributes).unplaced) (Before ts) := by
  refine (ReadsToken.keyword "image" _).takes.seq ?_
  refine (ReadsToken.stringLiteral src).spaced.cut.seq ?_
  exact (Takes.attributes hts h).bind fun _ hv => .pure (congrArg (Node.image src) hv)

theorem Takes.videoAgent (src : String) (hts : AttributesEnd ts) :
    Takes (At (.word "video" :: .string src :: (ws ++ ts))) videoAgent
      (fun v => v.unplaced = (Node.video src attributes).unplaced) (Before ts) := by
  refine (ReadsToken.keyword "video" _).takes.seq ?_
  refine (ReadsToken.stringLiteral src).spaced.cut.seq ?_
  exact (Takes.attributes hts h).bind fun _ hv => .pure (congrArg (Node.video src) hv)

/-- A button whose block may be missing. -/
theorem Takes.buttonAgent {contents : Rule (List (Located Node))} (label : String)
    {handlers : List (HandlerNode Node)} {us : List Token} (hus : AttributesEnd us)
    (hhandlers : Takes (Before us) (Rule.optional (Rule.handlerBlock contents))
      (fun vs => unplacedHandlers (vs.getD []) = unplacedHandlers handlers) (Before ts)) :
    Takes (At (.word "button" :: .string label :: (ws ++ us))) (Rule.buttonAgent contents)
      (fun v => v.unplaced = (Node.button label attributes handlers).unplaced) (Before ts) := by
  refine (ReadsToken.keyword "button" _).takes.seq ?_
  refine (ReadsToken.stringLiteral label).spaced.cut.seq ?_
  refine (Takes.attributes hus h).bind fun as has => ?_
  refine hhandlers.bind fun vs hvs => .pure ?_
  rw [Node.unplaced, Node.unplaced, has, hvs]

end Attributes

section Blocks

variable {contents : Rule (List (Located Node))} {items : List (Located Node)}
  (hcontents : Takes (Before (ws ++ .word "end" :: ts)) contents
    (fun vs => unplacedItems vs = unplacedItems items) (Before (.word "end" :: ts)))

include hcontents

theorem Takes.timerAgent (interval : Duration) (times : Option UInt32) :
    Takes (At (.word "timer" :: .word "every" :: .duration interval ::
        (timesTokens times ++ (enclosed ws ++ ts)))) (Rule.timerAgent contents)
      (fun v => v.unplaced = (Node.timer interval times items).unplaced) (Before ts) := by
  refine (Takes.timerHead interval times).seq ?_
  exact hcontents.block.cut.bind fun _ hv => .pure (congrArg (Node.timer interval times) hv)

theorem Takes.waitAgent (delay : Duration) :
    Takes (At (.word "wait" :: .duration delay :: (enclosed ws ++ ts))) (Rule.waitAgent contents)
      (fun v => v.unplaced = (Node.wait delay items).unplaced) (Before ts) := by
  refine (ReadsToken.keyword "wait" _).takes.seq ((ReadsToken.duration delay).spaced.cut.seq ?_)
  exact hcontents.block.cut.bind fun _ hv => .pure (congrArg (Node.wait delay) hv)

theorem Takes.forAgent (x : Variable) {e : Expression} {t : Token} (he : Form room e t) :
    Takes (At (.word "for" :: .var x :: .word "in" :: t :: (enclosed ws ++ ts)))
      (Rule.forAgent room contents)
      (fun v => v.unplaced = (Node.forEach x.name e items).unplaced) (Before ts) := by
  refine (ReadsToken.keyword "for" _).takes.seq ?_
  have hhead : Takes (Before (.var x :: .word "in" :: t :: (enclosed ws ++ ts))) (Rule.cut do
      let name ← Rule.spaced Rule.variableName
      Rule.word "in"
      let range ← Rule.spaced (Rule.expression room)
      Pure.pure (name, range)) (· = (x.name, e)) (Before (enclosed ws ++ ts)) := by
    refine Takes.cut ((ReadsToken.variableName x).spaced.seq ((Takes.word "in" _).seq ?_))
    exact (he.takes (.word "do" _ _)).seq (.pure rfl)
  exact hhead.seq (hcontents.block.cut.bind fun _ hv => .pure (congrArg (Node.forEach x.name e) hv))

end Blocks

/-- An agent `if`, with the tokens between its condition and its end. -/
theorem Takes.choiceAgent {contents : Rule (List (Located Node))}
    {items elseItems : List (Located Node)} {e : Expression} {t : Token} {us : List Token}
    (he : Form room e t)
    (hitems : Takes (Before (ws ++ us)) contents
      (fun vs => unplacedItems vs = unplacedItems items) (Before us))
    (helse : Takes (Before us) (Rule.optional (Rule.elseBlock contents))
      (fun vs => unplacedItems (vs.getD []) = unplacedItems elseItems)
      (Before (.word "end" :: ts))) :
    Takes (At (.word "if" :: t :: .word "do" :: (ws ++ us))) (Rule.choiceAgent room contents)
      (fun v => v.unplaced = (Node.choice e items elseItems).unplaced) (Before ts) := by
  refine (ReadsToken.keyword "if" _).takes.seq ?_
  refine (he.takes (.word "do" _ _)).cut.seq ((Takes.word "do" _).cut.seq ?_)
  refine hitems.bind fun vs hvs => helse.bind fun vs' hvs' => ?_
  refine (Takes.word "end" _).inContext.cut.seq (.pure ?_)
  rw [Node.unplaced, Node.unplaced, hvs, hvs']

/-! ## The rules of blocks -/

/-- The rule of the items of a block. -/
def itemRule : BlockKind → Nat → Rule Node
  | .story, room => storyItem room
  | .page, room => pageItem room
  | .mixed, room => agent room <|> asNode (command room)
  | .agents, room => agent room
  | .statements, room => asNode (command room)

/-- The rule of the contents of a block around which there is some room. -/
def contentsRule (k : BlockKind) : Nat → Rule (List (Located Node))
  | 0 => noRoom
  | room + 1 => items (itemRule k room)

/-- The words of the agents, in the order in which the rules try them. -/
def agentKeys : List (List String) :=
  [["text"], ["button"], ["image"], ["video"], ["if"], ["for"], ["wait"], ["timer"]]

def agentRules (room : Nat) : List (Rule Node) :=
  [textAgent, buttonAgent (contentsRule .statements room), imageAgent, videoAgent,
    choiceAgent room (contentsRule .agents room), forAgent room (contentsRule .agents room),
    waitAgent (contentsRule .mixed room), timerAgent (contentsRule .statements room)]

/-- The words of the statements, in the order in which the rules try them. -/
def commandKeys : List (List String) :=
  [["init", "set"], ["add"], ["subtract"], ["go"], ["move"], ["tween"], ["animate"], ["stop"],
    ["play"], ["music"], ["wait"], ["timer"]]

def commandRules (room : Nat) : List (Rule Command) :=
  [assignment room, addition room, subtraction room, turn, movement room, tweening room,
    animating, stopping, playing, music, waiting (contentsRule .statements room),
    ticking (contentsRule .statements room)]

theorem agent_eq (room : Nat) : agent room = firstOf (agentRules room) := by
  cases room <;> rfl

theorem command_eq (room : Nat) : command room = firstOf (commandRules room) := by
  cases room <;> rfl

theorem agentRules_decline (room : Nat) :
    List.Forall₂ Declines agentKeys (agentRules room) := by
  have hkey {w : String} (hw : isRun w = true) {f : Unit → Rule Node} :
      Declines [w] (keyword w >>= f) := (Declines.keyword hw).bind
  refine .cons (hkey ?_) (.cons (hkey ?_) (.cons (hkey ?_) (.cons (hkey ?_) (.cons (hkey ?_)
    (.cons (hkey ?_) (.cons (hkey ?_) (.cons (Declines.keyword ?_).bind.bind .nil))))))) <;>
    decide +kernel

theorem commandRules_decline (room : Nat) :
    List.Forall₂ Declines commandKeys (commandRules room) := by
  have hkey {w : String} (hw : isRun w = true) {f : Unit → Rule Command} :
      Declines [w] (keyword w >>= f) := (Declines.keyword hw).bind
  have hassignment : Declines ["init", "set"] (assignment room) :=
    Declines.bind (.orElse (Declines.keyword (by decide +kernel)).bind
      (Declines.keyword (by decide +kernel)).bind)
  refine .cons hassignment (.cons (hkey ?_) (.cons (hkey ?_) (.cons (hkey ?_) (.cons (hkey ?_)
    (.cons (hkey ?_) (.cons (hkey ?_) (.cons (hkey ?_) (.cons (hkey ?_) (.cons (hkey ?_)
    (.cons (hkey ?_) (.cons (Declines.keyword ?_).bind.bind .nil))))))))))) <;>
    decide +kernel

theorem Declines.agent (room : Nat) : Declines agentKeys.flatten (Rule.agent room) :=
  agent_eq room ▸ .firstOf (agentRules_decline room)

theorem Declines.command (room : Nat) :
    Declines commandKeys.flatten (asNode (Rule.command room)) :=
  (command_eq room ▸ Declines.firstOf (commandRules_decline room)).bind

variable {w : String} {hw : isRun w = true} {us : List Token} {T : Cursor → Prop}

/-- An agent in a block that has agents, told by its first word. -/
theorem Takes.agentItem {k : BlockKind} {p : Rule Node} {Q : Node → Prop}
    (hk : k.hasAgents = true) (i : Nat) (hi : (agentRules room)[i]? = some p)
    (hfree : w ∉ "auto_advance" :: (agentKeys.take i).flatten)
    (hread : Takes (At (.word w hw :: us)) p Q T) :
    Takes (At (.word w hw :: us)) (itemRule k room) Q T := by
  obtain ⟨hadvance, hfree⟩ := not_or.mp (mt List.mem_cons.mpr hfree)
  have hagent : Takes (At (.word w hw :: us)) (Rule.agent room) Q T :=
    agent_eq room ▸ .choose (agentRules_decline room) i hi hfree hread
  have hother : Stops (At (.word w hw :: us)) autoAdvance :=
    (Declines.keyword (by decide +kernel)).bind _
      (leading_word_notMem (mt List.mem_singleton.mp hadvance))
  cases k with
  | page => exact .orElse_right hother hagent.orElse_left
  | mixed => exact hagent.orElse_left
  | agents => exact hagent
  | story | statements => exact nomatch hk

/-- A statement, told by its first word. -/
theorem Takes.command {p : Rule Command} {Q : Command → Prop} (i : Nat)
    (hi : (commandRules room)[i]? = some p) (hfree : w ∉ (commandKeys.take i).flatten)
    (hread : Takes (At (.word w hw :: us)) p Q T) :
    Takes (At (.word w hw :: us)) (Rule.command room) Q T :=
  command_eq room ▸ .choose (commandRules_decline room) i hi hfree hread

/-! ### First words -/

end Rule

def Command.keyword : Command → String
  | init .. => "init"
  | set .. => "set"
  | add .. => "add"
  | subtract .. => "subtract"
  | goToPage _ | goBack => "go"
  | move .. => "move"
  | tween .. => "tween"
  | animate .. => "animate"
  | stopAnimation _ | stopSound _ | stopMusic => "stop"
  | playSound .. => "play"
  | music .. => "music"
  | wait .. => "wait"
  | timer .. => "timer"

def Node.keyword : Node → String
  | statement command => command.keyword
  | other => other.kind

theorem Command.keyword_mem (c : Command) : c.keyword ∈ Rule.commandKeys.flatten := by
  cases c <;> simp [keyword, Rule.commandKeys]

/-- Only the statements that run later begin like agents. -/
theorem Command.keyword_notMem {c : Command} (h : c.isScheduled = false) :
    c.keyword ∉ Rule.agentKeys.flatten := by
  cases c with
  | wait | timer => exact nomatch h
  | _ => simp [keyword, Rule.agentKeys]

theorem Node.keyword_mem (node : Node) : node.keyword ∈ onwardWords := by
  cases node with
  | statement c =>
    have hall : ∀ w ∈ Rule.commandKeys.flatten, w ∈ onwardWords := by decide
    exact hall _ c.keyword_mem
  | _ => simp [keyword, kind, onwardWords]

section Leading

variable {form : Nat → Expression → Token → Prop} {k : BlockKind}

theorem Command.Spelled.leading {c : Command} (h : c.Spelled form room ws) (ts : List Token) :
    leading (ws ++ ts) = c.keyword := by
  cases h <;> exact leading_word ..

theorem Node.Spelled.leading {node : Node} (h : node.Spelled form k room ws) (ts : List Token) :
    leading (ws ++ ts) = node.keyword := by
  cases h with
  | statement _ _ hc => exact hc.leading ts
  | _ => exact leading_word ..

/-- The statement `animate` names an agent at once. -/
theorem Command.Spelled.tellsAnimate {c : Command} (h : c.Spelled form room ws) (ts : List Token) :
    TellsAnimate (ws ++ ts) := by
  intro hts
  cases h with
  | animate => exact ⟨_, _, rfl⟩
  | _ => exact absurd hts (leading_word_ne (by decide))

theorem Command.Spelled.settled {c : Command} (h : c.Spelled form room ws) (ts : List Token) :
    Settled (spread (ws ++ ts)) := by
  cases h <;> exact settled_word _ _ _

theorem Node.Spelled.settled {node : Node} (h : node.Spelled form k room ws) (ts : List Token) :
    Settled (spread (ws ++ ts)) := by
  cases h with
  | statement _ _ hc => exact hc.settled ts
  | _ => exact settled_word _ _ _

theorem Node.Spelled.onward {node : Node} (h : node.Spelled form k room ws) (ts : List Token) :
    Onward (ws ++ ts) := by
  refine ⟨h.leading ts ▸ node.keyword_mem, h.settled ts, fun hts => ?_⟩
  cases h with
  | statement _ _ hc => exact hc.tellsAnimate ts hts
  | _ => exact absurd hts (leading_word_ne (by decide))

theorem Node.Spelled.ne_nil {node : Node} (h : node.Spelled form k room ws) : ws ≠ [] := by
  rintro rfl
  exact (h.onward []).leading_ne (by decide) rfl

/-- Whether tokens begin where the items of a block end. -/
structure BlockEnds (ts : List Token) : Prop where
  leading_mem : Script.leading ts ∈ ["end", "else"]
  settled : Settled (spread ts)

/-- A block ends with its last word. -/
theorem BlockEnds.end (ts : List Token) : BlockEnds (.word "end" :: ts) :=
  ⟨leading_word_mem (by decide), settled_word _ _ _⟩

/-- A block of an agent `if` may end where the other one begins. -/
theorem BlockEnds.else (ts : List Token) : BlockEnds (.word "else" :: ts) :=
  ⟨leading_word_mem (by decide), settled_word _ _ _⟩

/-- What stands after the last item of a block is onward. -/
theorem BlockEnds.onward {ts : List Token} (h : BlockEnds ts) : Onward ts := by
  have hall : ∀ w ∈ ["end", "else"], w ∈ onwardWords ∧ w ≠ "animate" := by decide
  obtain ⟨hmem, hne⟩ := hall _ h.leading_mem
  exact ⟨hmem, h.settled, fun he => absurd he hne⟩

theorem ItemsSpelled.onward {items : List (Located Node)} {ts : List Token}
    (h : ItemsSpelled form k room items ws) (hts : BlockEnds ts) : Onward (ws ++ ts) := by
  cases h with
  | nil => exact hts.onward
  | cons hnode _ =>
    rw [List.append_assoc]
    exact hnode.onward _

end Leading

namespace Rule

/-- A statement in a block that has statements. -/
theorem Takes.statementItem {k : BlockKind} {c : Command} {T : Cursor → Prop}
    (hk : k.hasStatements = true) (hscheduled : k.hasAgents = true → c.isScheduled = false)
    (hlead : leading ts = c.keyword)
    (h : Takes (At ts) (Rule.command room) (fun v => v.unplaced = c.unplaced) T) :
    Takes (At ts) (itemRule k room) (fun v => v.unplaced = (Node.statement c).unplaced) T := by
  have hnode : Takes (At ts) (asNode (Rule.command room))
      (fun v => v.unplaced = (Node.statement c).unplaced) T :=
    h.bind fun _ hv => .pure (congrArg Node.statement hv)
  have hall : ∀ w ∈ commandKeys.flatten, w ≠ "page" ∧ w ≠ "auto_advance" := by decide
  obtain ⟨hpage, hadvance⟩ := hall _ c.keyword_mem
  rw [← hlead] at hpage hadvance
  cases k with
  | story =>
    exact .orElse_right ((Declines.keyword (by decide +kernel)).bind ts (by simpa using hpage))
      hnode
  | page =>
    have hother : Stops (At ts) autoAdvance :=
      (Declines.keyword (by decide +kernel)).bind ts (by simpa using hadvance)
    have hagent := Declines.agent room ts (hlead ▸ Command.keyword_notMem (hscheduled rfl))
    exact .orElse_right hother (.orElse_right hagent hnode)
  | mixed =>
    have hagent := Declines.agent room ts (hlead ▸ Command.keyword_notMem (hscheduled rfl))
    exact .orElse_right hagent hnode
  | statements => exact hnode
  | agents => exact nomatch hk

/-- No item begins where a block ends. -/
theorem Stops.itemRule (k : BlockKind) (room : Nat) (hts : BlockEnds ts) :
    Stops (At ts) (itemRule k room) := by
  have no {keys : List String} {p : Rule Node} (hp : Declines keys p)
      (hkeys : ∀ w ∈ ["end", "else"], w ∉ keys) : Stops (At ts) p := hp ts (hkeys _ hts.leading_mem)
  have hagent := no (Declines.agent room) (by decide)
  have hcommand := no (Declines.command room) (by decide)
  cases k with
  | story =>
    have hpage : Declines ["page"] (page room) := (Declines.keyword (by decide +kernel)).bind
    exact (no hpage (by decide)).orElse hcommand
  | page =>
    have hadvance : Declines ["auto_advance"] autoAdvance :=
      (Declines.keyword (by decide +kernel)).bind
    exact (no hadvance (by decide)).orElse (hagent.orElse hcommand)
  | mixed => exact hagent.orElse hcommand
  | agents => exact hagent
  | statements => exact hcommand

/-! ### Handlers -/

def gestureRules : List (Rule Gesture) :=
  [do keyword "on_click"; pure .click, do keyword "on_hover"; pure .hover,
    do keyword "on_drag"; pure .drag, do keyword "on_drop"; pure .drop]

theorem gestureRules_decline :
    List.Forall₂ Declines [["on_click"], ["on_hover"], ["on_drag"], ["on_drop"]] gestureRules := by
  refine .cons (Declines.keyword ?_).bind (.cons (Declines.keyword ?_).bind
    (.cons (Declines.keyword ?_).bind (.cons (Declines.keyword ?_).bind .nil))) <;> decide +kernel

theorem Takes.gesture (g : Gesture) :
    Takes (At (.word g.name (isRun_name g) :: ts)) Rule.gesture (· = g) (Before ts) := by
  have hread {w : String} (h : isRun w = true) :
      Takes (At (.word w h :: ts)) (do Rule.keyword w; Pure.pure g) (· = g) (Before ts) :=
    (ReadsToken.keyword w h).takes.seq (.pure rfl)
  cases g with
  | click => exact .choose gestureRules_decline 0 rfl (by decide) (hread _)
  | hover => exact .choose gestureRules_decline 1 rfl (by decide) (hread _)
  | drag => exact .choose gestureRules_decline 2 rfl (by decide) (hread _)
  | drop => exact .choose gestureRules_decline 3 rfl (by decide) (hread _)

theorem Takes.handler {contents : Rule (List (Located Node))} {items : List (Located Node)}
    (g : Gesture) (hcontents : Takes (Before (ws ++ .word "end" :: ts)) contents
      (fun vs => unplacedItems vs = unplacedItems items) (Before (.word "end" :: ts))) :
    Takes (Before (.word g.name (isRun_name g) :: (enclosed ws ++ ts)))
      (Rule.spaced (Rule.handler contents))
      (fun v => v.gesture = g ∧ unplacedItems v.body = unplacedItems items) (At ts) := by
  refine Takes.spaced ((Takes.gesture g).located.here.bind fun v hv => ?_)
  exact hcontents.block.cut.bind fun _ hbody => .pure ⟨hv, hbody⟩

theorem Takes.page {items : List (Located Node)} (id : Int64)
    (hcontents : Takes (Before (ws ++ .word "end" :: ts)) (contentsRule .page (room + 1))
      (fun vs => unplacedItems vs = unplacedItems items) (Before (.word "end" :: ts))) :
    Takes (At (.word "page" :: .integer id :: (enclosed ws ++ ts))) (Rule.page (room + 1))
      (fun v => v.unplaced = (Node.page id items).unplaced) (Before ts) := by
  refine (ReadsToken.keyword "page" _).takes.seq ((ReadsToken.integer id).spaced.cut.seq ?_)
  have hblock : Takes (Before (enclosed ws ++ ts)) (Rule.cut <|
      Rule.block "agent, statement or 'end'" (contentsRule .page (room + 1)))
      (fun vs => unplacedItems vs = unplacedItems items) (Before ts) := hcontents.block.cut
  exact hblock.bind fun _ hv => .pure (congrArg (Node.page id) hv)

end Rule

/-! ## Whole scripts -/

open Rule

mutual

theorem takes_node : (node : Node) → {k : BlockKind} → {room : Nat} → {ws : List Token} →
    (ts : List Token) → node.Spelled Form k room ws → Onward ts →
      Takes (At (ws ++ ts)) (itemRule k room) (fun v => v.unplaced = node.unplaced) (Before ts)
  | .page id items, _, _, _, ts, .page _ hitems, _ =>
    Takes.orElse_left (Takes.page id (takes_items items _ hitems (.end ts)))
  | .autoAdvance delay, _, _, _, ts, .autoAdvance _, _ => by
    have hread : Takes (At (.word "auto_advance" :: .duration delay :: ts)) autoAdvance
        (· = .autoAdvance delay) (Before ts) := .keyed (ReadsToken.duration delay).spaced
    exact hread.orElse_left.imp fun _ hv => congrArg _ hv
  | .text content _, _, _, _, _, .text _ hk ha, hts =>
    .agentItem hk 0 rfl (by decide) (.textAgent ha content hts.attributesEnd)
  | .button label _ handlers, _, _, _, ts, .button _ hk ha hh, _ => by
    have hblock := (takes_handlers handlers ts hh).handlerBlock
    rw [List.cons_append, List.cons_append, List.append_assoc]
    exact .agentItem hk 1 rfl (by decide)
      (.buttonAgent ha label (.of_ne _ (by decide) (by decide)) hblock)
  | .button label _ _, _, _, _, _, .plainButton _ hk ha, hts =>
    .agentItem hk 1 rfl (by decide) (.buttonAgent ha label hts.attributesEnd (.noHandlers hts))
  | .image src _, _, _, _, _, .image _ hk ha, hts =>
    .agentItem hk 2 rfl (by decide) (.imageAgent ha src hts.attributesEnd)
  | .video src _, _, _, _, _, .video _ hk ha, hts =>
    .agentItem hk 3 rfl (by decide) (.videoAgent ha src hts.attributesEnd)
  | .choice _ items _, _, room + 1, _, ts, .choice hk hcondition hitems, _ => by
    have hcontents := takes_items items _ hitems (.end ts)
    rw [List.cons_append, List.cons_append, enclosed_append]
    exact .agentItem hk 4 rfl (by decide) (Takes.choiceAgent hcondition hcontents (.noElse _))
  | .choice _ items elseItems, _, room + 1, _, ts, .choiceElse hk hcondition hitems helse, _ => by
    have hcontents (us : List Token) := takes_items items _ hitems (.else us)
    have hothers := takes_items elseItems _ helse (.end ts)
    rw [List.cons_append, List.cons_append, enclosed_append, List.append_assoc]
    exact .agentItem hk 4 rfl (by decide)
      (Takes.choiceAgent hcondition (hcontents _) hothers.elseBlock)
  | .forEach _ _ items, _, room + 1, _, ts, .forEach x hk hrange hitems, _ =>
    .agentItem hk 5 rfl (by decide)
      (.forAgent (takes_items items _ hitems (.end ts)) x hrange)
  | .wait delay items, _, room + 1, _, ts, .wait _ hk hitems, _ =>
    .agentItem hk 6 rfl (by decide)
      (.waitAgent (takes_items items _ hitems (.end ts)) delay)
  | .timer interval times items, _, room + 1, _, ts, .timer _ _ hk hitems, _ => by
    have hcontents := takes_items items _ hitems (.end ts)
    rw [List.cons_append, List.cons_append, List.cons_append, List.append_assoc]
    exact .agentItem hk 7 rfl (by decide) (Takes.timerAgent hcontents interval times)
  | .statement c, _, _, _, ts, .statement hk hscheduled hc, hts =>
    .statementItem hk hscheduled (hc.leading ts) (takes_command c ts hc hts)

theorem takes_command : (c : Command) → {room : Nat} → {ws : List Token} →
    (ts : List Token) → c.Spelled Form room ws → Onward ts →
      Takes (At (ws ++ ts)) (command room) (fun v => v.unplaced = c.unplaced) (Before ts)
  | .init .., _, _, _, .init x he, hts =>
    .command 0 rfl (by decide) (Takes.assignment true x he (.of_onward hts)).unplaced
  | .set .., _, _, _, .set x he, hts =>
    .command 0 rfl (by decide) (Takes.assignment false x he (.of_onward hts)).unplaced
  | .add .., _, _, _, .add x he, _ =>
    .command 1 rfl (by decide) (Takes.addition x he).unplaced
  | .subtract .., _, _, _, .subtract x he, _ =>
    .command 2 rfl (by decide) (Takes.subtraction x he).unplaced
  | .goToPage page, _, _, _, .goToPage _, _ =>
    .command 3 rfl (by decide) (Takes.turn_page page).unplaced
  | .goBack, _, _, _, .goBack, _ => .command 3 rfl (by decide) Takes.turn_back.unplaced
  | .move .., _, _, _, .move hname hx hy hm, hts =>
    .command 4 rfl (by decide) (.movement hname hx hy hm hts)
  | .tween .., _, _, ts, .tween hname hp hm, hts => by
    rw [List.cons_append, List.cons_append, List.cons_append, List.cons_append,
      List.append_assoc]
    exact .command 5 rfl (by decide) (.tweening hname hp hm hts)
  | .animate .., _, _, _, .animate hkind hname hm, hts =>
    .command 6 rfl (by decide) (.animating hname hkind hm hts)
  | .stopAnimation _, _, _, _, .stopAnimation hname, _ =>
    .command 7 rfl (by decide) (Takes.stopping_animation hname).unplaced
  | .playSound .., _, _, _, .playSound src, hts =>
    .command 8 rfl (by decide) (Takes.playing src (.noVolume hts)).unplaced
  | .playSound .., _, _, _, .playSoundAt src volume, _ =>
    .command 8 rfl (by decide) (Takes.playing src (.volume volume)).unplaced
  | .stopSound _, _, _, _, .stopSounds, hts => by
    have hnone := Takes.optional_none (Stops.stringLiteral (hts.leading_ne (by decide))).spaced
    exact .command 7 rfl (by decide) (Takes.stopping_sound hnone).unplaced
  | .stopSound _, _, _, _, .stopSound src, _ =>
    .command 7 rfl (by decide)
      (Takes.stopping_sound (.optional_exactly (ReadsToken.stringLiteral src).spaced)).unplaced
  | .stopMusic, _, _, _, .stopMusic, _ => .command 7 rfl (by decide) Takes.stopping_music.unplaced
  | .music src _, _, _, _, .music _ hm, hts => .command 9 rfl (by decide) (.music src hm hts)
  | .wait delay items, room + 1, _, ts, .wait _ hitems, _ =>
    .command 10 rfl (by decide)
      (.waiting (takes_items items _ hitems (.end ts)) delay)
  | .timer interval times items, room + 1, _, ts, .timer _ _ hitems, _ => by
    have hcontents := takes_items items _ hitems (.end ts)
    rw [List.cons_append, List.cons_append, List.cons_append, List.append_assoc]
    exact .command 11 rfl (by decide) (Takes.ticking hcontents interval times)

theorem takes_items : (items : List (Located Node)) → {k : BlockKind} → {room : Nat} →
    {ws : List Token} → (ts : List Token) → ItemsSpelled Form k room items ws →
      BlockEnds ts →
      Takes (Before (ws ++ ts)) (Rule.items (itemRule k room))
        (fun vs => unplacedItems vs = unplacedItems items) (Before ts)
  | [], k, room, _, _, .nil, hts =>
    (Takes.many_nil (Stops.itemRule k room hts).item).imp fun _ hv => hv ▸ rfl
  | ⟨_, node⟩ :: items, _, _, _, ts, .cons hnode hitems, hts => by
    have hitem := (takes_node node _ hnode (hitems.onward hts)).located.here.spaced
    rw [List.append_assoc]
    refine (Takes.many_cons hnode.ne_nil hitem (takes_items items ts hitems hts)).imp ?_
    rintro _ ⟨⟨_, v⟩, vs, rfl, hv, hvs⟩
    rw [unplacedItems, unplacedItems, hvs, show v.unplaced = node.unplaced from hv]

theorem takes_handlers : (handlers : List (HandlerNode Node)) → {room : Nat} →
    {ws : List Token} → (ts : List Token) → HandlersSpelled Form room handlers ws →
      Takes (Before (ws ++ .word "end" :: ts))
        (many (spaced (handler (contentsRule .statements room))))
        (fun vs => unplacedHandlers vs = unplacedHandlers handlers) (Before (.word "end" :: ts))
  | [], room, _, ts, .nil => by
    have hend : Stops (At (.word "end" :: ts)) gesture :=
      Declines.firstOf gestureRules_decline _ (leading_word_notMem (by decide))
    have hhandler : Stops (At (.word "end" :: ts)) (handler (contentsRule .statements room)) :=
      fun c hc => (hend.located.bind) c hc.before
    exact (Takes.many_nil hhandler.spaced).imp fun _ hv => hv ▸ rfl
  | ⟨gesture, items⟩ :: handlers, room + 1, _, ts, .cons _ hitems hhandlers => by
    have hcontents (us : List Token) := takes_items items _ hitems (.end us)
    have hothers := takes_handlers handlers ts hhandlers
    rw [List.append_assoc]
    refine (Takes.many_cons (List.cons_ne_nil _ _) (.handler gesture (hcontents _)) hothers).imp ?_
    rintro _ ⟨⟨_, body⟩, vs, rfl, ⟨rfl, hbody⟩, hvs⟩
    rw [unplacedHandlers, unplacedHandlers, hvs, hbody]

end

theorem takes_script {tree : Tree} {ws : List Token} (h : tree.Spelled Form ws) :
    Takes (At ws) script (fun v => v.unplaced = tree.unplaced) (At []) := by
  cases h with
  | @story title items ws hitems =>
    have hcontents := takes_items items _ hitems (.end [])
    have hblock : Takes (Before (enclosed ws)) (cut <| block "page, statement or 'end'" <|
        Rule.items (itemRule .story (maxNesting - 1)))
        (fun vs => unplacedItems vs = unplacedItems items) (Before []) := by
      rw [← List.append_nil (enclosed ws)]
      exact hcontents.block.cut
    have hstory : Takes (At (.word "fable" :: .string title :: enclosed ws)) story
        (fun v => v.unplaced = (⟨title, items⟩ : Tree).unplaced) (Before []) := by
      refine (Takes.word "fable" _).here.seq ?_
      refine (ReadsToken.stringLiteral title).spaced.cut.seq ?_
      exact hblock.bind fun _ hv => .pure (congrArg (Tree.mk title) hv)
    have hend : Takes (At []) endOfText (· = ()) (Before []) :=
      fun c hc => ⟨(), c, by rw [endOfText, hc]; rfl, rfl, .inl hc⟩
    exact hstory.bind fun _ hv => hend.spaced.inContext.seq (.pure hv)

/-- A script in which blocks, and the parentheses and prefixed operators of the expressions inside
them, nest as deep as there is room at most is read back from its tokens, up to positions. -/
theorem Tree.read_spread {tree : Tree} {ws : List Token} (h : tree.Spelled Form ws) :
    ∃ tree', Tree.read (String.ofList (spread ws)) = .ok tree' ∧
      tree'.unplaced = tree.unplaced := by
  have hsettled : Settled (spread ws) := by
    cases h
    exact settled_word _ _ _
  have hat : (Cursor.ofText (String.ofList (spread ws))).At ws :=
    String.toList_ofList.trans (front_eq_spread hsettled).symm
  obtain ⟨tree', rest, hread, htree, -⟩ := takes_script h _ hat
  exact ⟨tree', by rw [Tree.read, hread], htree⟩

/-- A story in which `animate` follows an attribute of the same name. -/
def gateTree : Tree :=
  ⟨"Gate", [⟨default, .page 1 [
    ⟨default, .text "Open {n}" [⟨default, .id "sign"⟩,
      ⟨default, .animate "bounce" [⟨default, .duration ⟨2, .seconds⟩⟩]⟩]⟩,
    ⟨default, .statement (.animate "sign" "shake" [])⟩,
    ⟨default, .choice (.boolean true) [⟨default, .button "Go" [] [⟨.click, [⟨default,
      .statement (.wait ⟨5, .milliseconds⟩ [⟨default, .statement (.goToPage (-1))⟩])⟩]⟩]⟩] []⟩]⟩]⟩

/-- Its tokens. -/
theorem gateTree_spelled : ∃ ws, gateTree.Spelled Form ws ∧ String.ofList (spread ws) =
    "fable \"Gate\" do page 1 do text \"Open \x7bn\x7d\" #sign animate bounce " ++
      "duration 2s animate #sign shake if true do button \"Go\" do on_click do wait 5ms do " ++
      "go to page -1 end end end end end end" := by
  have hmodifier : ModifiersSpelled Modifier.IsOfAnimation
      [⟨default, .duration ⟨2, .seconds⟩⟩] _ := .cons ⟨trivial, .duration _⟩ .nil
  have htext : Node.Spelled Form .page 38 (.text "Open \x7bn\x7d" [⟨default, .id "sign"⟩,
      ⟨default, .animate "bounce" [⟨default, .duration ⟨2, .seconds⟩⟩]⟩]) _ :=
    .text _ rfl (.cons (.id (by decide +kernel))
      (.cons (.animate (by decide +kernel) hmodifier) .nil))
  have hanimate : Node.Spelled Form .page 38 (.statement (.animate "sign" "shake" [])) _ :=
    .statement rfl (fun _ => rfl) (.animate (by decide +kernel) (by decide +kernel) .nil)
  have hwait : Node.Spelled Form .statements 36
      (.statement (.wait ⟨5, .milliseconds⟩ [⟨default, .statement (.goToPage (-1))⟩])) _ :=
    .statement rfl (fun h => nomatch h)
      (.wait _ (.cons (.statement rfl (fun h => nomatch h) (.goToPage (-1))) .nil))
  have hcondition : Form 38 (.boolean true) _ :=
    Surface.form .tight (e := .boolean true) (Nat.zero_le _)
  have hspelled : gateTree.Spelled Form _ :=
    .story "Gate" (.cons (.page 1 (.cons htext (.cons hanimate (.cons
      (.choice rfl hcondition (.cons (.button "Go" rfl .nil
        (.cons .click (.cons hwait .nil) .nil)) .nil)) .nil)))) .nil)
  exact ⟨_, hspelled, by decide +kernel⟩

/-- It is read back. -/
theorem Tree.read_spread_gate : ∃ tree',
    Tree.read ("fable \"Gate\" do page 1 do text \"Open \x7bn\x7d\" #sign animate bounce " ++
      "duration 2s animate #sign shake if true do button \"Go\" do on_click do wait 5ms do " ++
      "go to page -1 end end end end end end") = .ok tree' ∧
        tree'.unplaced = gateTree.unplaced := by
  obtain ⟨ws, hspelled, htext⟩ := gateTree_spelled
  exact htext ▸ Tree.read_spread hspelled

def lever : Variable := ⟨"lever", by decide +kernel⟩

/-- A story that sets `lever`. -/
def leverTree (title : String) (value : Expression) : Tree :=
  ⟨title, [⟨default, .statement (.set lever.name value)⟩]⟩

def leverTokens (title : String) (t : Token) : List Token :=
  .word "fable" :: .string title :: enclosed [.word "set", .var lever, .word "to", t]

def leverScript (title : String) (t : Token) : String :=
  String.ofList (spread (leverTokens title t))

theorem leverTree_spelled {form : Nat → Expression → Token → Prop} (title : String)
    {value : Expression} {t : Token} (h : form (maxNesting - 1) value t) :
    (leverTree title value).Spelled form (leverTokens title t) := by
  have hset : Node.Spelled form .story (maxNesting - 1) _ _ :=
    .statement rfl (fun h => nomatch h) (.set lever h)
  exact .story title (.cons hset .nil)

/-- A variable behind some exclamation marks. -/
def nots : Nat → Surface
  | 0 => .var lever
  | n + 1 => .unary .not (nots n)

/-- As many exclamation marks as there is room for outside of all blocks. -/
def deepToken : Token := (nots maxNesting).token .tight

/-- A variable is read, and nothing is left. -/
def Outcome.readsOnly (name : String) : Outcome Expression → Bool
  | .ok (.var name') c => name' == name && c.rest.isEmpty
  | _ => false

/-- A variable and a comment that goes on behind it. -/
def remarkToken : Token := .bare "lever // off".toList ⟨'l', _, rfl, by decide⟩

theorem remarkToken_readsAlone :
    ReadsAlone (maxNesting - 1) remarkToken.written (.var "lever") := by
  have hread : (expression (maxNesting - 1) (.ofText "lever // off")).readsOnly "lever" = true := by
    decide +kernel
  cases hout : expression (maxNesting - 1) (.ofText "lever // off") with
  | ok e c =>
    rw [hout] at hread
    cases e with
    | var name =>
      obtain ⟨hname, hrest⟩ := Bool.and_eq_true_iff.mp hread
      rw [beq_iff_eq.mp hname] at hout
      exact ⟨c, hout, List.isEmpty_iff.mp hrest⟩
    | _ => cases hread
  | refuse | abort =>
    rw [hout] at hread
    cases hread

/-- A form that is read alone need not be read inside of a block: there is less room, and a comment
at its end goes on. -/
theorem leverTree_not_read :
    ((leverTree "Deep" (nots maxNesting).value).Spelled (fun _ => Form maxNesting)
        (leverTokens "Deep" deepToken) ∧
      ∀ tree', Tree.read (leverScript "Deep" deepToken) ≠ .ok tree') ∧
    (leverTree "Remark" (.var "lever")).Spelled (fun room e t => ReadsAlone room t.written e)
        (leverTokens "Remark" remarkToken) ∧
      ∀ tree', Tree.read (leverScript "Remark" remarkToken) ≠ .ok tree' := by
  have fails {text : String} (h : (Tree.read text).toBool = false) (tree' : Tree) :
      Tree.read text ≠ .ok tree' := by
    intro hread
    rw [hread] at h
    exact nomatch h
  have hdepth : (nots maxNesting).depth ≤ maxNesting := by decide +kernel
  refine ⟨⟨leverTree_spelled "Deep" (Surface.form .tight hdepth), fails ?_⟩,
    leverTree_spelled "Remark" remarkToken_readsAlone, fails ?_⟩ <;> decide +kernel

end Storybook.Script
